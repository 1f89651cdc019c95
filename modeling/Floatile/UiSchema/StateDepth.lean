import Floatile.UiSchema.StatePath

/-! How deep an accepted value is nested. The limit is enforced along the schema, and of a field
that the schema does not name only the place is checked. -/
namespace Floatile.UiSchema

open Floatile.Lib
open Floatile.Core

mutual

/-- How many levels lie below the root of a value. -/
def nesting : Json → ℕ
  | .array items => itemsNesting items
  | .object fields => fieldsNesting fields
  | .null | .bool _ | .number _ | .string _ => 0

def itemsNesting : List Json → ℕ
  | [] => 0
  | item :: items => max (nesting item + 1) (itemsNesting items)

def fieldsNesting : List (String × Json) → ℕ
  | [] => 0
  | (_,sub) :: fields => max (nesting sub + 1) (fieldsNesting fields)

end

mutual

/-- Under an additional property no value reaches below the limit. The value stands at the given
depth. -/
def Shallow (schema : JsonSchema) (value : Json) (depth : ℕ) : Prop :=
  match value with
  | .array items =>
    match schema with
    | .array _ itemSchema => ItemsShallow itemSchema items (depth + 1)
    | _ => True
  | .object fields =>
    match schema with
    | .object _ properties _ => FieldsShallow properties fields (depth + 1)
    | _ => True
  | .null | .bool _ | .number _ | .string _ => True

def ItemsShallow (schema : JsonSchema) (items : List Json) (depth : ℕ) : Prop :=
  match items with
  | [] => True
  | item :: items => Shallow schema item depth ∧ ItemsShallow schema items depth

def FieldsShallow (properties : List (String × JsonSchema)) (fields : List (String × Json))
    (depth : ℕ) : Prop :=
  match fields with
  | [] => True
  | (key,sub) :: fields =>
    (match SortedMap.find key properties with
      | some subSchema => Shallow subSchema sub depth
      | none => depth + nesting sub ≤ maxStateDepth) ∧
      FieldsShallow properties fields depth

end

theorem ensureDepth_eq_ok {path : String} {depth : ℕ} :
    ensureDepth path depth = .ok () ↔ depth ≤ maxStateDepth := by
  unfold ensureDepth
  split_ifs with h
  · simp
    omega
  · simp
    omega

theorem validateValue_object {required : List String} {properties : List (String × JsonSchema)}
    {additional : Bool} {fields : List (String × Json)} {path : String} {depth : ℕ}
    (h : validateValue (.object required properties additional) (.object fields) path depth =
      .ok ()) :
    depth ≤ maxStateDepth ∧
      validateFields properties additional fields path (depth + 1) = .ok () := by
  rw [validateValue, Checked.check_bind_eq_ok, ensureDepth_eq_ok] at h
  obtain ⟨hdepth,h⟩ := h
  dsimp only at h
  split_ifs at h
  · simp only [Checked.check_bind_eq_ok] at h
    exact ⟨hdepth,h.2.2⟩
  · simp only [Checked.check_bind_eq_ok] at h
    exact ⟨hdepth,h.2.2⟩

mutual

/-- Induction over the value along the schema: an accepted value is as shallow as it should be
exactly if its unnamed parts are. -/
theorem shallow_iff {schema : JsonSchema} {value : Json} {path : String} {depth : ℕ}
    (h : validateValue schema value path depth = .ok ()) :
    depth + nesting value ≤ maxStateDepth ↔ Shallow schema value depth := by
  match value with
  | .array items =>
    cases schema with
    | array maxItems itemSchema =>
      simp only [validateValue, Checked.check_bind_eq_ok, ensureDepth_eq_ok] at h
      obtain ⟨hdepth,-,hitems⟩ := h
      simpa only [nesting, Shallow] using itemsShallow_iff hdepth hitems
    | string | boolean | number | integer | null | object =>
      simp [validateValue, Checked.check_bind_eq_ok, typeMismatch] at h
  | .object fields =>
    cases schema with
    | object required properties additional =>
      obtain ⟨hdepth,hfields⟩ := validateValue_object h
      simpa only [nesting, Shallow] using fieldsShallow_iff hdepth hfields
    | string | boolean | number | integer | null | array =>
      simp [validateValue, Checked.check_bind_eq_ok, typeMismatch] at h
  | .null | .bool _ | .number _ | .string _ =>
    simp only [validateValue, Checked.check_bind_eq_ok, ensureDepth_eq_ok] at h
    simpa only [nesting, Shallow, Nat.add_zero, iff_true] using h.1

theorem itemsShallow_iff {schema : JsonSchema} {items : List Json} {path : String}
    {index depth : ℕ} (hdepth : depth ≤ maxStateDepth)
    (h : validateItems schema items path index (depth + 1) = .ok ()) :
    depth + itemsNesting items ≤ maxStateDepth ↔ ItemsShallow schema items (depth + 1) := by
  match items with
  | [] => simpa only [itemsNesting, ItemsShallow, Nat.add_zero, iff_true] using hdepth
  | item :: items =>
    rw [validateItems, Checked.check_bind_eq_ok] at h
    have hfirst := shallow_iff h.1
    have hrest := itemsShallow_iff hdepth h.2
    simp only [itemsNesting, ItemsShallow]
    rw [← hfirst,← hrest]
    omega

theorem fieldsShallow_iff {properties : List (String × JsonSchema)} {additional : Bool}
    {fields : List (String × Json)} {path : String} {depth : ℕ} (hdepth : depth ≤ maxStateDepth)
    (h : validateFields properties additional fields path (depth + 1) = .ok ()) :
    depth + fieldsNesting fields ≤ maxStateDepth ↔
      FieldsShallow properties fields (depth + 1) := by
  match fields with
  | [] => simpa only [fieldsNesting, FieldsShallow, Nat.add_zero, iff_true] using hdepth
  | (key,sub) :: fields =>
    simp only [fieldsNesting, FieldsShallow]
    rw [validateFields] at h
    cases hkey : SortedMap.find key properties with
    | some subSchema =>
      rw [hkey] at h
      obtain ⟨hvalue,hfields⟩ := Checked.check_bind_eq_ok.mp h
      have hsub := shallow_iff hvalue
      have hrest := fieldsShallow_iff hdepth hfields
      simp only
      rw [← hsub,← hrest]
      omega
    | none =>
      rw [hkey] at h
      have hfields : validateFields properties additional fields path (depth + 1) = .ok () := by
        cases additional with
        | true => exact (Checked.check_bind_eq_ok.mp h).2
        | false => exact h
      have hrest := fieldsShallow_iff hdepth hfields
      simp only
      rw [← hrest]
      omega

end

/-- An accepted value is nested no deeper than the limit exactly if the values under its
additional properties are not. -/
theorem nesting_le_iff {schema : JsonSchema} {value : Json}
    (h : validateValue schema value "$" 0 = .ok ()) :
    nesting value ≤ maxStateDepth ↔ Shallow schema value 0 := by
  rw [← shallow_iff h,Nat.zero_add]

/-- Arrays around a value. -/
def wrapped : ℕ → Json
  | 0 => .null
  | n + 1 => .array [wrapped n]

/-- A named field and an additional one. -/
theorem nesting_le_iff_extra :
    nesting (.object [("a",.null),("b",wrapped 3)]) ≤ maxStateDepth ↔
      Shallow (.object [] [("a",.null)] true) (.object [("a",.null),("b",wrapped 3)]) 0 :=
  nesting_le_iff (by rfl)

/-- Twenty arrays under an additional property are accepted. -/
theorem deep_extra_accepted :
    ¬∀ schema value, validateValue schema value "$" 0 = .ok () →
      nesting value ≤ maxStateDepth := by
  intro h
  have hle := h (.object [] [] true) (.object [("x",wrapped 20)]) (by rfl)
  exact absurd hle (by decide)

end Floatile.UiSchema
