import Floatile.Lib.Checked
import Floatile.UiSchema.Schema

/-! What it means for a value to be an instance of a schema, apart from how the value is checked. -/
namespace Floatile.UiSchema

open Floatile.Lib
open Floatile.Lib.Checked (check_bind_eq_ok)
open Floatile.Core

/-- The value has the shape that the schema describes; an object has the required fields, and a
field that the schema does not name needs its permission. -/
inductive Meets : JsonSchema → Json → Prop
  | string {maxLength : Option ℕ} {s : String}
      (hlength : ∀ max ∈ maxLength, Text.charCount s ≤ max) : Meets (.string maxLength) (.string s)
  | boolean (b : Bool) : Meets .boolean (.bool b)
  | number (n : Number) : Meets .number (.number n)
  | integer {n : Number} (hinteger : n.asI64.isSome ∨ n.asU64.isSome) :
      Meets .integer (.number n)
  | null : Meets .null .null
  | array {maxItems : Option ℕ} {itemSchema : JsonSchema} {items : List Json}
      (hlength : ∀ max ∈ maxItems, items.length ≤ max)
      (hitems : ∀ item ∈ items, Meets itemSchema item) :
      Meets (.array maxItems itemSchema) (.array items)
  | object {required : List String} {properties : List (String × JsonSchema)} {additional : Bool}
      {fields : List (String × Json)}
      (hrequired : ∀ name ∈ required, (SortedMap.find name fields).isSome)
      (hknown : ∀ e ∈ fields, additional = true ∨ (SortedMap.find e.1 properties).isSome)
      (hfields : ∀ e ∈ fields, ∀ sub, SortedMap.find e.1 properties = some sub → Meets sub e.2) :
      Meets (.object required properties additional) (.object fields)

theorem checkMax_eq_ok {limit : Option ℕ} {length : ℕ} {path noun : String}
    (h : checkMax limit length path noun = .ok ()) : ∀ max ∈ limit, length ≤ max := by
  intro max hmax
  rw [hmax] at h
  simp only [checkMax, Checked.ite_error_eq_ok] at h
  omega

theorem checkRequired_eq_ok_iff {fields : List (String × Json)} {path : String}
    {names : List String} : checkRequired fields path names = .ok () ↔
      ∀ name ∈ names, (SortedMap.find name fields).isSome := by
  induction names with
  | nil => simp [checkRequired]
  | cons first names ih =>
    rw [checkRequired, Checked.ite_error_eq_ok, ih, List.forall_mem_cons]
    simp [Option.isSome_iff_ne_none]

theorem checkUnknown_eq_ok_iff {properties : List (String × JsonSchema)} {path : String}
    {fields : List (String × Json)} : checkUnknown properties path fields = .ok () ↔
      ∀ e ∈ fields, (SortedMap.find e.1 properties).isSome := by
  induction fields with
  | nil => simp [checkUnknown]
  | cons first fields ih =>
    rw [checkUnknown, Checked.ite_error_eq_ok, ih, List.forall_mem_cons]
    simp [Option.isSome_iff_ne_none]

mutual

/-- Induction over the value along the schema. -/
theorem meets_of_validateValue {schema : JsonSchema} {value : Json} {path : String} {depth : ℕ}
    (h : validateValue schema value path depth = .ok ()) : Meets schema value := by
  match value with
  | .null =>
    cases schema <;> simp [validateValue, check_bind_eq_ok, typeMismatch] at h
    exact .null
  | .bool b =>
    cases schema <;> simp [validateValue, check_bind_eq_ok, typeMismatch] at h
    exact .boolean b
  | .number n =>
    cases schema <;> simp [validateValue, check_bind_eq_ok, typeMismatch] at h
    · exact .number n
    · exact .integer (by simpa [Option.isSome_iff_ne_none, or_iff_not_imp_left] using h.2)
  | .string s =>
    cases schema <;> simp [validateValue, check_bind_eq_ok, typeMismatch] at h
    exact .string (checkMax_eq_ok h.2)
  | .array items =>
    cases schema with
    | array maxItems itemSchema =>
      simp only [validateValue, check_bind_eq_ok] at h
      obtain ⟨-,hlength,hitems⟩ := h
      exact .array (checkMax_eq_ok hlength) (meets_of_validateItems hitems)
    | string | boolean | number | integer | null | object =>
      simp [validateValue, check_bind_eq_ok, typeMismatch] at h
  | .object fields =>
    cases schema with
    | object required properties additional =>
      rw [validateValue, check_bind_eq_ok] at h
      obtain ⟨-,h⟩ := h
      dsimp only at h
      cases additional with
      | true =>
        rw [if_pos rfl] at h
        simp only [check_bind_eq_ok] at h
        obtain ⟨-,hrequired,hfields⟩ := h
        exact .object (checkRequired_eq_ok_iff.mp hrequired) (fun _ _ => Or.inl rfl)
          (meets_of_validateFields hfields)
      | false =>
        rw [if_neg Bool.false_ne_true] at h
        simp only [check_bind_eq_ok] at h
        obtain ⟨hunknown,hrequired,hfields⟩ := h
        exact .object (checkRequired_eq_ok_iff.mp hrequired)
          (fun e he => Or.inr (checkUnknown_eq_ok_iff.mp hunknown e he))
          (meets_of_validateFields hfields)
    | string | boolean | number | integer | null | array =>
      simp [validateValue, check_bind_eq_ok, typeMismatch] at h

theorem meets_of_validateItems {schema : JsonSchema} {items : List Json} {path : String}
    {index depth : ℕ} (h : validateItems schema items path index depth = .ok ()) :
    ∀ item ∈ items, Meets schema item := by
  match items with
  | [] =>
    intro item hitem
    cases hitem
  | first :: items =>
    rw [validateItems, check_bind_eq_ok] at h
    rw [List.forall_mem_cons]
    exact ⟨meets_of_validateValue h.1,meets_of_validateItems h.2⟩

theorem meets_of_validateFields {properties : List (String × JsonSchema)} {additional : Bool}
    {fields : List (String × Json)} {path : String} {depth : ℕ}
    (h : validateFields properties additional fields path depth = .ok ()) :
    ∀ e ∈ fields, ∀ sub, SortedMap.find e.1 properties = some sub → Meets sub e.2 := by
  match fields with
  | [] =>
    intro e he
    cases he
  | (key,value) :: fields =>
    rw [validateFields] at h
    rw [List.forall_mem_cons]
    cases hkey : SortedMap.find key properties with
    | some subSchema =>
      rw [hkey] at h
      obtain ⟨hvalue,hfields⟩ := check_bind_eq_ok.mp h
      refine ⟨fun sub hsub => ?_,meets_of_validateFields hfields⟩
      obtain rfl := Option.some.inj hsub
      exact meets_of_validateValue hvalue
    | none =>
      rw [hkey] at h
      have hfields : validateFields properties additional fields path depth = .ok () := by
        cases additional with
        | true => exact (check_bind_eq_ok.mp h).2
        | false => exact h
      exact ⟨fun sub hsub => (by cases hsub),meets_of_validateFields hfields⟩

end

end Floatile.UiSchema
