import Floatile.Lib.Checked
import Floatile.UiSchema.Ir

/-! The value below a path of the state, next to the schema that is found there: a value that
conforms to a schema has, below every path, a value that conforms to the schema there. -/
namespace Floatile.UiSchema

open Floatile.Lib
open Floatile.Core

/-- The value below a path; a field that is missing ends the search. -/
def valueAt (value : Json) : List String → Option Json
  | [] => some value
  | field :: fields =>
    match value.asObject.bind (SortedMap.find field) with
    | some sub => valueAt sub fields
    | none => none

/-- The value conforms to the schema somewhere below the root. -/
def Conforms (schema : JsonSchema) (value : Json) : Prop :=
  ∃ path depth, validateValue schema value path depth = .ok ()

theorem validateFields_cons {properties : List (String × JsonSchema)} {additional : Bool}
    {key : String} {value : Json} {fields : List (String × Json)} {path : String} {depth : ℕ}
    (h : validateFields properties additional ((key,value) :: fields) path depth = .ok ()) :
    (∀ schema, SortedMap.find key properties = some schema → Conforms schema value) ∧
      validateFields properties additional fields path depth = .ok () := by
  rw [validateFields] at h
  cases hkey : SortedMap.find key properties with
  | some schema =>
    rw [hkey] at h
    obtain ⟨hvalue,hrest⟩ := Checked.check_bind_eq_ok.mp h
    exact ⟨fun s hs => Option.some.inj hs ▸ ⟨_,_,hvalue⟩,hrest⟩
  | none =>
    rw [hkey] at h
    cases additional with
    | true => exact ⟨(fun _ hs => by cases hs),(Checked.check_bind_eq_ok.mp h).2⟩
    | false => exact ⟨(fun _ hs => by cases hs),h⟩

theorem validateFields_find {properties : List (String × JsonSchema)} {additional : Bool}
    {fields : List (String × Json)} {path : String} {depth : ℕ} {field : String} {sub : Json}
    {schema : JsonSchema}
    (h : validateFields properties additional fields path depth = .ok ())
    (hfield : SortedMap.find field fields = some sub)
    (hschema : SortedMap.find field properties = some schema) : Conforms schema sub := by
  induction fields with
  | nil => cases hfield
  | cons e fields ih =>
    obtain ⟨key,value⟩ := e
    obtain ⟨hvalue,hrest⟩ := validateFields_cons h
    rw [SortedMap.find_cons] at hfield
    split_ifs at hfield with hkey
    · obtain rfl := Option.some.inj hfield
      exact hvalue schema (hkey ▸ hschema)
    · exact ih hrest hfield

/-- A conforming value of an object schema is an object with conforming fields. -/
theorem Conforms.object {required : List String} {properties : List (String × JsonSchema)}
    {additional : Bool} {value : Json}
    (h : Conforms (.object required properties additional) value) :
    ∃ fields path depth, value = .object fields ∧
      checkRequired fields path required = .ok () ∧
      validateFields properties additional fields path depth = .ok () := by
  obtain ⟨path,depth,h⟩ := h
  cases value with
  | object fields =>
    rw [validateValue, Checked.check_bind_eq_ok] at h
    obtain ⟨-,h⟩ := h
    dsimp only at h
    split_ifs at h
    · simp only [Checked.check_bind_eq_ok] at h
      exact ⟨fields,path,depth + 1,rfl,h.2⟩
    · simp only [Checked.check_bind_eq_ok] at h
      exact ⟨fields,path,depth + 1,rfl,h.2⟩
  | null | bool | number | string | array =>
    simp [validateValue, Checked.check_bind_eq_ok, typeMismatch] at h

theorem Conforms.field {required : List String} {properties : List (String × JsonSchema)}
    {additional : Bool} {value sub : Json} {field : String} {schema : JsonSchema}
    (h : Conforms (.object required properties additional) value)
    (hfield : value.asObject.bind (SortedMap.find field) = some sub)
    (hschema : SortedMap.find field properties = some schema) : Conforms schema sub := by
  obtain ⟨fields,path,depth,rfl,-,hfields⟩ := h.object
  exact validateFields_find hfields hfield hschema

/-- Below a path a conforming value conforms to the schema there. -/
theorem Conforms.valueAt {schema sub : JsonSchema} {value w : Json} {fields : List String}
    (h : Conforms schema value) (hschema : resolve schema fields = .ok sub)
    (hvalue : valueAt value fields = some w) : Conforms sub w := by
  induction fields generalizing schema value with
  | nil =>
    obtain rfl := Except.ok.inj hschema
    obtain rfl := Option.some.inj hvalue
    exact h
  | cons field fields ih =>
    cases schema with
    | object required properties additional =>
      rw [resolve] at hschema
      rw [UiSchema.valueAt] at hvalue
      cases hsub : SortedMap.find field properties with
      | none =>
        rw [hsub] at hschema
        cases additional <;> cases hschema
      | some next =>
        cases hfield : value.asObject.bind (SortedMap.find field) with
        | none => rw [hfield] at hvalue; cases hvalue
        | some v =>
          rw [hsub] at hschema
          rw [hfield] at hvalue
          exact ih (h.field hfield hsub) hschema hvalue
    | string | boolean | number | integer | null | array => cases hschema

/-- A conforming array has at most as many items as its schema admits. -/
theorem Conforms.length_le {maxItems : ℕ} {items : JsonSchema} {values : List Json}
    (h : Conforms (.array (some maxItems) items) (.array values)) : values.length ≤ maxItems := by
  obtain ⟨path,depth,h⟩ := h
  rw [validateValue, Checked.check_bind_eq_ok] at h
  obtain ⟨-,h⟩ := h
  simp only [Checked.check_bind_eq_ok, checkMax, Checked.ite_error_eq_ok] at h
  omega

theorem validateItems_mem {schema : JsonSchema} {items : List Json} {item : Json} {path : String}
    {index depth : ℕ} (h : validateItems schema items path index depth = .ok ())
    (hitem : item ∈ items) : Conforms schema item := by
  induction items generalizing index with
  | nil => cases hitem
  | cons first items ih =>
    rw [validateItems, Checked.check_bind_eq_ok] at h
    obtain ⟨hfirst,hrest⟩ := h
    rcases List.mem_cons.mp hitem with rfl | hmem
    · exact ⟨_,_,hfirst⟩
    · exact ih hrest hmem

/-- A conforming value of an array schema is an array of conforming items. -/
theorem Conforms.array {maxItems : Option ℕ} {items : JsonSchema} {value : Json}
    (h : Conforms (.array maxItems items) value) :
    ∃ values, value = .array values ∧ ∀ v ∈ values, Conforms items v := by
  obtain ⟨path,depth,h⟩ := h
  cases value with
  | array values =>
    simp only [validateValue, Checked.check_bind_eq_ok] at h
    exact ⟨values,rfl,fun v hv => validateItems_mem h.2.2 hv⟩
  | null | bool | number | string | object =>
    simp [validateValue, Checked.check_bind_eq_ok, typeMismatch] at h

theorem Conforms.string {maxLength : Option ℕ} {value : Json}
    (h : Conforms (.string maxLength) value) : ∃ s, value = .string s := by
  obtain ⟨path,depth,h⟩ := h
  cases value with
  | string s => exact ⟨s,rfl⟩
  | null | bool | number | array | object =>
    simp [validateValue, Checked.check_bind_eq_ok, typeMismatch] at h

theorem Conforms.boolean {value : Json} (h : Conforms .boolean value) : ∃ b, value = .bool b := by
  obtain ⟨path,depth,h⟩ := h
  cases value with
  | bool b => exact ⟨b,rfl⟩
  | null | number | string | array | object =>
    simp [validateValue, Checked.check_bind_eq_ok, typeMismatch] at h

/-- A value of a number schema or of an integer schema is a number. -/
theorem Conforms.number {schema : JsonSchema} {value : Json} (h : Conforms schema value)
    (hschema : schema = .number ∨ schema = .integer) : ∃ n, value = .number n := by
  obtain ⟨path,depth,h⟩ := h
  cases value with
  | number n => exact ⟨n,rfl⟩
  | null | bool | string | array | object =>
    rcases hschema with rfl | rfl <;>
      simp [validateValue, Checked.check_bind_eq_ok, typeMismatch] at h

end Floatile.UiSchema
