import Floatile.Core.Json
import Floatile.Lib.SortedMap

/-! JSON merge patches and the budgets of state updates. -/
namespace Floatile.UiSchema

open Floatile.Lib
open Floatile.Core

def maxStateBytes : ℕ := 64 * 1024

def maxPatchBytes : ℕ := 16 * 1024

def maxUpdateRatePerSec : ℕ := 30

mutual

/-- Objects are merged field by field, every other patch replaces the target. -/
def mergePatch (target patch : Json) : Json :=
  match patch with
  | .object fields => .object (mergeFields (target.asObject.getD []) fields)
  | .null => .null
  | .bool b => .bool b
  | .number n => .number n
  | .string s => .string s
  | .array items => .array items

/-- A null removes its key. -/
def mergeFields (target fields : List (String × Json)) : List (String × Json) :=
  match fields with
  | [] => target
  | (key,value) :: fields =>
    if value.isNull then mergeFields (SortedMap.erase key target) fields
    else
      let entry := (SortedMap.find key target).getD .null
      mergeFields (SortedMap.insert key (mergePatch entry value) target) fields

end

example : mergePatch (.object [("keep",.bool true),("drop",.bool true)])
    (.object [("drop",.null),("new",.bool false)]) =
    .object [("keep",.bool true),("new",.bool false)] := by rfl

mutual

/-- The keys of every object strictly increase, as in the maps of the JSON library. -/
def Sorted : Json → Prop
  | .array items => SortedItems items
  | .object fields => SortedMap.Ordered fields ∧ SortedFields fields
  | _ => True

def SortedItems : List Json → Prop
  | [] => True
  | item :: items => Sorted item ∧ SortedItems items

def SortedFields : List (String × Json) → Prop
  | [] => True
  | (_,value) :: fields => Sorted value ∧ SortedFields fields

end

theorem sortedFields_iff (fields : List (String × Json)) :
    SortedFields fields ↔ ∀ e ∈ fields, Sorted e.2 := by
  induction fields with
  | nil => simp [SortedFields]
  | cons e fields ih =>
    rw [List.forall_mem_cons, ← ih]
    rfl

theorem Sorted.asObject {v : Json} (h : Sorted v) :
    SortedMap.Ordered (v.asObject.getD []) ∧ SortedFields (v.asObject.getD []) := by
  cases v with
  | object fields => exact h
  | _ => exact ⟨List.Pairwise.nil,trivial⟩

/-- The value found under a key of a sorted object, or null, is sorted. -/
theorem SortedFields.find {fields : List (String × Json)} (h : SortedFields fields)
    (key : String) : Sorted ((SortedMap.find key fields).getD .null) := by
  cases hfind : SortedMap.find key fields with
  | none => trivial
  | some v => exact (sortedFields_iff fields).mp h (key,v) (SortedMap.mem_of_find hfind)

theorem SortedFields.insert {fields : List (String × Json)} {key : String} {v : Json}
    (h : SortedFields fields) (hv : Sorted v) : SortedFields (SortedMap.insert key v fields) := by
  rw [sortedFields_iff] at h ⊢
  intro e he
  rcases SortedMap.mem_insert he with rfl | he
  · exact hv
  · exact h e he

theorem SortedFields.erase {fields : List (String × Json)} (h : SortedFields fields)
    (key : String) : SortedFields (SortedMap.erase key fields) := by
  rw [sortedFields_iff] at h ⊢
  intro e he
  exact h e ((SortedMap.erase_sublist key fields).subset he)

theorem ordered_mergeFields {target : List (String × Json)} (h : SortedMap.Ordered target)
    (fields : List (String × Json)) : SortedMap.Ordered (mergeFields target fields) := by
  induction fields generalizing target with
  | nil => exact h
  | cons e fields ih =>
    rw [mergeFields]
    split_ifs
    · exact ih (SortedMap.ordered_erase _ h)
    · exact ih (SortedMap.ordered_insert _ _ h)

mutual

theorem Sorted.mergePatch {target patch : Json} (ht : Sorted target) (hp : Sorted patch) :
    Sorted (mergePatch target patch) := by
  cases patch with
  | object fields =>
    exact ⟨ordered_mergeFields ht.asObject.1 fields,SortedFields.mergeFields ht.asObject.2 hp.2⟩
  | array items => exact hp
  | null | bool | number | string => trivial

theorem SortedFields.mergeFields {target fields : List (String × Json)}
    (ht : SortedFields target) (hp : SortedFields fields) :
    SortedFields (mergeFields target fields) := by
  match fields with
  | [] => exact ht
  | (key,value) :: fields =>
    rw [UiSchema.mergeFields]
    split_ifs
    · exact SortedFields.mergeFields (ht.erase key) hp.2
    · exact SortedFields.mergeFields (ht.insert (Sorted.mergePatch (ht.find key) hp.1)) hp.2

end

/-- What a merge leaves under a key. -/
theorem find_mergeFields {target fields : List (String × Json)} (ht : SortedMap.Ordered target)
    (hf : SortedMap.Ordered fields) (k : String) :
    SortedMap.find k (mergeFields target fields) =
      match SortedMap.find k fields with
      | none => SortedMap.find k target
      | some value =>
        if value.isNull then none
        else some (mergePatch ((SortedMap.find k target).getD .null) value) := by
  induction fields generalizing target with
  | nil => rfl
  | cons e fields ih =>
    obtain ⟨key,value⟩ := e
    obtain ⟨hhead,htail⟩ := List.pairwise_cons.mp hf
    rw [mergeFields, SortedMap.find_cons]
    by_cases hk : key = k
    · subst hk
      have hrest : SortedMap.find key fields = none := SortedMap.find_eq_none_of_lt hhead
      rw [if_pos rfl]
      by_cases hnull : value.isNull
      · rw [if_pos hnull, ih (SortedMap.ordered_erase key ht) htail, hrest]
        simp only [SortedMap.find_erase_self ht, hnull, if_true]
      · rw [if_neg hnull, ih (SortedMap.ordered_insert key _ ht) htail, hrest]
        simp only [SortedMap.find_insert_self, hnull, Bool.false_eq_true, if_false]
    · rw [if_neg hk]
      by_cases hnull : value.isNull
      · rw [if_pos hnull, ih (SortedMap.ordered_erase key ht) htail,
          SortedMap.find_erase_of_ne (Ne.symm hk)]
      · rw [if_neg hnull, ih (SortedMap.ordered_insert key _ ht) htail,
          SortedMap.find_insert_of_ne (Ne.symm hk)]

end Floatile.UiSchema
