import Floatile.UiSchema.Patch
import Floatile.UiSchema.StatePath

/-! Merge patches against the definition in RFC 7386, whose objects are sets of members. -/
namespace Floatile.UiSchema

open Floatile.Lib
open Floatile.Core

/-- The member of a value with a name. What is undefined or not an object has none. -/
def memberOf (target : Option Json) (name : String) : Option Json :=
  (target.bind Json.asObject).bind (SortedMap.find name)

/-- `MergePatch` of RFC 7386 on a target that may be undefined. -/
inductive Rfc7386 : Option Json → Json → Json → Prop
  | replaced {target : Option Json} {patch : Json} (hpatch : patch.isObject = false) :
      Rfc7386 target patch patch
  | merged {target : Option Json} {patch result : List (String × Json)}
      (hremoved : ∀ name, SortedMap.find name patch = some .null →
        SortedMap.find name result = none)
      (hkept : ∀ name, SortedMap.find name patch = none →
        SortedMap.find name result = memberOf target name)
      (hdefined : ∀ name value, SortedMap.find name patch = some value → value ≠ .null →
        (SortedMap.find name result).isSome = true)
      (hmerged : ∀ name value member, SortedMap.find name patch = some value → value ≠ .null →
        SortedMap.find name result = some member → Rfc7386 (memberOf target name) value member) :
      Rfc7386 target (.object patch) (.object result)

/-- A value of the JSON library: its objects have every key once, in the order of the map. -/
structure JsonValue where
  json : Json
  sorted : Sorted json

/-- The target after `mergePatch` has changed it. -/
def JsonValue.patched (target patch : JsonValue) : JsonValue :=
  ⟨mergePatch target.json patch.json,target.sorted.mergePatch patch.sorted⟩

/-- The patch names no key along the path. -/
def Unmentioned : Json → List String → Prop
  | .object patch, name :: path =>
    match SortedMap.find name patch with
    | none => True
    | some value => Unmentioned value path
  | _, _ => False

theorem isNull_eq_true_iff {value : Json} : value.isNull = true ↔ value = .null := by
  cases value <;> simp [Json.isNull]

/-- The member of a merge, by what the patch has under the name. -/
theorem find_mergePatch {target : Json} {patch : List (String × Json)} (ht : Sorted target)
    (hp : SortedMap.Ordered patch) (name : String) :
    SortedMap.find name (mergeFields (target.asObject.getD []) patch) =
      match SortedMap.find name patch with
      | none => memberOf (some target) name
      | some value =>
        if value.isNull then none
        else some (mergePatch ((memberOf (some target) name).getD .null) value) := by
  have hmember : SortedMap.find name (target.asObject.getD []) = memberOf (some target) name := by
    rw [memberOf, Option.bind_some]
    cases target.asObject <;> rfl
  rewrite [find_mergeFields ht.asObject.1 hp, hmember]
  rfl

/-- A member of a sorted value is sorted, and what is undefined counts as null. -/
theorem sorted_memberOf {target : Json} (ht : Sorted target) (name : String) :
    Sorted ((memberOf (some target) name).getD .null) := by
  have hfields := SortedFields.find ht.asObject.2 name
  rw [memberOf, Option.bind_some]
  cases hobject : target.asObject with
  | none => trivial
  | some fields => rwa [hobject] at hfields

theorem memberOf_getD (target : Option Json) (name : String) :
    memberOf (some (target.getD .null)) name = memberOf target name := by
  cases target <;> rfl

theorem mergePatch_of_not_object {target patch : Json} (h : patch.isObject = false) :
    mergePatch target patch = patch := by
  cases patch with
  | object => cases h
  | null | bool | number | string | array => rw [mergePatch]

theorem mergePatch_object (target : Json) (patch : List (String × Json)) :
    mergePatch target (.object patch) =
      .object (mergeFields (target.asObject.getD []) patch) := by
  rw [mergePatch]

mutual

theorem rfc_mergePatch {target : Option Json} {patch : Json} (ht : Sorted (target.getD .null))
    (hp : Sorted patch) : Rfc7386 target patch (mergePatch (target.getD .null) patch) := by
  match patch with
  | .object fields =>
    rw [mergePatch_object]
    refine .merged ?_ ?_ ?_ ?_
    · intro name hname
      rw [find_mergePatch ht hp.1, hname]
      rfl
    · intro name hname
      rw [find_mergePatch ht hp.1, hname, memberOf_getD]
    · intro name value hname hnull
      rw [find_mergePatch ht hp.1, hname]
      simp [isNull_eq_true_iff, hnull]
    · intro name value member hname hnull hmember
      rw [find_mergePatch ht hp.1, hname] at hmember
      simp only [isNull_eq_true_iff, hnull, if_false, Option.some.injEq, memberOf_getD] at hmember
      have hsorted := sorted_memberOf ht name
      rw [memberOf_getD] at hsorted
      rw [← hmember]
      exact rfc_members hp.2 (name,value) (SortedMap.mem_of_find hname) hsorted
  | .null | .bool _ | .number _ | .string _ | .array _ =>
    rw [mergePatch]
    exact .replaced rfl

theorem rfc_members {fields : List (String × Json)} (hf : SortedFields fields) :
    ∀ e ∈ fields, ∀ {target : Option Json}, Sorted (target.getD .null) →
      Rfc7386 target e.2 (mergePatch (target.getD .null) e.2) := by
  match fields with
  | [] => exact fun _ he => absurd he List.not_mem_nil
  | (name,value) :: fields =>
    intro e he target ht
    rcases List.mem_cons.mp he with rfl | he
    · exact rfc_mergePatch ht hf.1
    · exact rfc_members hf.2 e he ht

end

theorem Sorted.find {fields : List (String × Json)} (h : SortedFields fields) {name : String}
    {value : Json} (hname : SortedMap.find name fields = some value) : Sorted value :=
  (sortedFields_iff fields).mp h (name,value) (SortedMap.mem_of_find hname)

/-- The definition leaves one sorted result. -/
theorem Rfc7386.eq_mergePatch {target : Option Json} {patch result : Json}
    (h : Rfc7386 target patch result) (ht : Sorted (target.getD .null)) (hp : Sorted patch)
    (hr : Sorted result) : result = mergePatch (target.getD .null) patch := by
  induction h with
  | replaced hpatch => exact (mergePatch_of_not_object hpatch).symm
  | @merged target patch result hremoved hkept hdefined _ ih =>
    rw [mergePatch_object, Json.object.injEq]
    refine SortedMap.eq_of_find_eq hr.1 (ordered_mergeFields ht.asObject.1 patch) fun name => ?_
    rw [find_mergePatch ht hp.1, memberOf_getD]
    cases hname : SortedMap.find name patch with
    | none => exact hkept name hname
    | some value =>
      by_cases hnull : value = .null
      · subst hnull
        exact hremoved name hname
      · simp only [isNull_eq_true_iff, hnull, if_false]
        obtain ⟨member,hmember⟩ := Option.isSome_iff_exists.mp (hdefined name value hname hnull)
        have hsorted := sorted_memberOf ht name
        rw [memberOf_getD] at hsorted
        rw [hmember, ih name value member hname hnull hmember hsorted (Sorted.find hp.2 hname)
          (Sorted.find hr.2 hmember)]

mutual

theorem mergePatch_idem {target patch : Json} (ht : Sorted target) (hp : Sorted patch) :
    mergePatch (mergePatch target patch) patch = mergePatch target patch := by
  match patch with
  | .object fields =>
    have hmerged : Sorted (mergePatch target (.object fields)) := ht.mergePatch hp
    rw [mergePatch_object (mergePatch target (.object fields))]
    rw [mergePatch_object target] at hmerged ⊢
    rw [Json.object.injEq]
    refine SortedMap.eq_of_find_eq (ordered_mergeFields hmerged.asObject.1 fields) hmerged.1
      fun name => ?_
    have hfirst := find_mergePatch ht hp.1 name
    rw [find_mergePatch hmerged hp.1, hfirst]
    have hmember : memberOf (some (.object (mergeFields (target.asObject.getD []) fields))) name =
        SortedMap.find name (mergeFields (target.asObject.getD []) fields) := rfl
    cases hname : SortedMap.find name fields with
    | none => rw [hmember, hfirst, hname]
    | some value =>
      by_cases hnull : value.isNull
      · simp only [hnull, if_true]
      · simp only [hmember, hfirst, hname, hnull, Bool.false_eq_true, if_false, Option.getD_some]
        rw [members_idem hp.2 (name,value) (SortedMap.mem_of_find hname) (sorted_memberOf ht name)]
  | .null | .bool _ | .number _ | .string _ | .array _ =>
    rw [mergePatch, mergePatch]

theorem members_idem {fields : List (String × Json)} (hf : SortedFields fields) :
    ∀ e ∈ fields, ∀ {target : Json}, Sorted target →
      mergePatch (mergePatch target e.2) e.2 = mergePatch target e.2 := by
  match fields with
  | [] => exact fun _ he => absurd he List.not_mem_nil
  | (name,value) :: fields =>
    intro e he target ht
    rcases List.mem_cons.mp he with rfl | he
    · exact mergePatch_idem ht hf.1
    · exact members_idem hf.2 e he ht

end

theorem valueAt_cons (value : Json) (name : String) (path : List String) :
    valueAt value (name :: path) =
      (memberOf (some value) name).bind (fun member => valueAt member path) := by
  rw [valueAt, memberOf, Option.bind_some]
  cases value.asObject.bind (SortedMap.find name) <;> rfl

theorem valueAt_mergePatch {target patch : Json} {path : List String} (ht : Sorted target)
    (hp : Sorted patch) (h : Unmentioned patch path) :
    valueAt (mergePatch target patch) path = valueAt target path := by
  induction path generalizing target patch with
  | nil => cases patch <;> cases h
  | cons name path ih =>
    cases patch with
    | object fields =>
      rw [mergePatch_object, valueAt_cons, valueAt_cons]
      have hmember := find_mergePatch ht hp.1 name
      rw [show memberOf (some (.object (mergeFields (target.asObject.getD []) fields))) name =
        SortedMap.find name (mergeFields (target.asObject.getD []) fields) from rfl, hmember]
      rw [Unmentioned] at h
      cases hname : SortedMap.find name fields with
      | none => rfl
      | some value =>
        rw [hname] at h
        have hnull : value ≠ .null := by
          rintro rfl
          cases path <;> cases h
        simp only [isNull_eq_true_iff, hnull, if_false, Option.bind_some]
        rw [ih (sorted_memberOf ht name) (Sorted.find hp.2 hname) h]
        cases memberOf (some target) name with
        | none => cases path with
          | nil => cases value <;> cases h
          | cons => rfl
        | some member => rfl
    | null | bool | number | string | array => cases h

/-- A merge is what RFC 7386 defines, a second one with the same patch changes nothing, and what
is below a path that the patch does not mention stays as it was. -/
theorem mergePatch_spec (target patch : JsonValue) :
    (∀ result : JsonValue, Rfc7386 (some target.json) patch.json result.json ↔
      result = target.patched patch) ∧
    (target.patched patch).patched patch = target.patched patch ∧
    ∀ path, Unmentioned patch.json path →
      valueAt (target.patched patch).json path = valueAt target.json path := by
  refine ⟨fun result => ⟨fun h => ?_,?_⟩,?_,fun path hpath => ?_⟩
  · obtain ⟨json,hsorted⟩ := result
    rw [JsonValue.patched, JsonValue.mk.injEq]
    exact h.eq_mergePatch target.sorted patch.sorted hsorted
  · rintro rfl
    have htarget : Sorted ((some target.json).getD .null) := target.sorted
    exact rfc_mergePatch htarget patch.sorted
  · simp only [JsonValue.patched, JsonValue.mk.injEq]
    exact mergePatch_idem target.sorted patch.sorted
  · exact valueAt_mergePatch target.sorted patch.sorted hpath

end Floatile.UiSchema
