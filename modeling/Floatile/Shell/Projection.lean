import Floatile.Renderer.Names
import Floatile.Renderer.Typed
import Floatile.Shell.RuntimeUi

/-! When the state of an instance is projected to every slot of its generated component. -/
namespace Floatile.Shell

open Floatile.Lib
open Floatile.Lib.Checked (bind_eq_ok)
open Floatile.Core
open Floatile.UiSchema
open Floatile.Renderer

theorem isListSchema_iff {target : JsonSchema} : isListSchema target = true ↔
    ∃ maxItems maxLength, target = .array (some maxItems) (.string maxLength) ∧
      maxItems ≤ maxListItems := by
  unfold isListSchema
  split
  · simp
  · rename_i hother
    simp only [Bool.false_eq_true, false_iff, not_exists, not_and]
    rintro maxItems maxLength rfl
    exact absurd rfl (hother _ _)

theorem isChartSchema_iff {target : JsonSchema} : isChartSchema target = true ↔
    ∃ maxItems items, target = .array (some maxItems) items ∧
      (items = .number ∨ items = .integer) ∧ maxItems ≤ maxChartPoints := by
  unfold isChartSchema
  split
  · simp
  · simp
  · rename_i hnumber hinteger
    simp only [Bool.false_eq_true, false_iff, not_exists, not_and]
    rintro maxItems items rfl (rfl | rfl)
    · exact absurd rfl (hnumber _)
    · exact absurd rfl (hinteger _)

variable {slot : BindingSlot}

/-- The search for the value of a slot is the search below its path. -/
theorem foldlM_stateField (fields : List String) (state value : Json) :
    fields.foldlM (stateField slot) state = .ok value ↔ valueAt state fields = some value := by
  induction fields generalizing state with
  | nil =>
    rw [List.foldlM_nil, Checked.pure_eq_ok, valueAt, Except.ok.injEq, Option.some.injEq]
  | cons field fields ih =>
    rw [List.foldlM_cons, bind_eq_ok, valueAt]
    cases hfield : state.asObject.bind (SortedMap.find field) with
    | none => simp [stateField, hfield, requireSome, projectionError]
    | some sub => simp [stateField, hfield, requireSome, ih]

theorem projectItems_ok {α : Type} {expected tooLong itemExpected : String} {limit : ℕ}
    {item : Json → Option α} {values : List Json} (hlength : values.length ≤ limit)
    (hitems : ∀ v ∈ values, (item v).isSome) :
    ∃ projected, projectItems slot expected tooLong itemExpected limit item (.array values) =
      .ok projected := by
  have hall : ∀ v ∈ values, ∃ a, requireSome slot itemExpected (item v) = .ok a := by
    intro v hv
    obtain ⟨a,ha⟩ := Option.isSome_iff_exists.mp (hitems v hv)
    exact ⟨a,by rw [ha]; rfl⟩
  refine ⟨values.filterMap (fun v => (requireSome slot itemExpected (item v)).toOption),?_⟩
  rw [projectItems, Json.asArray, requireSome, Checked.ok_bind, Checked.check_bind_eq_ok,
    Checked.reject_eq_ok]
  exact ⟨Nat.not_lt.mpr hlength,Checked.mapM_eq_ok_of_forall hall⟩

/-- A value of a schema that fits the slot is projected to the type of the slot. -/
theorem project_of_fits {state value : Json} {path : PathSegments} {target : JsonSchema}
    (hparse : PathSegments.parse slot.path = .ok path)
    (hvalue : valueAt state path.segments = some value) (hconforms : Conforms target value)
    (hfits : fits slot.valueType target = true) :
    ∃ projected, projectBindingValue slot state = .ok projected ∧
      projected.valueType = slot.valueType := by
  unfold projectBindingValue
  rw [hparse, Checked.mapError_ok, Checked.ok_bind,
    (foldlM_stateField path.segments state value).mpr hvalue, Checked.ok_bind]
  cases htype : slot.valueType with
  | string =>
    rw [htype] at hfits
    cases target <;> simp only [fits, Bool.false_eq_true] at hfits
    obtain ⟨s,rfl⟩ := hconforms.string
    exact ⟨.string s,rfl,rfl⟩
  | boolean =>
    rw [htype] at hfits
    cases target <;> simp only [fits, Bool.false_eq_true] at hfits
    obtain ⟨b,rfl⟩ := hconforms.boolean
    exact ⟨.boolean b,rfl,rfl⟩
  | number =>
    rw [htype] at hfits
    have hnumber : target = .number ∨ target = .integer := by
      cases target <;> simp [fits] at hfits ⊢
    obtain ⟨n,rfl⟩ := hconforms.number hnumber
    exact ⟨.number n.asF64,rfl,rfl⟩
  | stringList =>
    rw [htype] at hfits
    obtain ⟨maxItems,maxLength,rfl,hlimit⟩ := isListSchema_iff.mp hfits
    obtain ⟨values,rfl,hitems⟩ := hconforms.array
    have hstrings : ∀ v ∈ values, v.asStr.isSome := by
      intro v hv
      obtain ⟨s,rfl⟩ := (hitems v hv).string
      rfl
    obtain ⟨projected,hprojected⟩ := projectItems_ok (hconforms.length_le.trans hlimit) hstrings
    exact ⟨.stringList projected,congrArg (Except.map ProjectedValue.stringList) hprojected,rfl⟩
  | numberList =>
    rw [htype] at hfits
    obtain ⟨maxItems,items,rfl,hnumber,hlimit⟩ := isChartSchema_iff.mp hfits
    obtain ⟨values,rfl,hitems⟩ := hconforms.array
    have hnumbers : ∀ v ∈ values, v.asF64.isSome := by
      intro v hv
      obtain ⟨n,rfl⟩ := (hitems v hv).number hnumber
      rfl
    obtain ⟨projected,hprojected⟩ := projectItems_ok (hconforms.length_le.trans hlimit) hnumbers
    exact ⟨.numberList projected,congrArg (Except.map ProjectedValue.numberList) hprojected,rfl⟩

/-- The property of a slot cannot show an array as a text. -/
theorem project_array {state : Json} {path : PathSegments} {values : List Json}
    (hparse : PathSegments.parse slot.path = .ok path) (htype : slot.valueType = .string)
    (hvalue : valueAt state path.segments = some (.array values)) :
    ∀ projected, projectBindingValue slot state ≠ .ok projected := by
  intro projected h
  unfold projectBindingValue at h
  rw [hparse, Checked.mapError_ok, Checked.ok_bind,
    (foldlM_stateField path.segments state _).mpr hvalue, Checked.ok_bind, htype] at h
  cases h

theorem valueAt_of_project {state : Json} {projected : ProjectedValue}
    (h : projectBindingValue slot state = .ok projected) :
    ∃ path value, PathSegments.parse slot.path = .ok path ∧
      valueAt state path.segments = some value := by
  obtain ⟨path,hparse,h⟩ := bind_eq_ok.mp h
  obtain ⟨value,hvalue,-⟩ := bind_eq_ok.mp h
  exact ⟨path,value,Checked.mapError_eq_ok.mp hparse,(foldlM_stateField _ _ _).mp hvalue⟩

section Documents

variable {lib : JsonLib} {doc : UiDocument} {r : RenderedComponent}

/-- Every slot is projected to a value of its type. -/
def ProjectsAll (r : RenderedComponent) (state : Json) : Prop :=
  ∀ slot ∈ r.bindings, ∃ projected, projectBindingValue slot state = .ok projected ∧
    projected.valueType = slot.valueType

/-- The state has a value below every path that the document binds. -/
def HasBoundValues (root : Component) (state : Json) : Prop :=
  ∀ e ∈ boundPaths root, ∃ path value, PathSegments.parse e.1 = .ok path ∧
    valueAt state path.segments = some value

/-- For every document and every state that its schema accepts, all slots are projected exactly
when the document has no ForEach and the state has a value below every bound path. -/
theorem projectsAll_iff {state : Json} (h : renderComponent lib doc = .ok r)
    (hstate : validateValue doc.state.schema state "$" 0 = .ok ()) :
    ProjectsAll r state ↔
      (∀ comp ∈ nodes doc.root, comp.kind ≠ "ForEach") ∧ HasBoundValues doc.root state := by
  obtain ⟨body,ctx,h⟩ := rendering_of_ok h
  have hconforms : Conforms doc.state.schema state := ⟨_,_,hstate⟩
  constructor
  · intro hprojects
    have hvalues : HasBoundValues doc.root state := by
      intro e he
      obtain ⟨projected,hprojected,-⟩ := hprojects (slotOf e.1 e.2) (h.slot_mem he)
      exact valueAt_of_project hprojected
    refine ⟨fun comp hcomp hloop => ?_,hvalues⟩
    obtain ⟨uiMinor,hchecked⟩ := h.checked
    obtain ⟨item,hnode,-⟩ := hchecked comp hcomp
    obtain ⟨bind,hown⟩ := hnode.loop_path hloop
    have hbound : (bind,.string) ∈ boundPaths doc.root := List.mem_flatMap.mpr ⟨comp,hcomp,hown⟩
    obtain ⟨path,target,hparse,hresolve,-,harray⟩ := hnode.pathTyped hown
    obtain ⟨-,maxItems,items,rfl⟩ := harray hloop
    obtain ⟨path',value,hparse',hvalue⟩ := hvalues _ hbound
    rw [hparse] at hparse'
    obtain rfl := Except.ok.inj hparse'
    obtain ⟨values,rfl,-⟩ := (hconforms.valueAt hresolve hvalue).array
    obtain ⟨projected,hprojected,-⟩ := hprojects (slotOf bind .string) (h.slot_mem hbound)
    have hslot : PathSegments.parse (slotOf bind .string).path = .ok path := hparse
    exact project_array hslot rfl hvalue projected hprojected
  · rintro ⟨hloops,hvalues⟩ slot hslot
    obtain ⟨hnamed,hbound⟩ := h.mem_boundPaths hslot
    obtain ⟨path,value,hparse,hvalue⟩ := hvalues _ hbound
    obtain ⟨node,hnode,-,path',target,hparse',hresolve,hfits,-⟩ := h.pathTyped hbound
    rw [hparse] at hparse'
    obtain rfl := Except.ok.inj hparse'
    exact project_of_fits hparse hvalue (hconforms.valueAt hresolve hvalue)
      (hfits (hloops node hnode))

end Documents

/-- The state of an account without the optional name. -/
def bareAccount : Json := .object [("user",.object [("name",.string "")])]

theorem fullAccount_projected : ∃ r,
    renderComponent accountLib (accountDocument "$.full_name") = .ok r ∧
    ProjectsAll r (accountDocument "$.full_name").state.initial := by
  have hrendered : renderComponent accountLib (accountDocument "$.full_name") = .ok _ := rfl
  refine ⟨_,hrendered,(projectsAll_iff hrendered (by rfl)).mpr ⟨by decide,?_⟩⟩
  have hpaths : boundPaths (accountDocument "$.full_name").root =
      [("$.user.name",.string),("$.full_name",.string)] := by rfl
  intro e he
  rw [hpaths] at he
  simp only [List.mem_cons, List.not_mem_nil, or_false] at he
  rcases he with rfl | rfl
  · exact ⟨⟨["user","name"]⟩,.string "",by rfl,by rfl⟩
  · exact ⟨⟨["full_name"]⟩,.string "",by rfl,by rfl⟩

/-- The JSON library on the documents with zones. -/
def zonesLib : JsonLib := ⟨zonesBytes,fun _ => "\"\""⟩

/-- A state without an optional field, and any state of a document with a loop, are accepted and
not projected. -/
theorem projection_partial :
    (∃ r, renderComponent accountLib (accountDocument "$.full_name") = .ok r ∧
      validateValue (accountDocument "$.full_name").state.schema bareAccount "$" 0 = .ok () ∧
      ¬ProjectsAll r bareAccount) ∧
    ∃ r, renderComponent zonesLib (zonesDocument 16 (forEachZone zoneText)) = .ok r ∧
      validateValue (zonesSchema 16) (.object [("zones",.array [])]) "$" 0 = .ok () ∧
      ¬ProjectsAll r (.object [("zones",.array [])]) := by
  constructor
  · have hrendered : renderComponent accountLib (accountDocument "$.full_name") = .ok _ := rfl
    obtain ⟨body,ctx,h⟩ := rendering_of_ok hrendered
    have hslot : slotOf "$.full_name" .string ∈ RenderedComponent.bindings _ :=
      h.slot_mem (by decide)
    refine ⟨_,hrendered,by rfl,fun hprojects => ?_⟩
    obtain ⟨projected,hprojected,-⟩ := hprojects _ hslot
    obtain ⟨path,value,hparse,hvalue⟩ := valueAt_of_project hprojected
    have hpath : PathSegments.parse "$.full_name" = .ok ⟨["full_name"]⟩ := by rfl
    rw [slotOf, hpath] at hparse
    obtain rfl := Except.ok.inj hparse
    cases hvalue
  · have hrendered : renderComponent zonesLib (zonesDocument 16 (forEachZone zoneText)) = .ok _ := rfl
    obtain ⟨body,ctx,h⟩ := rendering_of_ok hrendered
    have hslot : slotOf "$.zones" .string ∈ RenderedComponent.bindings _ :=
      h.slot_mem (by decide)
    refine ⟨_,hrendered,by rfl,fun hprojects => ?_⟩
    obtain ⟨projected,hprojected,-⟩ := hprojects _ hslot
    have hpath : PathSegments.parse (slotOf "$.zones" .string).path = .ok ⟨["zones"]⟩ := by
      rfl
    exact project_array hpath rfl (by rfl) projected hprojected

end Floatile.Shell
