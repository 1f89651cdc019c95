import Floatile.UiSchema.Validate

/-! What the checks of a single node of a component tree have established when they pass. -/
namespace Floatile.UiSchema

open Floatile.Lib
open Floatile.Lib.Checked (bind_eq_ok check_bind_eq_ok reject_eq_ok)
open Floatile.Core

theorem find_eq_ok {kind : String} {spec : ComponentSpec} (h : find kind = .ok spec) :
    spec ∈ components ∧ spec.name = kind := by
  unfold find at h
  split at h
  · rename_i found hfound
    cases h
    exact ⟨List.mem_of_find?_eq_some hfound,by simpa using List.find?_some hfound⟩
  · cases h

theorem enterComponent_eq_ok {env : ValidateEnv} {depth : ℕ} {counts counts' : Counts}
    {kind : String} {spec : ComponentSpec}
    (h : enterComponent env depth counts kind = .ok (spec,counts')) :
    depth ≤ maxTreeDepth ∧ counts.nodes + 1 ≤ maxNodes ∧ find kind = .ok spec ∧
      spec.introducedMinor ≤ env.uiMinor ∧ { counts with nodes := counts.nodes + 1 } = counts' := by
  obtain ⟨hdepth,h⟩ := check_bind_eq_ok.mp h
  obtain ⟨hnodes,h⟩ := check_bind_eq_ok.mp h
  obtain ⟨found,hfound,h⟩ := bind_eq_ok.mp h
  obtain ⟨hminor,h⟩ := check_bind_eq_ok.mp h
  cases h
  rw [reject_eq_ok, Nat.not_lt] at hdepth hnodes hminor
  exact ⟨hdepth,hnodes,hfound,hminor,rfl⟩

/-- The two control components have their own names. -/
theorem kind_of_spec : ∀ spec ∈ components,
    (spec.kind = .if_ ↔ spec.name = "If") ∧ (spec.kind = .forEach ↔ spec.name = "ForEach") := by
  decide

variable {env : ValidateEnv} {stateSchema : JsonSchema}

theorem validateElement_props {spec : ComponentSpec} {itemSchema : Option JsonSchema}
    {comp : Component} {counts counts' : Counts}
    (h : validateElement env spec stateSchema itemSchema comp counts = .ok counts')
    {name : String} {value : PropValue} (hvalue : comp.props.get name = some value) :
    ∃ c c', validateProp env spec comp.kind stateSchema itemSchema c (name,value) = .ok c' := by
  obtain ⟨-,h⟩ := check_bind_eq_ok.mp h
  obtain ⟨counts₁,hprops,-⟩ := bind_eq_ok.mp h
  exact Checked.exists_of_mem_foldlM hprops ((OrdMap.mem_entries_iff _ _ _).mpr hvalue)

theorem validateProp_binding {spec : ComponentSpec} {kind name : String}
    {itemSchema : Option JsonSchema} {c c' : Counts} {binding : Binding}
    (h : validateProp env spec kind stateSchema itemSchema c (name,.binding binding) = .ok c') :
    ∃ prop, spec.findProp name = some prop ∧ prop.allowBinding = true ∧
      validateBinding binding prop stateSchema itemSchema kind name = .ok () ∧
      c.bindings + 1 ≤ maxBindings ∧ { c with bindings := c.bindings + 1 } = c' := by
  unfold validateProp at h
  dsimp only at h
  cases hprop : spec.findProp name with
  | none =>
    rw [hprop] at h
    cases h
  | some prop =>
    rw [hprop] at h
    simp only [check_bind_eq_ok, reject_eq_ok, Bool.not_eq_false, Nat.not_lt,
      Except.ok.injEq] at h
    obtain ⟨-,hallow,hbinding,hcount,hcounts⟩ := h
    exact ⟨prop,rfl,hallow,hbinding,hcount,hcounts⟩

theorem validateProp_literal {spec : ComponentSpec} {kind name : String}
    {itemSchema : Option JsonSchema} {c c' : Counts} {json : Json}
    (h : validateProp env spec kind stateSchema itemSchema c (name,.literal json) = .ok c') :
    ∃ prop, spec.findProp name = some prop ∧ validateLiteral spec prop json = .ok () ∧ c = c' := by
  unfold validateProp at h
  dsimp only at h
  cases hprop : spec.findProp name with
  | none =>
    rw [hprop] at h
    cases h
  | some prop =>
    rw [hprop] at h
    simp only [check_bind_eq_ok, Except.ok.injEq] at h
    exact ⟨prop,rfl,h.2⟩

/-- The type is accepted, and so are the checks that depend on the component. -/
theorem validateLiteral_eq_ok {spec : ComponentSpec} {prop : PropSchema} {json : Json}
    (h : validateLiteral spec prop json = .ok ()) :
    prop.types.any (fun t => t.accepts json) = true ∧
    (spec.name = "Badge" ∧ prop.name = "tone" →
      checkOneOf "Badge.tone" ["neutral","info","success","warning","danger"] json = .ok ()) ∧
    (spec.name = "Sparkline" ∧ prop.name = "values" →
      checkArray "Sparkline.values" s!"number array with at most {maxChartPoints} points"
        maxChartPoints (fun item => item.asF64.isSome) json = .ok ()) ∧
    (spec.name = "Sparkline" ∧ prop.name = "tone" →
      checkOneOf "Sparkline.tone" ["info","success","warning","danger"] json = .ok ()) ∧
    (prop.name = "colorToken" → checkColorToken spec json = .ok ()) := by
  unfold validateLiteral at h
  simp -zeta only [Checked.ite_bind_ite] at h
  obtain ⟨htypes,h⟩ := check_bind_eq_ok.mp h
  obtain ⟨hbadge,h⟩ := check_bind_eq_ok.mp h
  obtain ⟨-,h⟩ := check_bind_eq_ok.mp h
  obtain ⟨hvalues,h⟩ := check_bind_eq_ok.mp h
  obtain ⟨htone,h⟩ := check_bind_eq_ok.mp h
  obtain ⟨-,h⟩ := check_bind_eq_ok.mp h
  obtain ⟨-,htoken⟩ := check_bind_eq_ok.mp h
  refine ⟨?_,fun hname => ?_,fun hname => ?_,fun hname => ?_,fun hname => ?_⟩
  · by_contra haccepts
    rw [if_neg haccepts] at htypes
    cases htypes
  · rwa [if_pos hname] at hbadge
  · rwa [if_pos hname] at hvalues
  · rwa [if_pos hname] at htone
  · rwa [if_pos hname] at htoken

theorem validateIf_eq_ok {comp : Component} (h : validateIf stateSchema comp = .ok ()) :
    isPlain comp = true ∧ ∃ bind path, comp.when_ = some (.state bind) ∧
      PathSegments.parse bind = .ok path ∧ resolve stateSchema path.segments = .ok .boolean ∧
      comp.then_.isSome := by
  obtain ⟨hplain,h⟩ := check_bind_eq_ok.mp h
  rw [reject_eq_ok, Bool.not_eq_true', Bool.not_eq_false] at hplain
  refine ⟨hplain,?_⟩
  split at h
  · rename_i bind hwhen
    obtain ⟨path,hparse,h⟩ := bind_eq_ok.mp h
    obtain ⟨target,hresolve,h⟩ := bind_eq_ok.mp h
    simp only [check_bind_eq_ok, reject_eq_ok, not_not] at h
    obtain ⟨htype,hthen⟩ := h
    refine ⟨bind,path,hwhen,hparse,?_,by simpa [Option.isSome_iff_ne_none] using hthen⟩
    cases target <;> simp [jsonType] at htype
    exact hresolve
  · cases h

theorem validateForeach_eq_ok {comp : Component} {items : JsonSchema}
    (h : validateForeach stateSchema comp = .ok items) :
    isPlain comp = true ∧ ∃ bind path maxItems, comp.items = some (.state bind) ∧
      PathSegments.parse bind = .ok path ∧
      resolve stateSchema path.segments = .ok (.array maxItems items) ∧ comp.template.isSome := by
  obtain ⟨hplain,h⟩ := check_bind_eq_ok.mp h
  rw [reject_eq_ok, Bool.not_eq_true', Bool.not_eq_false] at hplain
  refine ⟨hplain,?_⟩
  split at h
  · rename_i bind hitems
    obtain ⟨path,hparse,h⟩ := bind_eq_ok.mp h
    obtain ⟨target,hresolve,h⟩ := bind_eq_ok.mp h
    cases target with
    | array maxItems itemSchema =>
      simp only [check_bind_eq_ok, reject_eq_ok, Except.ok.injEq] at h
      obtain ⟨-,htemplate,rfl⟩ := h
      exact ⟨bind,path,maxItems,hitems,hparse,hresolve,
        by simpa [Option.isSome_iff_ne_none] using htemplate⟩
    | string | boolean | number | integer | null | object => cases h
  · cases h

theorem validateIf_typed {comp : Component} {bind : String}
    (h : validateIf stateSchema comp = .ok ()) (hwhen : comp.when_ = some (.state bind)) :
    ∃ path, PathSegments.parse bind = .ok path ∧
      resolve stateSchema path.segments = .ok .boolean := by
  obtain ⟨-,bind',path,hwhen',hparse,hresolve,-⟩ := validateIf_eq_ok h
  rw [hwhen, Option.some.injEq, Binding.state.injEq] at hwhen'
  subst hwhen'
  exact ⟨path,hparse,hresolve⟩

theorem validateForeach_typed {comp : Component} {items : JsonSchema} {bind : String}
    (h : validateForeach stateSchema comp = .ok items) (hitems : comp.items = some (.state bind)) :
    ∃ path maxItems, PathSegments.parse bind = .ok path ∧
      resolve stateSchema path.segments = .ok (.array maxItems items) := by
  obtain ⟨-,bind',path,maxItems,hitems',hparse,hresolve,-⟩ := validateForeach_eq_ok h
  rw [hitems, Option.some.injEq, Binding.state.injEq] at hitems'
  subst hitems'
  exact ⟨path,maxItems,hparse,hresolve⟩

end Floatile.UiSchema
