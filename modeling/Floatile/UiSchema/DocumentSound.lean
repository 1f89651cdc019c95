import Floatile.UiSchema.Expansion
import Floatile.UiSchema.NodeChecks
import Floatile.UiSchema.Placement
import Floatile.UiSchema.StatePath

/-! The validation of a document establishes the promises of its tree, apart from the control
fields that a node does not use: these are neither refused nor followed. -/
namespace Floatile.UiSchema

open Floatile.Lib
open Floatile.Lib.Checked (bind_eq_ok check_bind_eq_ok reject_eq_ok)
open Floatile.Core

@[simp] theorem tally_nil : tally [] = ⟨0,0,0⟩ := rfl

theorem Counts.add_assoc (c d e : Counts) : (c.add d).add e = c.add (d.add e) := by
  simp only [Counts.add, Nat.add_assoc]

theorem Counts.add_comm (c d : Counts) : c.add d = d.add c := by
  simp only [Counts.add, Nat.add_comm]

@[simp] theorem Counts.add_zero (c : Counts) : c.add ⟨0,0,0⟩ = c := rfl

@[simp] theorem Counts.zero_add (c : Counts) : Counts.add ⟨0,0,0⟩ c = c := by
  simp only [Counts.add, Nat.zero_add]

theorem tally_append (ps qs : List Placement) : tally (ps ++ qs) = (tally ps).add (tally qs) := by
  induction ps with
  | nil => simp
  | cons p ps ih => rw [List.cons_append, tally, tally, ih, Counts.add_assoc]

@[simp] theorem tally_nodes (ps : List Placement) : (tally ps).nodes = ps.length := by
  induction ps with
  | nil => rfl
  | cons p ps ih =>
    rw [tally, Counts.add, ih, List.length_cons, Nat.add_comm]
    rfl

/-- Between two counts lie the placed nodes without the strays, and no budget is exceeded. -/
structure Counted (counts counts' : Counts) (placed stray : List Placement) : Prop where
  add : counts'.add (tally stray) = counts.add (tally placed)
  within : counts.Within → counts'.Within

theorem Counted.refl (counts : Counts) (stray : List Placement) :
    Counted counts counts stray stray := ⟨rfl,id⟩

theorem Counted.append {c₁ c₂ c₃ : Counts} {placed stray placed' stray' : List Placement}
    (h : Counted c₁ c₂ placed stray) (h' : Counted c₂ c₃ placed' stray') :
    Counted c₁ c₃ (placed ++ placed') (stray ++ stray') := by
  refine ⟨?_,fun hwithin => h'.within (h.within hwithin)⟩
  calc c₃.add (tally (stray ++ stray'))
      = (c₃.add (tally stray')).add (tally stray) := by
        rw [tally_append, Counts.add_comm (tally stray), Counts.add_assoc]
    _ = (c₂.add (tally stray)).add (tally placed') := by
        rw [h'.add, Counts.add_assoc, Counts.add_comm (tally placed'), ← Counts.add_assoc]
    _ = c₁.add (tally (placed ++ placed')) := by
        rw [h.add, tally_append, Counts.add_assoc]

/-- A node is counted in part before the nodes below it and in part after them. -/
theorem Counted.around {c₁ c₂ c₃ c₄ before after : Counts} {p : Placement}
    {placed stray : List Placement} (h : Counted c₂ c₃ placed stray)
    (hbefore : c₂ = c₁.add before) (hafter : c₄ = c₃.add after)
    (hp : p.node.counts = before.add after) (hwithin : c₁.Within → c₂.Within)
    (hwithin' : c₃.Within → c₄.Within) : Counted c₁ c₄ (p :: placed) stray := by
  refine ⟨?_,fun hc => hwithin' (h.within (hwithin hc))⟩
  calc c₄.add (tally stray)
      = (c₃.add (tally stray)).add after := by
        rw [hafter, Counts.add_assoc, Counts.add_comm after, ← Counts.add_assoc]
    _ = (c₁.add before).add ((tally placed).add after) := by
        rw [h.add, hbefore, Counts.add_assoc]
    _ = c₁.add (tally (p :: placed)) := by
        rw [tally, hp, Counts.add_comm (tally placed), Counts.add_assoc, Counts.add_assoc]

theorem foldlM_validateProp_counts {env : ValidateEnv} {spec : ComponentSpec} {kind : String}
    {stateSchema : JsonSchema} {itemSchema : Option JsonSchema} {counts counts' : Counts}
    {entries : List (String × PropValue)}
    (h : entries.foldlM (validateProp env spec kind stateSchema itemSchema) counts = .ok counts') :
    counts' = counts.add ⟨0,entries.countP (fun e => e.2.isBinding),0⟩ ∧
      (counts.Within → counts'.Within) := by
  induction entries generalizing counts with
  | nil =>
    obtain rfl := Except.ok.inj h
    exact ⟨rfl,id⟩
  | cons entry entries ih =>
    rw [List.foldlM_cons, bind_eq_ok] at h
    obtain ⟨counts₁,hprop,hrest⟩ := h
    obtain ⟨hcounts,hwithin⟩ := ih hrest
    obtain ⟨name,value⟩ := entry
    cases value with
    | literal json =>
      obtain ⟨-,-,-,rfl⟩ := validateProp_literal hprop
      exact ⟨hcounts,hwithin⟩
    | binding binding =>
      obtain ⟨-,-,-,-,hle,rfl⟩ := validateProp_binding hprop
      refine ⟨?_,fun hc => hwithin ⟨hc.nodes,hle,hc.assetRefs⟩⟩
      rw [hcounts, List.countP_cons]
      simp only [Counts.add, PropValue.isBinding, if_true, Nat.add_zero, Counts.mk.injEq, true_and,
        and_true]
      omega

section Nodes

variable {env : ValidateEnv} {stateSchema : JsonSchema} {itemSchema scope : Option JsonSchema}
  {spec : ComponentSpec} {comp : Component} {counts counts' : Counts} {depth : ℕ}

/-- Without the scope fewer bindings have a target. -/
theorem bindingTarget_mono {binding : Binding} {target : JsonSchema}
    (hscope : itemSchema = none ∨ itemSchema = scope)
    (h : bindingTarget stateSchema itemSchema binding = .ok target) :
    bindingTarget stateSchema scope binding = .ok target := by
  cases binding with
  | state bind => exact h
  | item item =>
    rcases hscope with rfl | rfl
    · cases h
    · exact h

/-- The type of a schema is never called an integer. -/
theorem jsonType_ne_integer (schema : JsonSchema) : jsonType schema ≠ "integer" := by
  cases schema <;> simp [jsonType]

theorem validateBinding_allows {binding : Binding} {prop : PropSchema} {kind : String}
    (hallow : prop.allowBinding = true)
    (h : validateBinding binding prop stateSchema itemSchema kind prop.name = .ok ()) :
    ∃ target, bindingTarget stateSchema itemSchema binding = .ok target ∧
      Allows kind prop target := by
  obtain ⟨target,htarget,h⟩ := bind_eq_ok.mp h
  simp only [check_bind_eq_ok, reject_eq_ok] at h
  obtain ⟨hlist,hchart,htype⟩ := h
  refine ⟨target,htarget,hallow,?_,fun hkind hname => ?_,fun hkind hname => ?_⟩
  · rw [Bool.not_eq_true', Bool.not_eq_false] at htype
    obtain ⟨t,ht,hname⟩ := List.any_eq_true.mp htype
    rcases of_decide_eq_true hname with hname | ⟨-,hinteger⟩
    · exact ⟨t,ht,hname⟩
    · exact absurd hinteger (jsonType_ne_integer target)
  · exact Bool.not_eq_false _ ▸ fun hfalse => hlist ⟨hkind,hname,hfalse⟩
  · exact Bool.not_eq_false _ ▸ fun hfalse => hchart ⟨hkind,hname,hfalse⟩

theorem checkRequiredProps_eq_ok (h : checkRequiredProps spec comp = .ok ()) :
    ∀ prop ∈ spec.props, prop.optional = false → (comp.props.get prop.name).isSome := by
  intro prop hprop hoptional
  unfold checkRequiredProps at h
  split at h
  · cases h
  · rename_i hnone
    have hmissing := List.find?_eq_none.mp hnone prop hprop
    rw [hoptional] at hmissing
    simpa [Option.isSome_iff_ne_none] using hmissing

theorem validateElement_eq_ok
    (h : validateElement env spec stateSchema itemSchema comp counts = .ok counts') :
    (comp.when_ = none ∧ comp.then_ = none ∧ comp.else_ = none ∧ comp.items = none ∧
      comp.template = none) ∧
    comp.props.entries.foldlM (validateProp env spec comp.kind stateSchema itemSchema) counts =
      .ok counts' ∧
    checkRequiredProps spec comp = .ok () ∧
    (6 ≤ env.uiMinor → comp.kind ∈ labelledKinds →
      (comp.props.get "accessibilityLabel").isSome) ∧
    ¬(comp.kind = "List" ∧ (comp.props.get "items").isSome ∧ !comp.children.isEmpty) ∧
    checkChildren spec comp = .ok () := by
  obtain ⟨hcontrol,h⟩ := check_bind_eq_ok.mp h
  obtain ⟨counts₁,hprops,h⟩ := bind_eq_ok.mp h
  simp only [check_bind_eq_ok, reject_eq_ok, Except.ok.injEq] at h
  obtain ⟨hrequired,hlabel,-,hlist,hchildren,rfl⟩ := h
  rw [reject_eq_ok] at hcontrol
  simp only [Bool.or_eq_true, not_or, Option.not_isSome_iff_eq_none] at hcontrol
  obtain ⟨⟨⟨⟨⟨hwhen,hthen⟩,helse⟩,hitems⟩,-⟩,htemplate⟩ := hcontrol
  refine ⟨⟨hwhen,hthen,helse,hitems,htemplate⟩,hprops,hrequired,?_,hlist,hchildren⟩
  intro hminor hkind
  rw [Option.isSome_iff_ne_none]
  exact fun hnone => hlabel ⟨hminor,hkind,Option.isNone_iff_eq_none.mpr hnone⟩

theorem validateEvents_eq_ok (h : validateEvents env spec comp counts = .ok counts') :
    (∀ e ∈ comp.events.entries, validateEvent env spec comp.kind e = .ok ()) ∧
      counts' = counts.add ⟨0,0,if comp.kind = "Image" then 1 else 0⟩ ∧
      (counts.Within → counts'.Within) := by
  obtain ⟨hevents,h⟩ := check_bind_eq_ok.mp h
  rw [Checked.forM_eq_ok_iff] at hevents
  split_ifs at h with hkind
  · simp only [check_bind_eq_ok, reject_eq_ok, Nat.not_lt, Except.ok.injEq] at h
    obtain ⟨hle,rfl⟩ := h
    exact ⟨hevents,by rw [if_pos hkind]; rfl,fun hc => ⟨hc.nodes,hc.bindings,hle⟩⟩
  · obtain rfl := Except.ok.inj h
    exact ⟨hevents,by rw [if_neg hkind]; rfl,id⟩

theorem validateEvent_meets {kind input : String} {event : EmittedEvent}
    (h : validateEvent env spec kind (input,event) = .ok ()) :
    ∃ declared, env.docEvents.get event.emit = some declared ∧
      Meets declared.payload event.payload := by
  obtain ⟨-,h⟩ := check_bind_eq_ok.mp h
  split at h
  · cases h
  · rename_i declared hdeclared
    exact ⟨declared,hdeclared,meets_of_validateValue h⟩

theorem controlBound_none (type : String) : ControlBound stateSchema scope none type := by
  intro binding hbinding
  cases hbinding

theorem controlBound_state {bind type : String} {path : PathSegments} {target : JsonSchema}
    (hparse : PathSegments.parse bind = .ok path)
    (hresolve : resolve stateSchema path.segments = .ok target) (htype : jsonType target = type) :
    ControlBound stateSchema scope (some (.state bind)) type := by
  intro binding hbinding
  obtain rfl := Option.some.inj hbinding
  exact ⟨target,bind_eq_ok.mpr ⟨path,hparse,hresolve⟩,htype⟩

theorem element_sound (hscope : itemSchema = none ∨ itemSchema = scope)
    (hdepth : depth ≤ maxTreeDepth) (hspec : find comp.kind = .ok spec)
    (hminor : spec.introducedMinor ≤ env.uiMinor) {counts₁ counts₂ counts₃ : Counts}
    (helement : validateElement env spec stateSchema itemSchema comp counts = .ok counts₁)
    (hevents : validateEvents env spec comp counts₂ = .ok counts₃) :
    Placement.Sound env stateSchema ⟨scope,depth,comp⟩ := by
  obtain ⟨hmem,hname⟩ := find_eq_ok hspec
  obtain ⟨⟨hwhen,-,-,hitems,-⟩,hprops,hrequired,hlabel,-⟩ := validateElement_eq_ok helement
  refine ⟨hdepth,⟨spec,hmem,hname,hminor,checkRequiredProps_eq_ok hrequired,hlabel,?_⟩,?_,?_,?_⟩
  · intro name binding hbinding
    obtain ⟨c,c',hprop⟩ := validateElement_props helement hbinding
    obtain ⟨prop,hfound,hallow,hvalid,-⟩ := validateProp_binding hprop
    have hpropName : prop.name = name := by simpa using List.find?_some hfound
    subst hpropName
    obtain ⟨target,htarget,hallows⟩ := validateBinding_allows hallow hvalid
    exact ⟨prop,List.mem_of_find?_eq_some hfound,rfl,target,bindingTarget_mono hscope htarget,
      hname ▸ hallows⟩
  · rw [hwhen]
    exact controlBound_none _
  · rw [hitems]
    exact controlBound_none _
  · intro input event hevent
    have hmem := (OrdMap.mem_entries_iff _ _ _).mpr hevent
    exact validateEvent_meets ((validateEvents_eq_ok hevents).1 _ hmem)

theorem isPlain_iff : isPlain comp = true ↔
    comp.props.entries = [] ∧ comp.events.entries = [] ∧ comp.children = [] := by
  simp [isPlain, and_assoc]

theorem get_eq_none_of_entries {α : Type} {m : OrdMap String α} (h : m.entries = [])
    (name : String) : m.get name = none := by
  rw [Option.eq_none_iff_forall_ne_some]
  intro value hvalue
  have hmem := (OrdMap.mem_entries_iff _ _ _).mpr hvalue
  rw [h] at hmem
  cases hmem

/-- The control components declare no props. -/
theorem props_of_control : ∀ spec ∈ components, spec.kind ≠ .element → spec.props = [] := by
  decide

/-- Nor do they need an accessible label. -/
theorem not_labelled_of_control :
    ∀ spec ∈ components, spec.kind ≠ .element → spec.name ∉ labelledKinds := by
  decide

/-- A control component is sound once its two bindings are. -/
theorem control_sound (hdepth : depth ≤ maxTreeDepth) (hspec : find comp.kind = .ok spec)
    (hminor : spec.introducedMinor ≤ env.uiMinor) (hkind : spec.kind ≠ .element)
    (hplain : isPlain comp = true) (hwhen : ControlBound stateSchema scope comp.when_ "boolean")
    (hitems : ControlBound stateSchema scope comp.items "array") :
    Placement.Sound env stateSchema ⟨scope,depth,comp⟩ := by
  obtain ⟨hmem,hname⟩ := find_eq_ok hspec
  obtain ⟨hprops,hevents,-⟩ := isPlain_iff.mp hplain
  refine ⟨hdepth,⟨spec,hmem,hname,hminor,?_,?_,?_⟩,hwhen,hitems,?_⟩
  · rw [props_of_control spec hmem hkind]
    intro prop hprop
    cases hprop
  · intro _ hlabelled
    exact absurd (hname ▸ hlabelled) (not_labelled_of_control spec hmem hkind)
  · intro name binding hbinding
    rw [get_eq_none_of_entries hprops] at hbinding
    cases hbinding
  · intro input event hevent
    rw [get_eq_none_of_entries hevents] at hevent
    cases hevent

/-- A control component counts as one node. -/
theorem control_counts (hplain : isPlain comp = true) (hkind : comp.kind ≠ "Image") :
    { counts with nodes := counts.nodes + 1 } = counts.add comp.counts := by
  obtain ⟨hprops,-,-⟩ := isPlain_iff.mp hplain
  rw [Component.counts, hprops, if_neg hkind]
  rfl

theorem validateIf_bound (h : validateIf stateSchema comp = .ok ()) :
    ControlBound stateSchema scope comp.when_ "boolean" := by
  obtain ⟨-,bind,path,hwhen,hparse,hresolve,-⟩ := validateIf_eq_ok h
  rw [hwhen]
  exact controlBound_state hparse hresolve rfl

theorem validateForeach_bound {items : JsonSchema}
    (h : validateForeach stateSchema comp = .ok items) :
    ControlBound stateSchema scope comp.items "array" ∧
      loopItems stateSchema comp = some items := by
  obtain ⟨-,bind,path,maxItems,hitems,hparse,hresolve,-⟩ := validateForeach_eq_ok h
  refine ⟨by rw [hitems]; exact controlBound_state hparse hresolve rfl,?_⟩
  unfold loopItems
  rw [hitems]
  dsimp only
  rw [hparse]
  dsimp only
  rw [hresolve]

end Nodes

section Trees

variable {env : ValidateEnv} {stateSchema : JsonSchema}

/-- The nodes that were placed are sound, but for the strays and the bindings of unused fields. -/
def Covered (env : ValidateEnv) (stateSchema : JsonSchema) (placed stray : List Placement) :
    Prop :=
  ∀ p ∈ placed, p ∈ stray ∨ (p.StrayBound stateSchema → p.Sound env stateSchema)

theorem Covered.refl (stray : List Placement) : Covered env stateSchema stray stray :=
  fun _ hp => Or.inl hp

theorem Covered.append {placed stray placed' stray' : List Placement}
    (h : Covered env stateSchema placed stray) (h' : Covered env stateSchema placed' stray') :
    Covered env stateSchema (placed ++ placed') (stray ++ stray') := by
  intro p hp
  rcases List.mem_append.mp hp with hp | hp
  · exact (h p hp).imp_left (List.mem_append_left _)
  · exact (h' p hp).imp_left (List.mem_append_right _)

theorem Covered.cons {p : Placement} {placed stray : List Placement}
    (hp : p.StrayBound stateSchema → p.Sound env stateSchema)
    (h : Covered env stateSchema placed stray) : Covered env stateSchema (p :: placed) stray :=
  List.forall_mem_cons.mpr ⟨Or.inr hp,h⟩

mutual

/-- Induction over the tree, with the counts and the scope threaded as the validation does. -/
theorem validateComponent_placed {itemSchema scope : Option JsonSchema} {depth : ℕ}
    {counts counts' : Counts} {comp : Component} (hscope : itemSchema = none ∨ itemSchema = scope)
    (h : validateComponent env stateSchema itemSchema depth counts comp = .ok counts') :
    Covered env stateSchema (placements stateSchema scope depth comp)
        (strays stateSchema scope depth comp) ∧
      Counted counts counts' (placements stateSchema scope depth comp)
        (strays stateSchema scope depth comp) := by
  match comp with
  | ⟨kind,props,children,events,when_,then_,else_,items,key,template⟩ =>
    rw [validateComponent] at h
    obtain ⟨⟨spec,counts₁⟩,henter,h⟩ := bind_eq_ok.mp h
    obtain ⟨hdepth,hnodes,hspec,hminor,rfl⟩ := enterComponent_eq_ok henter
    obtain ⟨hmem,hname⟩ := find_eq_ok hspec
    obtain ⟨hspecIf,hspecLoop⟩ := kind_of_spec spec hmem
    rw [placements, strays]
    dsimp only at h
    have hwithin : counts.Within → ({ counts with nodes := counts.nodes + 1 } : Counts).Within :=
      fun hc => ⟨hnodes,hc.bindings,hc.assetRefs⟩
    cases hkind : spec.kind with
    | if_ =>
      rw [hkind, check_bind_eq_ok] at h
      obtain ⟨hif,h⟩ := h
      obtain ⟨counts₂,hthen,helse⟩ := bind_eq_ok.mp h
      have hplain := (validateIf_eq_ok hif).1
      obtain ⟨-,-,hchildren⟩ := isPlain_iff.mp hplain
      have hcompKind : kind = "If" := hname ▸ hspecIf.mp hkind
      subst hchildren hcompKind
      rw [if_pos rfl, childPlacements, List.nil_append]
      obtain ⟨hthenCovered,hthenCounted⟩ := validateBranch_placed (Or.inl rfl) hthen
      obtain ⟨helseCovered,helseCounted⟩ := validateBranch_placed (Or.inl rfl) helse
      constructor
      · refine .cons (fun hstray => ?_) (hthenCovered.append (helseCovered.append (.refl _)))
        exact control_sound hdepth hspec hminor (by rw [hkind]; decide) hplain
          (validateIf_bound hif) (hstray.1 rfl)
      · exact (hthenCounted.append (helseCounted.append (.refl _ _))).around
          (control_counts hplain (by simp)) (Counts.add_zero _).symm (Counts.add_zero _).symm
          hwithin id
    | forEach =>
      rw [hkind] at h
      obtain ⟨found,hforEach,htemplate⟩ := bind_eq_ok.mp h
      have hplain := (validateForeach_eq_ok hforEach).1
      obtain ⟨hitems,hloop⟩ := validateForeach_bound hforEach
      obtain ⟨-,-,hchildren⟩ := isPlain_iff.mp hplain
      have hcompKind : kind = "ForEach" := hname ▸ hspecLoop.mp hkind
      subst hchildren hcompKind
      rw [if_neg (by decide), if_pos rfl, childPlacements, List.nil_append, templateScope,
        if_pos rfl, hloop]
      obtain ⟨hcovered,hcounted⟩ := validateBranch_placed (Or.inr rfl) htemplate
      constructor
      · refine .cons (fun hstray => ?_) ((Covered.refl _).append ((Covered.refl _).append hcovered))
        exact control_sound hdepth hspec hminor (by rw [hkind]; decide) hplain (hstray.2 rfl)
          hitems
      · exact ((Counted.refl _ _).append ((Counted.refl _ _).append hcounted)).around
          (control_counts hplain (by simp)) (Counts.add_zero _).symm (Counts.add_zero _).symm
          hwithin id
    | element =>
      rw [hkind] at h
      obtain ⟨counts₂,helement,h⟩ := bind_eq_ok.mp h
      obtain ⟨counts₃,hchildren,hevents⟩ := bind_eq_ok.mp h
      obtain ⟨⟨-,hthen,helse,-,htemplate⟩,hprops,-⟩ := validateElement_eq_ok helement
      subst hthen helse htemplate
      have hif : kind ≠ "If" := fun hif => by
        have hspecKind := hspecIf.mpr (hname.trans hif)
        rw [hkind] at hspecKind
        cases hspecKind
      have hloop : kind ≠ "ForEach" := fun hloop => by
        have hspecKind := hspecLoop.mpr (hname.trans hloop)
        rw [hkind] at hspecKind
        cases hspecKind
      rw [if_neg hif, if_neg hloop]
      simp only [branchPlacements, List.append_nil]
      obtain ⟨hcovered,hcounted⟩ := validateChildren_placed hscope hchildren
      obtain ⟨hpropCounts,hpropWithin⟩ := foldlM_validateProp_counts hprops
      obtain ⟨-,himageCounts,himageWithin⟩ := validateEvents_eq_ok hevents
      constructor
      · exact .cons (fun _ => element_sound hscope hdepth hspec hminor helement hevents) hcovered
      · have hbefore : counts₂ =
            counts.add ⟨1,props.entries.countP (fun e => e.2.isBinding),0⟩ := by
          rw [hpropCounts]
          simp only [Counts.add, Nat.add_zero]
        refine hcounted.around hbefore himageCounts ?_ (fun hc => hpropWithin (hwithin hc))
          himageWithin
        simp only [Component.counts, Counts.add, Nat.zero_add, Nat.add_zero]

theorem validateChildren_placed {itemSchema scope : Option JsonSchema} {depth : ℕ}
    {counts counts' : Counts} {children : List Component}
    (hscope : itemSchema = none ∨ itemSchema = scope)
    (h : validateChildren env stateSchema itemSchema depth counts children = .ok counts') :
    Covered env stateSchema (childPlacements stateSchema scope depth children)
        (childStrays stateSchema scope depth children) ∧
      Counted counts counts' (childPlacements stateSchema scope depth children)
        (childStrays stateSchema scope depth children) := by
  match children with
  | [] =>
    obtain rfl := Except.ok.inj h
    exact ⟨.refl _,.refl _ _⟩
  | child :: children =>
    obtain ⟨counts₁,hchild,hrest⟩ := bind_eq_ok.mp h
    rw [childPlacements, childStrays]
    obtain ⟨hcovered,hcounted⟩ := validateComponent_placed hscope hchild
    obtain ⟨hcovered',hcounted'⟩ := validateChildren_placed hscope hrest
    exact ⟨hcovered.append hcovered',hcounted.append hcounted'⟩

theorem validateBranch_placed {itemSchema scope : Option JsonSchema} {depth : ℕ}
    {counts counts' : Counts} {branch : Option Component}
    (hscope : itemSchema = none ∨ itemSchema = scope)
    (h : validateBranch env stateSchema itemSchema depth counts branch = .ok counts') :
    Covered env stateSchema (branchPlacements stateSchema scope depth branch)
        (branchStrays stateSchema scope depth branch) ∧
      Counted counts counts' (branchPlacements stateSchema scope depth branch)
        (branchStrays stateSchema scope depth branch) := by
  match branch with
  | none =>
    obtain rfl := Except.ok.inj h
    exact ⟨.refl _,.refl _ _⟩
  | some comp => exact validateComponent_placed hscope h

end

mutual

/-- Where the unused fields are empty there are no strays. -/
theorem strays_eq_nil {scope : Option JsonSchema} {depth : ℕ} {comp : Component}
    (h : ∀ p ∈ placements stateSchema scope depth comp, p.node.unusedEmpty = true) :
    strays stateSchema scope depth comp = [] := by
  match comp with
  | ⟨kind,props,children,events,when_,then_,else_,items,key,template⟩ =>
    rw [placements] at h
    simp only [List.forall_mem_cons, List.forall_mem_append] at h
    obtain ⟨hself,hchildren,hthen,helse,htemplate⟩ := h
    rw [strays]
    unfold Component.unusedEmpty at hself
    split_ifs at hself ⊢ with hif hloop
    · obtain ⟨-,hnone⟩ := Bool.and_eq_true_iff.mp hself
      rw [Option.isNone_iff_eq_none] at hnone
      dsimp only at hnone
      subst hnone
      rw [branchStrays_eq_nil hthen, branchStrays_eq_nil helse]
      rfl
    · simp only [Bool.and_eq_true, Option.isNone_iff_eq_none] at hself
      obtain ⟨⟨-,rfl⟩,rfl⟩ := hself
      rw [branchStrays_eq_nil htemplate]
      rfl
    · exact childStrays_eq_nil hchildren

theorem childStrays_eq_nil {scope : Option JsonSchema} {depth : ℕ} {children : List Component}
    (h : ∀ p ∈ childPlacements stateSchema scope depth children, p.node.unusedEmpty = true) :
    childStrays stateSchema scope depth children = [] := by
  match children with
  | [] => rfl
  | child :: children =>
    rw [childPlacements, List.forall_mem_append] at h
    rw [childStrays, strays_eq_nil h.1, childStrays_eq_nil h.2]
    rfl

theorem branchStrays_eq_nil {scope : Option JsonSchema} {depth : ℕ} {branch : Option Component}
    (h : ∀ p ∈ branchPlacements stateSchema scope depth branch, p.node.unusedEmpty = true) :
    branchStrays stateSchema scope depth branch = [] := by
  match branch with
  | none => rfl
  | some comp => exact strays_eq_nil h

end

theorem strayBound_of_unusedEmpty {p : Placement} (h : p.node.unusedEmpty = true) :
    p.StrayBound stateSchema := by
  constructor
  · intro hkind
    rw [Component.unusedEmpty, if_pos hkind] at h
    rw [Option.isNone_iff_eq_none.mp (Bool.and_eq_true_iff.mp h).1]
    exact controlBound_none _
  · intro hkind
    rw [Component.unusedEmpty, if_neg (by rw [hkind]; decide), if_pos hkind] at h
    simp only [Bool.and_eq_true, Option.isNone_iff_eq_none] at h
    rw [h.1.1]
    exact controlBound_none _

mutual

theorem strays_sublist {scope : Option JsonSchema} {depth : ℕ} {comp : Component} :
    (strays stateSchema scope depth comp).Sublist (placements stateSchema scope depth comp) := by
  match comp with
  | ⟨kind,props,children,events,when_,then_,else_,items,key,template⟩ =>
    rw [strays, placements]
    apply List.Sublist.cons
    split_ifs with hif hloop
    · refine List.Sublist.trans ?_ (List.sublist_append_right _ _)
      exact branchStrays_sublist.append (branchStrays_sublist.append (List.Sublist.refl _))
    · refine List.Sublist.trans ?_ (List.sublist_append_right _ _)
      exact (List.Sublist.refl _).append ((List.Sublist.refl _).append branchStrays_sublist)
    · exact childStrays_sublist.trans (List.sublist_append_left _ _)

theorem childStrays_sublist {scope : Option JsonSchema} {depth : ℕ} {children : List Component} :
    (childStrays stateSchema scope depth children).Sublist
      (childPlacements stateSchema scope depth children) := by
  match children with
  | [] => exact List.Sublist.refl _
  | child :: children =>
    rw [childStrays, childPlacements]
    exact strays_sublist.append childStrays_sublist

theorem branchStrays_sublist {scope : Option JsonSchema} {depth : ℕ} {branch : Option Component} :
    (branchStrays stateSchema scope depth branch).Sublist
      (branchPlacements stateSchema scope depth branch) := by
  match branch with
  | none => exact List.Sublist.refl _
  | some comp => exact strays_sublist

end

/-- The validation of the children never counts backwards. -/
theorem validateChildren_nodes_le {itemSchema : Option JsonSchema} {depth : ℕ}
    {counts counts' : Counts} {children : List Component}
    (h : validateChildren env stateSchema itemSchema depth counts children = .ok counts') :
    counts.nodes ≤ counts'.nodes := by
  obtain ⟨-,hcounted⟩ := validateChildren_placed (Or.inr rfl) h
  have hadd := congrArg Counts.nodes hcounted.add
  have hle : (childStrays stateSchema itemSchema depth children).length ≤
      (childPlacements stateSchema itemSchema depth children).length :=
    childStrays_sublist.length_le
  simp only [Counts.add, tally_nodes] at hadd
  omega

end Trees

theorem Placement.Sound.strayBound {env : ValidateEnv} {stateSchema : JsonSchema} {p : Placement}
    (h : p.Sound env stateSchema) : p.StrayBound stateSchema :=
  ⟨fun _ => h.items_bound,fun _ => h.when_bound⟩

section Documents

variable {irBytes : UiDocument → Except String ℕ} {doc : UiDocument}

theorem validateDocument_eq_ok (h : validateDocument irBytes doc = .ok ()) :
    ∃ uiMinor counts, checkApiVersion doc.uiApiVersion = .ok uiMinor ∧
      Meets doc.state.schema doc.state.initial ∧
      validateComponent ⟨doc.events,uiMinor⟩ doc.state.schema none 1 ⟨0,0,0⟩ doc.root =
        .ok counts := by
  obtain ⟨uiMinor,hversion,h⟩ := bind_eq_ok.mp h
  simp only [check_bind_eq_ok] at h
  obtain ⟨-,-,-,hinitial,-,h⟩ := h
  obtain ⟨counts,hroot,-⟩ := bind_eq_ok.mp h
  exact ⟨uiMinor,counts,hversion,meets_of_validateValue hinitial,hroot⟩

/-- A document without strays is within the budgets that were enforced on it. -/
theorem within_of_unusedEmpty (h : validateDocument irBytes doc = .ok ())
    (hunused : doc.UnusedEmpty) : (tally doc.placements).Within := by
  obtain ⟨uiMinor,counts,-,-,hroot⟩ := validateDocument_eq_ok h
  obtain ⟨-,hcounted⟩ := validateComponent_placed (Or.inl rfl) hroot
  have hadd := hcounted.add
  rw [strays_eq_nil hunused, tally_nil, Counts.add_zero, Counts.zero_add] at hadd
  rw [UiDocument.placements, ← hadd]
  exact hcounted.within ⟨Nat.zero_le _,Nat.zero_le _,Nat.zero_le _⟩

theorem sound_of_straysSound (h : validateDocument irBytes doc = .ok ())
    (hstrays : doc.StraysSound) : doc.Sound := by
  obtain ⟨uiMinor,counts,hversion,hinitial,hroot⟩ := validateDocument_eq_ok h
  obtain ⟨hcovered,-⟩ := validateComponent_placed (Or.inl rfl) hroot
  obtain ⟨uiMinor',hversion',hstray⟩ := hstrays.placed
  obtain rfl : uiMinor' = uiMinor := Except.ok.inj (hversion'.symm.trans hversion)
  refine ⟨hinitial,⟨uiMinor',hversion,fun p hp => ?_⟩,hstrays.counts⟩
  rcases hcovered p hp with hmem | hsound
  · exact hstray p hmem
  · exact hsound (hstrays.bound p hp)

theorem straysSound_of_sound (h : doc.Sound) : doc.StraysSound := by
  obtain ⟨uiMinor,hversion,hsound⟩ := h.placed
  exact ⟨⟨uiMinor,hversion,fun p hp => hsound p (strays_sublist.subset hp)⟩,
    fun p hp => (hsound p hp).strayBound,h.counts⟩

theorem straysSound_of_unusedEmpty (h : validateDocument irBytes doc = .ok ())
    (hunused : doc.UnusedEmpty) : doc.StraysSound := by
  obtain ⟨uiMinor,counts,hversion,-,-⟩ := validateDocument_eq_ok h
  refine ⟨⟨uiMinor,hversion,?_⟩,fun p hp => strayBound_of_unusedEmpty (hunused p hp),
    within_of_unusedEmpty h hunused⟩
  rw [UiDocument.strays, strays_eq_nil hunused]
  intro p hp
  cases hp

/-- An accepted document is sound when its nodes carry no unused control field, and in general
exactly when what these fields hold is sound. -/
theorem accepted_sound_iff (h : validateDocument irBytes doc = .ok ()) :
    (doc.UnusedEmpty → doc.Sound) ∧ (doc.Sound ↔ doc.StraysSound) :=
  ⟨fun hunused => sound_of_straysSound h (straysSound_of_unusedEmpty h hunused),
    straysSound_of_sound,sound_of_straysSound h⟩

end Documents

/-- A text that is shown while a switch of the state is on; nothing shows the template. -/
def switchDocument (template : Option Component) : UiDocument where
  uiApiVersion := "1.0.0"
  state := ⟨.object [("on",.bool true)],.object [] [("on",.boolean)] false⟩
  events := OrdMap.empty
  root :=
    { plainComponent "If" with
      when_ := some (.state "$.on")
      then_ := some
        { plainComponent "Text" with props := OrdMap.ofList [("text",.literal (.string "ok"))] }
      template := template }

/-- The length of the document without and with the template. -/
def switchBytes (doc : UiDocument) : Except String ℕ :=
  .ok (if doc.root.template.isNone then 267 else 297)

theorem switchDocument_sound : (switchDocument none).Sound := by
  have haccepted : validateDocument switchBytes (switchDocument none) = .ok () := by rfl
  have hunused : (switchDocument none).UnusedEmpty := by
    unfold UiDocument.UnusedEmpty
    decide
  exact (accepted_sound_iff haccepted).1 hunused

/-- The template is of a kind that no registry knows. -/
theorem unknown_template_accepted :
    ¬∀ doc, validateDocument switchBytes doc = .ok () → doc.Sound := by
  intro h
  have hsound := h (switchDocument (some (plainComponent "Marquee"))) (by rfl)
  obtain ⟨uiMinor,-,hplaced⟩ := hsound.placed
  have htemplate : ⟨none,2,plainComponent "Marquee"⟩ ∈
      (switchDocument (some (plainComponent "Marquee"))).placements :=
    List.mem_cons_of_mem _ (List.mem_cons_of_mem _ List.mem_cons_self)
  obtain ⟨spec,hmem,hfits⟩ := (hplaced _ htemplate).registered
  have hunknown : ∀ spec ∈ components, spec.name ≠ "Marquee" := by decide
  exact hunknown spec hmem hfits.name

end Floatile.UiSchema
