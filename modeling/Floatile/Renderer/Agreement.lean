import Floatile.Renderer.Emitters

/-! The validator and the renderer: an accepted document is generated, or stops at a component
without an emitter, exactly when the demands of the emitters are met. -/
namespace Floatile.Renderer

open Floatile.Lib
open Floatile.Lib.Checked (bind_eq_ok check_bind_eq_ok reject_eq_ok)
open Floatile.Core
open Floatile.UiSchema

section Checked

variable {env : ValidateEnv} {stateSchema : JsonSchema} {itemSchema : Option JsonSchema}
  {spec : ComponentSpec} {comp : Component} {counts counts' : Counts}

theorem validateBinding_target {binding : Binding} {prop : PropSchema} {kind name : String}
    (h : validateBinding binding prop stateSchema itemSchema kind name = .ok ()) :
    ∃ target, bindingTarget stateSchema itemSchema binding = .ok target := by
  obtain ⟨target,htarget,-⟩ := bind_eq_ok.mp h
  exact ⟨target,htarget⟩

variable (hspec : find comp.kind = .ok spec)
  (helement : validateElement env spec stateSchema itemSchema comp counts = .ok counts')

include helement in
theorem literal_checked {name : String} {json : Json}
    (hprop : comp.props.get name = some (.literal json)) :
    ∃ prop, spec.findProp name = some prop ∧ prop.name = name ∧
      validateLiteral spec prop json = .ok () := by
  obtain ⟨c,c',hvalid⟩ := validateElement_props helement hprop
  obtain ⟨prop,hfound,hliteral,-⟩ := validateProp_literal hvalid
  exact ⟨prop,hfound,by simpa using List.find?_some hfound,hliteral⟩

include helement in
theorem binding_checked {name : String} {binding : Binding}
    (hprop : comp.props.get name = some (.binding binding)) :
    ∃ prop, spec.findProp name = some prop ∧ prop.allowBinding = true ∧
      ∃ target, bindingTarget stateSchema itemSchema binding = .ok target := by
  obtain ⟨c,c',hvalid⟩ := validateElement_props helement hprop
  obtain ⟨prop,hfound,hallow,hbinding,-⟩ := validateProp_binding hvalid
  exact ⟨prop,hfound,hallow,validateBinding_target hbinding⟩

include helement in
theorem required_given {name : String} {prop : PropSchema} (hprop : spec.findProp name = some prop)
    (hoptional : prop.optional = false) : comp.props.get name ≠ none := by
  obtain ⟨-,-,hrequired,-⟩ := validateElement_eq_ok helement
  have hname : prop.name = name := by simpa using List.find?_some hprop
  have hsome := checkRequiredProps_eq_ok hrequired prop (List.mem_of_find?_eq_some hprop) hoptional
  rw [hname] at hsome
  exact Option.isSome_iff_ne_none.mp hsome

include hspec helement in
/-- A slot prop that is present is checked as its slot needs it. -/
theorem slotGiven_of_element {name : String} {valueType : BindingValueType}
    (hslot : (name,valueType) ∈ slotProps comp.kind) (hsome : comp.props.get name ≠ none) :
    SlotGiven comp name valueType := by
  obtain ⟨hmem,hname⟩ := find_eq_ok hspec
  rw [← hname] at hslot
  have htypes := slotProps_types spec hmem _ hslot
  unfold SlotGiven
  cases hprop : comp.props.get name with
  | none => exact hsome hprop
  | some value =>
    cases value with
    | binding binding =>
      cases binding with
      | item item => trivial
      | state bind =>
        obtain ⟨-,-,-,target,htarget⟩ := binding_checked helement hprop
        obtain ⟨path,hparse,-⟩ := bind_eq_ok.mp htarget
        exact ⟨path,hparse⟩
    | literal json =>
      obtain ⟨prop,hfound,-,hliteral⟩ := literal_checked helement hprop
      rw [hfound, Option.map_some, Option.some.injEq] at htypes
      have haccepts := (validateLiteral_eq_ok hliteral).1
      rw [htypes] at haccepts
      simpa using haccepts

/-- The slot props are required, but for the labels that came later and the items of a List. -/
theorem slotProps_required : ∀ spec ∈ components, ∀ e ∈ slotProps spec.name,
    e.1 = "accessibilityLabel" ∨ e.1 = "items" ∨
      (spec.findProp e.1).map PropSchema.optional = some false := by decide

include hspec helement in
theorem slotGiven_of_required {name : String} {valueType : BindingValueType}
    (hslot : (name,valueType) ∈ slotProps comp.kind) (hlabel : name ≠ "accessibilityLabel")
    (hitems : name ≠ "items") : SlotGiven comp name valueType := by
  obtain ⟨hmem,hname⟩ := find_eq_ok hspec
  have hrequired := slotProps_required spec hmem _ (hname ▸ hslot)
  obtain ⟨prop,hprop,hoptional⟩ :=
    Option.map_eq_some_iff.mp ((hrequired.resolve_left hlabel).resolve_left hitems)
  exact slotGiven_of_element hspec helement hslot (required_given helement hprop hoptional)

include hspec helement in
theorem labelGiven_of_element (hkind : comp.kind ∈ labelledKinds) :
    LabelGiven comp env.uiMinor := by
  obtain ⟨-,-,-,hlabel,-⟩ := validateElement_eq_ok helement
  by_cases hnone : (comp.props.get "accessibilityLabel").isNone
  · right
    refine ⟨?_,hnone⟩
    by_contra hminor
    have hsome := hlabel (Nat.not_lt.mp hminor) hkind
    rw [Option.isNone_iff_eq_none.mp hnone] at hsome
    cases hsome
  · left
    refine slotGiven_of_element hspec helement ?_ (by simpa using hnone)
    simp only [labelledKinds, List.mem_cons, List.not_mem_nil, or_false] at hkind
    rcases hkind with hkind | hkind | hkind <;> rw [hkind] <;> decide

include helement in
theorem themeGiven_of_element : ThemeGiven comp := by
  intro token htoken
  unfold literalStr at htoken
  split at htoken
  · rename_i json hprop
    obtain ⟨prop,-,hname,hliteral⟩ := literal_checked helement hprop
    have hcheck := (validateLiteral_eq_ok hliteral).2.2.2.2 hname
    unfold checkColorToken at hcheck
    rw [htoken] at hcheck
    dsimp only at hcheck
    split_ifs at hcheck with hsome
    · exact hsome
    · cases hcheck
  · cases htoken

/-- A literal of a restricted prop is one of its values. -/
theorem checkOneOf_eq_ok {prop : String} {allowed : List String} {text : String}
    (h : checkOneOf prop allowed (.string text) = .ok ()) : text ∈ allowed := by
  unfold checkOneOf at h
  dsimp only [Json.asStr] at h
  split_ifs at h with hallowed
  · exact List.contains_iff_mem.mp hallowed
  · cases h

/-- The tones are literal texts. -/
theorem toneProps : ∀ spec ∈ components, ∀ prop, spec.findProp "tone" = some prop →
    prop.types = [.string] ∧ prop.allowBinding = false := by
  intro spec hspec prop hprop
  have hall : ∀ spec ∈ components, ∀ prop ∈ spec.props, prop.name = "tone" →
      prop.types = [.string] ∧ prop.allowBinding = false := by decide
  exact hall spec hspec prop (List.mem_of_find?_eq_some hprop)
    (by simpa using List.find?_some hprop)

include hspec helement in
/-- A tone is missing or one of the literal texts that its check admits. -/
theorem tone_cases : comp.props.get "tone" = none ∨
    ∃ text prop, comp.props.get "tone" = some (.literal (.string text)) ∧ prop.name = "tone" ∧
      validateLiteral spec prop (.string text) = .ok () := by
  obtain ⟨hmem,-⟩ := find_eq_ok hspec
  cases hprop : comp.props.get "tone" with
  | none => exact Or.inl rfl
  | some value =>
    right
    cases value with
    | binding binding =>
      obtain ⟨prop,hfound,hallow,-⟩ := binding_checked helement hprop
      rw [(toneProps spec hmem prop hfound).2] at hallow
      cases hallow
    | literal json =>
      obtain ⟨prop,hfound,hname,hliteral⟩ := literal_checked helement hprop
      have haccepts := (validateLiteral_eq_ok hliteral).1
      rw [(toneProps spec hmem prop hfound).1] at haccepts
      obtain ⟨text,rfl⟩ := accepts_string (by simpa using haccepts)
      exact ⟨text,prop,rfl,hname,hliteral⟩

include hspec helement in
theorem toneGiven_of_element (hkind : comp.kind = "Badge") : ToneGiven comp := by
  obtain ⟨-,hname⟩ := find_eq_ok hspec
  unfold ToneGiven badgeTone
  rcases tone_cases hspec helement with hnone | ⟨text,prop,htext,hprop,hliteral⟩
  · rw [hnone]
    exact ⟨_,_,rfl,rfl⟩
  · rw [htext]
    have hcheck := (validateLiteral_eq_ok hliteral).2.1 ⟨hname.trans hkind,hprop⟩
    have hallowed := checkOneOf_eq_ok hcheck
    simp only [List.mem_cons, List.not_mem_nil, or_false] at hallowed
    rcases hallowed with rfl | rfl | rfl | rfl | rfl <;> exact ⟨_,_,rfl,rfl⟩

include hspec helement in
theorem sparklineColor_of_element (hkind : comp.kind = "Sparkline") :
    ∃ color, sparklineColor comp = .ok color := by
  obtain ⟨-,hname⟩ := find_eq_ok hspec
  unfold sparklineColor
  rcases tone_cases hspec helement with hnone | ⟨text,prop,htext,hprop,hliteral⟩
  · rw [hnone]
    exact ⟨_,rfl⟩
  · rw [htext]
    have hcheck := (validateLiteral_eq_ok hliteral).2.2.2.1 ⟨hname.trans hkind,hprop⟩
    have hallowed := checkOneOf_eq_ok hcheck
    simp only [List.mem_cons, List.not_mem_nil, or_false] at hallowed
    rcases hallowed with rfl | rfl | rfl | rfl <;> exact ⟨_,rfl⟩

include hspec helement in
theorem pointsGiven_of_element (hkind : comp.kind = "Sparkline") : PointsGiven comp := by
  intro points hpoints point hpoint
  obtain ⟨-,hname⟩ := find_eq_ok hspec
  obtain ⟨prop,-,hprop,hliteral⟩ := literal_checked helement hpoints
  have hcheck := (validateLiteral_eq_ok hliteral).2.2.1 ⟨hname.trans hkind,hprop⟩
  unfold checkArray at hcheck
  dsimp only [Json.asArray] at hcheck
  split_ifs at hcheck with hbad
  · cases hcheck
  · simp only [Bool.or_eq_true, not_or, Bool.not_eq_true', Bool.not_eq_false] at hbad
    exact List.all_eq_true.mp hbad.2 point hpoint

include hspec helement in
/-- The threshold of a Responsive is a literal number. -/
theorem breakpoint_of_element (hkind : comp.kind = "Responsive") :
    ∃ breakpoint, literalF64 comp "breakpoint" = some breakpoint := by
  obtain ⟨hmem,hname⟩ := find_eq_ok hspec
  have hdeclared : ∀ spec ∈ components, spec.name = "Responsive" →
      spec.findProp "breakpoint" = some ⟨"breakpoint",[.number],false,4,false⟩ := by decide
  have hprop := hdeclared spec hmem (hname.trans hkind)
  unfold literalF64
  cases hvalue : comp.props.get "breakpoint" with
  | none => exact absurd hvalue (required_given helement hprop rfl)
  | some value =>
    cases value with
    | binding binding =>
      obtain ⟨found,hfound,hallow,-⟩ := binding_checked helement hvalue
      rw [hprop, Option.some.injEq] at hfound
      rw [← hfound] at hallow
      cases hallow
    | literal json =>
      obtain ⟨found,hfound,-,hliteral⟩ := literal_checked helement hvalue
      rw [hprop, Option.some.injEq] at hfound
      have haccepts := (validateLiteral_eq_ok hliteral).1
      rw [← hfound] at haccepts
      cases json with
      | number n => exact ⟨_,rfl⟩
      | null | bool | string | array | object => cases haccepts

theorem leafPieces_eq {lib : JsonLib} {ctx : Ctx} (hkind : comp.kind ≠ "List") :
    leafPieces lib comp ctx = renderLeaf lib comp ctx := by
  unfold leafPieces
  cases comp.props.get "items" with
  | none => rfl
  | some items => exact if_neg hkind

include hspec helement in
/-- A leaf that the validation has passed follows its demands. -/
theorem leaf_follows {lib : JsonLib} {ctx : Ctx} (hshape : shapeOf comp = .leaf)
    (hchildren : comp.kind = "List" → comp.children = []) (hminor : ctx.uiMinor = env.uiMinor)
    (hroom : ctx.bindings.entries.length + 2 ≤ maxBindings) :
    Follows (leafPieces lib comp ctx) ctx.used (leafDemands ctx.uiMinor comp) (Grown ctx 2) := by
  have hgiven : ∀ {name : String} {valueType : BindingValueType},
      (name,valueType) ∈ slotProps comp.kind → name ≠ "accessibilityLabel" → name ≠ "items" →
        SlotGiven comp name valueType := slotGiven_of_required hspec helement
  have hlabel := fun hkind => hminor ▸ labelGiven_of_element hspec helement hkind
  by_cases hlist : comp.kind = "List"
  · have hitems : (comp.props.get "items").isSome := by
      unfold shapeOf at hshape
      simpa [hlist, Option.isSome_iff_ne_none] using hshape
    obtain ⟨items,hitems⟩ := Option.isSome_iff_exists.mp hitems
    have hpieces : leafPieces lib comp ctx = renderListItems comp items ctx := by
      simp [leafPieces, hitems, hlist]
    have hdemands : leafDemands ctx.uiMinor comp = itemsDemands comp := by
      simp [leafDemands, hlist]
    have hslot : SlotGiven comp "items" .stringList :=
      slotGiven_of_element hspec helement (by rw [hlist]; decide) (by rw [hitems]; simp)
    rw [hpieces, hdemands]
    exact (renderListItems_follows hitems hslot (hchildren hlist) (by omega)).mono
      fun ctx' hgrown => hgrown.mono (by omega)
  rw [leafPieces_eq hlist]
  by_cases hsparkline : comp.kind = "Sparkline"
  · rw [show renderLeaf lib comp ctx = renderSparkline comp ctx by simp [renderLeaf, hsparkline],
      leafDemands, if_pos hsparkline]
    exact renderSparkline_follows (hgiven (by rw [hsparkline]; decide) (by decide) (by decide))
      (hgiven (by rw [hsparkline]; decide) (by decide) (by decide))
      (pointsGiven_of_element hspec helement hsparkline)
      (sparklineColor_of_element hspec helement hsparkline) hroom
  by_cases htext : comp.kind = "Text"
  · rw [show renderLeaf lib comp ctx = renderText lib comp ctx by simp [renderLeaf, htext],
      leafDemands, if_neg hsparkline, if_pos htext]
    exact renderText_follows (hgiven (by rw [htext]; decide) (by decide) (by decide))
      (themeGiven_of_element helement) hroom
  by_cases hbutton : comp.kind = "Button"
  · rw [show renderLeaf lib comp ctx = renderButton lib comp ctx by simp [renderLeaf, hbutton],
      leafDemands, if_neg hsparkline, if_neg htext, if_pos hbutton]
    exact renderButton_follows (hgiven (by rw [hbutton]; decide) (by decide) (by decide)) hroom
  by_cases htoggle : comp.kind = "Toggle"
  · rw [show renderLeaf lib comp ctx = renderToggle lib comp ctx by simp [renderLeaf, htoggle],
      leafDemands, if_neg hsparkline, if_neg htext, if_neg hbutton, if_pos htoggle]
    exact renderToggle_follows (hgiven (by rw [htoggle]; decide) (by decide) (by decide))
      (hlabel (by simp [labelledKinds, htoggle])) (by rw [htoggle]; decide) hroom
  by_cases hmeter : comp.kind = "Progress" ∨ comp.kind = "Gauge"
  · rw [show renderLeaf lib comp ctx = renderMeter lib comp ctx by
        rcases hmeter with hmeter | hmeter <;> simp [renderLeaf, hmeter],
      leafDemands, if_neg hsparkline, if_neg htext, if_neg hbutton, if_neg htoggle, if_pos hmeter]
    refine renderMeter_follows (hgiven ?_ (by decide) (by decide)) (hlabel ?_) ?_ hroom
    · rcases hmeter with hmeter | hmeter <;> rw [hmeter] <;> decide
    · rcases hmeter with hmeter | hmeter <;> simp [labelledKinds, hmeter]
    · rcases hmeter with hmeter | hmeter <;> rw [hmeter] <;> decide
  by_cases hbadge : comp.kind = "Badge"
  · rw [show renderLeaf lib comp ctx = renderBadge lib comp ctx by simp [renderLeaf, hbadge],
      leafDemands, if_neg hsparkline, if_neg htext, if_neg hbutton, if_neg htoggle, if_neg hmeter,
      if_pos hbadge]
    exact renderBadge_follows (hgiven (by rw [hbadge]; decide) (by decide) (by decide))
      (toneGiven_of_element hspec helement hbadge) hroom
  rw [not_or] at hmeter
  rw [show renderLeaf lib comp ctx = .error (.unsupportedComponent comp.kind
      "renderer 暂不映射该组件;请移除或等待后续切片") by
    simp [renderLeaf, hsparkline, htext, hbutton, htoggle, hmeter, hbadge]]
  rw [show leafDemands ctx.uiMinor comp = [.unmapped] by
    simp [leafDemands, hsparkline, htext, hbutton, htoggle, hmeter, hbadge, hlist]]
  obtain ⟨hmem,hname⟩ := find_eq_ok hspec
  refine ⟨.unmapped,rfl,⟨spec,hmem,hname⟩,?_⟩
  unfold shapeOf at hshape
  split_ifs at hshape with hif hloop hcontainer
  simp only [List.mem_cons, List.not_mem_nil, or_false, not_or] at hcontainer
  simp [mappedKinds, hsparkline, htext, hbutton, htoggle, hmeter, hbadge, hlist, hif, hloop,
    hcontainer]

end Checked

section Nodes

variable {lib : JsonLib} {comp : Component} {ctx ctx₁ : Ctx} {depth : ℕ}

theorem renderNode_leaf (hshape : shapeOf comp = .leaf) (henter : enterNode ctx depth = .ok ctx₁) :
    renderNode lib comp ctx depth = asLeaf comp (leafPieces lib comp ctx₁) := by
  obtain ⟨kind,props,children,events,when_,then_,else_,items,key,template⟩ := comp
  rw [renderNode, henter, Checked.ok_bind]
  unfold shapeOf at hshape
  split_ifs at hshape with hif hloop hcontainer
  simp only [List.mem_cons, List.not_mem_nil, or_false, not_or] at hcontainer
  obtain ⟨⟨hcolumn,hrow,hstack,hgrid,hresponsive⟩,hlist⟩ := hcontainer
  by_cases hkind : kind = "List"
  · subst hkind
    simp only [true_and, Bool.not_eq_true, Option.isNone_eq_false_iff] at hlist
    obtain ⟨value,hvalue⟩ := Option.isSome_iff_exists.mp hlist
    simp [renderList, leafPieces, hvalue]
  · simp only [hcolumn, hrow, hstack, hgrid, hresponsive, hkind, hif, hloop, if_false]
    rw [leafPieces_eq hkind]

variable (lib) in
/-- A container makes something of its rendered children. -/
theorem renderNode_container (hshape : shapeOf comp = .container)
    (hbreakpoint : comp.kind = "Responsive" →
      ∃ breakpoint, literalF64 comp "breakpoint" = some breakpoint)
    (henter : enterNode ctx depth = .ok ctx₁) :
    ∃ f : List (List Markup) × Ctx → Except RendererError (List Markup × Ctx),
      (∀ inner ctx', ∃ markup, f (inner,ctx') = .ok (markup,ctx')) ∧
      renderNode lib comp ctx depth =
        renderChildren lib comp.children ctx₁ (depth + 1) >>= f := by
  obtain ⟨kind,props,children,events,when_,then_,else_,items,key,template⟩ := comp
  rw [renderNode, henter, Checked.ok_bind]
  unfold shapeOf at hshape
  split_ifs at hshape with hif hloop hcontainer
  rcases hcontainer with hcontainer | ⟨hlist,hitems⟩
  · simp only [List.mem_cons, List.not_mem_nil, or_false] at hcontainer
    rcases hcontainer with rfl | rfl | rfl | rfl | rfl
    · exact ⟨_,fun _ _ => ⟨_,rfl⟩,rfl⟩
    · exact ⟨_,fun _ _ => ⟨_,rfl⟩,rfl⟩
    · exact ⟨_,fun _ _ => ⟨_,rfl⟩,rfl⟩
    · exact ⟨_,fun _ _ => ⟨_,rfl⟩,rfl⟩
    · obtain ⟨breakpoint,hbreakpoint⟩ := hbreakpoint rfl
      simp only [renderResponsive, hbreakpoint]
      exact ⟨_,fun _ _ => ⟨_,rfl⟩,rfl⟩
  · subst hlist
    have hnone := Option.isNone_iff_eq_none.mp hitems
    simp only [renderList, hnone]
    exact ⟨_,fun _ _ => ⟨_,rfl⟩,rfl⟩

theorem renderNode_branch (hshape : shapeOf comp = .branch)
    (henter : enterNode ctx depth = .ok ctx₁) :
    renderNode lib comp ctx depth =
      renderIf comp (fun ctx => renderBranch lib comp.then_ ctx (depth + 1))
        (fun ctx => renderBranch lib comp.else_ ctx (depth + 1)) ctx₁ := by
  have hkind := (shapeOf_eq_branch_iff comp).mp hshape
  obtain ⟨kind,props,children,events,when_,then_,else_,items,key,template⟩ := comp
  subst hkind
  rw [renderNode, henter, Checked.ok_bind]
  rfl

theorem renderNode_loop (hshape : shapeOf comp = .loop)
    (henter : enterNode ctx depth = .ok ctx₁) :
    renderNode lib comp ctx depth =
      renderForeach comp (fun ctx => renderBranch lib comp.template ctx (depth + 1)) ctx₁ := by
  have hkind := (shapeOf_eq_loop_iff comp).mp hshape
  obtain ⟨kind,props,children,events,when_,then_,else_,items,key,template⟩ := comp
  subst hkind
  rw [renderNode, henter, Checked.ok_bind]
  rfl

end Nodes

/-- The renderer is not ahead of the validation in nodes, and no node registers more than two
paths. -/
structure Ready (env : ValidateEnv) (counts : Counts) (ctx : Ctx) : Prop where
  minor : ctx.uiMinor = env.uiMinor
  nodes : ctx.nodes ≤ counts.nodes
  paths : ctx.bindings.entries.length ≤ 2 * ctx.nodes

section Trees

variable {env : ValidateEnv} {stateSchema : JsonSchema} {lib : JsonLib}

theorem Ready.enter {counts : Counts} {ctx : Ctx} {depth : ℕ} (h : Ready env counts ctx)
    (hdepth : depth ≤ maxTreeDepth) (hnodes : counts.nodes + 1 ≤ maxNodes) :
    enterNode ctx depth = .ok ctx.entered ∧
      ctx.bindings.entries.length + 2 ≤ maxBindings := by
  have hcount := h.nodes
  have hpaths := h.paths
  have hmax : 2 * maxNodes = maxBindings := rfl
  refine ⟨?_,by omega⟩
  have hdeep : ¬maxTreeDepth < depth := by omega
  have hmany : ¬maxNodes < ctx.nodes + 1 := by omega
  have hbound : ¬maxBindings < ctx.bindings.entries.length := by omega
  simp [enterNode, Checked.reject, hdeep, hmany, hbound]

/-- A node that registers up to two paths keeps the invariant. -/
theorem Ready.grown {counts counts' : Counts} {ctx ctx' : Ctx} (h : Ready env counts ctx)
    (hgrown : Grown ctx.entered 2 ctx') (hcounts : counts.nodes + 1 ≤ counts'.nodes) :
    Ready env counts' ctx' := by
  have hminor := hgrown.minor
  have hnodes := hgrown.nodes
  have hpaths := hgrown.paths
  simp only [Ctx.entered] at hminor hnodes hpaths
  refine ⟨hminor.trans h.minor,?_,?_⟩
  · have hle := h.nodes
    omega
  · have hle := h.paths
    omega

theorem Ready.mono {counts counts' : Counts} {ctx : Ctx} (h : Ready env counts ctx)
    (hcounts : counts.nodes ≤ counts'.nodes) : Ready env counts' ctx :=
  ⟨h.minor,h.nodes.trans hcounts,h.paths⟩

/-- The key of a loop is asked for after its template. -/
theorem follows_itemKey {β : Type} {comp : Component} {used : Used} {post : Ctx → Prop}
    {f : List Piece → Except RendererError (β × Ctx)} (hf : ∀ key, Follows (f key) used [] post) :
    Follows (itemKey comp >>= f) used (keyDemands comp.key) post := by
  unfold itemKey keyDemands
  cases comp.key with
  | none => exact hf _
  | some key =>
    by_cases hempty : key.isEmpty
    · simp only [hempty, if_true, Option.all_some, Bool.not_true]
      exact follows_unmet trivial
    · simp only [hempty, Option.all_some, Bool.not_false]
      exact hf _

section Cases

variable {itemSchema : Option JsonSchema} {spec : ComponentSpec} {comp : Component}
  {counts counts₁ counts₂ counts' : Counts} {ctx : Ctx} {depth : ℕ}

theorem renderBranch_ne_none {branch : Option Component} (h : branch.isSome) (ctx ctx' : Ctx) :
    renderBranch lib branch ctx depth ≠ .ok (none,ctx') := by
  intro hnone
  obtain ⟨rfl,-⟩ := renderBranch_eq_none hnone
  cases h

theorem Ready.entered (h : Ready env counts ctx) (hcounts : counts.nodes + 1 ≤ counts'.nodes) :
    Ready env counts' ctx.entered :=
  h.grown ((Grown.refl ctx.entered).mono (by omega)) hcounts

/-- The path of an If or of a ForEach is asked for before its parts. -/
theorem bindingSlot_ready {bind : String} {valueType : BindingValueType}
    (hready : Ready env counts ctx) (hroom : ctx.bindings.entries.length + 2 ≤ maxBindings)
    (hparse : ∃ path, PathSegments.parse bind = .ok path)
    (hcounts : counts.nodes + 1 ≤ counts₁.nodes) :
    Follows (bindingSlot bind valueType ctx.entered) ctx.used [.path bind valueType]
      (Ready env counts₁) := by
  have hfollows : Follows (bindingSlot bind valueType ctx.entered) ctx.entered.used
      [.path bind valueType] (Grown ctx.entered 1) :=
    bindingSlot_follows hparse (by simp only [Ctx.entered]; omega)
  exact hfollows.mono fun ctx' hgrown => hready.grown (hgrown.mono (by omega)) hcounts

/-- An If whose branches follow their demands. -/
theorem renderIf_follows {thenDemands elseDemands : List Demand}
    {then_ else_ : Ctx → Except RendererError (Option (List Markup) × Ctx)}
    (hready : Ready env counts ctx) (hroom : ctx.bindings.entries.length + 2 ≤ maxBindings)
    (hif : validateIf stateSchema comp = .ok ()) (hcounts : counts.nodes + 1 ≤ counts₁.nodes)
    (hpresent : ∀ ctx ctx', then_ ctx ≠ .ok (none,ctx'))
    (hthen : ∀ ctx, Ready env counts₁ ctx →
      Follows (then_ ctx) ctx.used thenDemands (Ready env counts₂))
    (helse : ∀ ctx, Ready env counts₂ ctx →
      Follows (else_ ctx) ctx.used elseDemands (Ready env counts')) :
    Follows (renderIf comp then_ else_ ctx.entered) ctx.used
      (controlDemands comp.when_ .boolean ++ (thenDemands ++ elseDemands)) (Ready env counts') := by
  obtain ⟨-,bind,path,hwhen,hparse,-,-⟩ := validateIf_eq_ok hif
  rw [renderIf, hwhen]
  refine (bindingSlot_ready hready hroom ⟨path,hparse⟩ hcounts).bind fun slot ctx₁ _ hready₁ => ?_
  refine (hthen ctx₁ hready₁).bind fun shown ctx₂ hshown hready₂ => ?_
  cases shown with
  | none => exact absurd hshown (hpresent ctx₁ ctx₂)
  | some shown =>
    refine (helse ctx₂ hready₂).map fun hidden ctx₃ => ?_
    cases hidden with
    | none => exact ⟨_,rfl⟩
    | some hidden => exact ⟨_,rfl⟩

/-- A ForEach whose template follows its demands. -/
theorem renderForeach_follows {items : JsonSchema} {templateDemands : List Demand}
    {template : Ctx → Except RendererError (Option (List Markup) × Ctx)}
    (hready : Ready env counts ctx) (hroom : ctx.bindings.entries.length + 2 ≤ maxBindings)
    (hforEach : validateForeach stateSchema comp = .ok items)
    (hcounts : counts.nodes + 1 ≤ counts₁.nodes)
    (hpresent : ∀ ctx ctx', template ctx ≠ .ok (none,ctx'))
    (htemplate : ∀ ctx, Ready env counts₁ ctx →
      Follows (template ctx) ctx.used templateDemands (Ready env counts')) :
    Follows (renderForeach comp template ctx.entered) ctx.used
      (controlDemands comp.items .string ++ (templateDemands ++ keyDemands comp.key))
      (Ready env counts') := by
  obtain ⟨-,bind,path,maxItems,hitems,hparse,-,-⟩ := validateForeach_eq_ok hforEach
  rw [renderForeach, hitems]
  refine (bindingSlot_ready hready hroom ⟨path,hparse⟩ hcounts).bind fun slot ctx₁ _ hready₁ => ?_
  refine (htemplate ctx₁ hready₁).bind fun inner ctx₂ hinner hready₂ => ?_
  cases inner with
  | none => exact absurd hinner (hpresent ctx₁ ctx₂)
  | some inner => exact follows_itemKey fun _ => follows_ok hready₂

/-- An element is a leaf or a container. -/
theorem shapeOf_element (hspec : find comp.kind = .ok spec) (hkind : spec.kind = .element) :
    shapeOf comp = .leaf ∨ shapeOf comp = .container := by
  obtain ⟨hmem,hname⟩ := find_eq_ok hspec
  obtain ⟨hspecIf,hspecLoop⟩ := kind_of_spec spec hmem
  cases hshape : shapeOf comp with
  | leaf => exact Or.inl rfl
  | container => exact Or.inr rfl
  | branch =>
    have hif := hspecIf.mpr (hname.trans ((shapeOf_eq_branch_iff _).mp hshape))
    rw [hkind] at hif
    cases hif
  | loop =>
    have hloop := hspecLoop.mpr (hname.trans ((shapeOf_eq_loop_iff _).mp hshape))
    rw [hkind] at hloop
    cases hloop

/-- A leaf among the checked elements. -/
theorem leafNode_follows (hspec : find comp.kind = .ok spec)
    (helement : validateElement env spec stateSchema itemSchema comp counts₁ = .ok counts₂)
    (hshape : shapeOf comp = .leaf) (hready : Ready env counts ctx)
    (hentered : enterNode ctx depth = .ok ctx.entered)
    (hroom : ctx.bindings.entries.length + 2 ≤ maxBindings)
    (hcounts : counts.nodes + 1 ≤ counts'.nodes) :
    Follows (renderNode lib comp ctx depth) ctx.used (demands env.uiMinor comp)
      (Ready env counts') := by
  obtain ⟨-,-,-,-,hlist,-⟩ := validateElement_eq_ok helement
  have hnone : comp.kind = "List" → comp.children = [] := by
    intro hkindList
    have hitems : (comp.props.get "items").isSome := by
      unfold shapeOf at hshape
      simpa [hkindList, Option.isSome_iff_ne_none] using hshape
    by_contra hchildren
    exact hlist ⟨hkindList,hitems,by simpa using hchildren⟩
  rw [renderNode_leaf hshape hentered, demands_leaf hshape, ← hready.minor]
  have hleaf : Follows (leafPieces lib comp ctx.entered) ctx.entered.used
      (leafDemands ctx.entered.uiMinor comp) (Grown ctx.entered 2) :=
    leaf_follows hspec helement hshape hnone hready.minor hroom
  exact (hleaf.mono fun ctx' hgrown => hready.grown hgrown hcounts).map fun _ _ => ⟨_,rfl⟩

/-- A container among the checked elements, whose children follow their demands. -/
theorem containerNode_follows (hspec : find comp.kind = .ok spec)
    (helement : validateElement env spec stateSchema itemSchema comp counts₁ = .ok counts₂)
    (hshape : shapeOf comp = .container) (hentered : enterNode ctx depth = .ok ctx.entered)
    (hchildren : Follows (renderChildren lib comp.children ctx.entered (depth + 1)) ctx.used
      (childDemands env.uiMinor comp.children) (Ready env counts')) :
    Follows (renderNode lib comp ctx depth) ctx.used (demands env.uiMinor comp)
      (Ready env counts') := by
  obtain ⟨f,hf,hrender⟩ := renderNode_container lib hshape (breakpoint_of_element hspec helement)
    hentered
  rw [hrender, demands_container hshape]
  exact hchildren.map hf

end Cases

mutual

/-- Induction over the tree: the generation of a node that the validation passes follows the
demands of the node. -/
theorem renderNode_follows {itemSchema : Option JsonSchema} {depth depth' : ℕ}
    {counts counts' : Counts} {comp : Component} {ctx : Ctx}
    (hvalid : validateComponent env stateSchema itemSchema depth counts comp = .ok counts')
    (hdepth : depth' ≤ depth) (hready : Ready env counts ctx) :
    Follows (renderNode lib comp ctx depth') ctx.used (demands env.uiMinor comp)
      (Ready env counts') := by
  match comp with
  | ⟨kind,props,children,events,when_,then_,else_,items,key,template⟩ =>
    rw [validateComponent] at hvalid
    obtain ⟨⟨spec,counts₁⟩,henter,h⟩ := bind_eq_ok.mp hvalid
    obtain ⟨hdeep,hnodes,hspec,-,rfl⟩ := enterComponent_eq_ok henter
    obtain ⟨hmem,hname⟩ := find_eq_ok hspec
    obtain ⟨hspecIf,hspecLoop⟩ := kind_of_spec spec hmem
    obtain ⟨hentered,hroom⟩ := hready.enter (hdepth.trans hdeep) hnodes
    dsimp only at h
    cases hkind : spec.kind with
    | if_ =>
      rw [hkind, check_bind_eq_ok] at h
      obtain ⟨hif,h⟩ := h
      obtain ⟨counts₂,hthen,helse⟩ := bind_eq_ok.mp h
      obtain ⟨-,-,-,-,-,-,hsome⟩ := validateIf_eq_ok hif
      have hshape : shapeOf
          ⟨kind,props,children,events,when_,then_,else_,items,key,template⟩ = .branch :=
        (shapeOf_eq_branch_iff _).mpr (hname.symm.trans (hspecIf.mp hkind))
      rw [renderNode_branch hshape hentered, demands_branch hshape]
      exact renderIf_follows hready hroom hif le_rfl (renderBranch_ne_none hsome)
        (fun ctx hctx => renderBranch_follows hthen (by omega) hctx)
        (fun ctx hctx => renderBranch_follows helse (by omega) hctx)
    | forEach =>
      rw [hkind] at h
      obtain ⟨found,hforEach,htemplate⟩ := bind_eq_ok.mp h
      obtain ⟨-,-,-,-,-,-,-,hsome⟩ := validateForeach_eq_ok hforEach
      have hshape : shapeOf
          ⟨kind,props,children,events,when_,then_,else_,items,key,template⟩ = .loop :=
        (shapeOf_eq_loop_iff _).mpr (hname.symm.trans (hspecLoop.mp hkind))
      rw [renderNode_loop hshape hentered, demands_loop hshape]
      exact renderForeach_follows hready hroom hforEach le_rfl (renderBranch_ne_none hsome)
        fun ctx hctx => renderBranch_follows htemplate (by omega) hctx
    | element =>
      rw [hkind] at h
      obtain ⟨counts₂,helement,h⟩ := bind_eq_ok.mp h
      obtain ⟨counts₃,hchildren,hevents⟩ := bind_eq_ok.mp h
      obtain ⟨-,hprops,-⟩ := validateElement_eq_ok helement
      have hcounts₂ : counts₂.nodes = counts.nodes + 1 := by
        rw [(foldlM_validateProp_counts hprops).1]
        rfl
      have hcounts' : counts'.nodes = counts₃.nodes := by
        rw [(validateEvents_eq_ok hevents).2.1]
        rfl
      have hchildrenLe := validateChildren_nodes_le hchildren
      have hshape : shapeOf
            ⟨kind,props,children,events,when_,then_,else_,items,key,template⟩ = .leaf ∨
          shapeOf ⟨kind,props,children,events,when_,then_,else_,items,key,template⟩ = .container :=
        shapeOf_element hspec hkind
      rcases hshape with hshape | hshape
      · exact leafNode_follows hspec helement hshape hready hentered hroom (by omega)
      · refine containerNode_follows hspec helement hshape hentered ?_
        have hready₂ : Ready env counts₂ ctx.entered := hready.entered (by omega)
        exact (renderChildren_follows hchildren (by omega) hready₂).mono
          fun ctx' hready' => hready'.mono (by omega)

theorem renderChildren_follows {itemSchema : Option JsonSchema} {depth depth' : ℕ}
    {counts counts' : Counts} {children : List Component} {ctx : Ctx}
    (hvalid : validateChildren env stateSchema itemSchema depth counts children = .ok counts')
    (hdepth : depth' ≤ depth) (hready : Ready env counts ctx) :
    Follows (renderChildren lib children ctx depth') ctx.used (childDemands env.uiMinor children)
      (Ready env counts') := by
  match children with
  | [] =>
    obtain rfl := Except.ok.inj hvalid
    exact follows_ok hready
  | child :: children =>
    obtain ⟨counts₁,hchild,hrest⟩ := bind_eq_ok.mp hvalid
    rw [renderChildren, childDemands]
    refine (renderNode_follows hchild hdepth hready).bind fun first ctx₁ _ hready₁ => ?_
    exact (renderChildren_follows hrest hdepth hready₁).map fun _ _ => ⟨_,rfl⟩

theorem renderBranch_follows {itemSchema : Option JsonSchema} {depth depth' : ℕ}
    {counts counts' : Counts} {branch : Option Component} {ctx : Ctx}
    (hvalid : validateBranch env stateSchema itemSchema depth counts branch = .ok counts')
    (hdepth : depth' ≤ depth) (hready : Ready env counts ctx) :
    Follows (renderBranch lib branch ctx depth') ctx.used (branchDemands env.uiMinor branch)
      (Ready env counts') := by
  match branch with
  | none =>
    obtain rfl := Except.ok.inj hvalid
    exact follows_ok hready
  | some comp =>
    rw [renderBranch, branchDemands]
    exact (renderNode_follows hvalid hdepth hready).map fun _ _ => ⟨_,rfl⟩

end

end Trees

/-- The generation succeeds or stops at a component of the registry without an emitter. -/
def Renderable (lib : JsonLib) (doc : UiDocument) : Prop :=
  (∃ r, renderComponent lib doc = .ok r) ∨
    ∃ component detail, (∃ spec ∈ components, spec.name = component) ∧
      component ∉ mappedKinds ∧
      renderComponent lib doc = .error (.unsupportedComponent component detail)

/-- The renderer reads the same minor number as the validation. -/
theorem minorOf_eq {version : String} {uiMinor : ℕ} (h : checkApiVersion version = .ok uiMinor) :
    minorOf version = uiMinor := by
  unfold checkApiVersion at h
  unfold minorOf
  split at h
  · rename_i hsplit
    cases h
    rw [hsplit]
    rfl
  · rename_i minor rest hsplit
    rw [hsplit]
    cases hminor : Text.parseU64 minor with
    | none =>
      rw [hminor] at h
      cases h
    | some n =>
      rw [hminor] at h
      cases h
      simp [hminor]
  · cases h

section Documents

variable {lib : JsonLib} {doc : UiDocument}

theorem renderNode_root_follows (h : validateDocument lib.irBytes doc = .ok ()) :
    ∃ post, Follows (renderNode lib doc.root (startCtx doc) 0) (fun _ => none)
      (demands (minorOf doc.uiApiVersion) doc.root) post := by
  obtain ⟨uiMinor,counts,hversion,-,hroot⟩ := validateDocument_eq_ok h
  have hminor := minorOf_eq hversion
  have hready : Ready ⟨doc.events,uiMinor⟩ ⟨0,0,0⟩ (startCtx doc) := ⟨hminor,le_rfl,Nat.zero_le _⟩
  rw [hminor]
  exact ⟨_,renderNode_follows hroot (Nat.zero_le _) hready⟩

/-- An accepted document never exceeds a budget of the renderer. It is generated, or stops at a
component without an emitter, exactly when the demands in front of that component are met. -/
theorem accepted_renderable_iff (h : validateDocument lib.irBytes doc = .ok ()) :
    (∀ detail, renderComponent lib doc ≠ .error (.budgetExceeded detail)) ∧
    (Renderable lib doc ↔ Met (demands (minorOf doc.uiApiVersion) doc.root)) := by
  obtain ⟨post,hfollows⟩ := renderNode_root_follows h
  rw [← metFrom_empty, ← scan_ne_unmet_iff]
  unfold Renderable renderComponent
  rw [h, Checked.mapError_ok, Checked.ok_bind]
  unfold Follows at hfollows
  cases hnode : renderNode lib doc.root (startCtx doc) 0 with
  | ok out =>
    rw [hnode] at hfollows
    rw [hfollows.1]
    simp
  | error e =>
    rw [hnode] at hfollows
    obtain ⟨r,hscan,hrefuses⟩ := hfollows
    rw [hscan]
    cases r with
    | unmet => cases e <;> simp [Refuses] at hrefuses ⊢
    | unmapped =>
      cases e with
      | unsupportedComponent component detail =>
        constructor
        · intro budget hbudget
          cases hbudget
        · have hunmapped : (Except.error .unmapped : Except Refusal Used) ≠ .error .unmet := by simp
          exact ⟨fun _ => hunmapped,
            fun _ => Or.inr ⟨component,detail,hrefuses.1,hrefuses.2,rfl⟩⟩
      | invalidIr | budgetExceeded | bindingError | encodeError => exact hrefuses.elim

end Documents

def colouredDocument (color : String) : UiDocument where
  uiApiVersion := "1.0.0"
  state := ⟨.object [],.object [] [] false⟩
  events := OrdMap.empty
  root :=
    { plainComponent "Text" with
      props := OrdMap.ofList
        [("color",.literal (.string color)),("text",.literal (.string "ok"))] }

/-- The length of the document around the name of the colour. -/
def colouredLib : JsonLib :=
  ⟨fun doc => .ok (202 + ((literalStr doc.root "color").map Text.byteLen).getD 0),fun _ => "\"ok\""⟩

theorem coloured_renderable : Renderable colouredLib (colouredDocument "#d03030") := by
  have haccepted : validateDocument colouredLib.irBytes (colouredDocument "#d03030") = .ok () := by
    rfl
  have hdemands : demands (minorOf (colouredDocument "#d03030").uiApiVersion)
      (colouredDocument "#d03030").root = [.holds true,.holds true] := by
    rfl
  refine (accepted_renderable_iff haccepted).2.mpr ?_
  rw [hdemands]
  exact ⟨by decide,fun _ _ _ h => by simp [beforeUnmapped] at h⟩

/-- The validation admits any text as a colour. -/
theorem named_colour_refused :
    ¬∀ doc, validateDocument colouredLib.irBytes doc = .ok () → Renderable colouredLib doc := by
  intro h
  have haccepted : validateDocument colouredLib.irBytes (colouredDocument "red") = .ok () := by
    rfl
  have hrefused : renderComponent colouredLib (colouredDocument "red") =
      .error (.encodeError "颜色 `red` 不是受限 #RRGGBB[AA] 字面量") := by
    rfl
  rcases h _ haccepted with ⟨r,hr⟩ | ⟨component,detail,-,-,hr⟩
  · rw [hrefused] at hr
    cases hr
  · rw [hrefused] at hr
    cases hr

end Floatile.Renderer
