import Floatile.Renderer.Typed
import Floatile.UiSchema.DocumentSound

/-! The leaves of the generated source, and the controls among them. A click on a control calls
the callback of the event that it emits, without arguments. -/
namespace Floatile.Renderer

open Floatile.Lib
open Floatile.Lib.Checked (bind_eq_ok)
open Floatile.Core
open Floatile.UiSchema

mutual

/-- The leaves of a part of the source, each with its component. -/
def Markup.leaves : Markup → List (Component × List Piece)
  | .text _ => []
  | .guard _ => []
  | .leaf comp pieces => [(comp,pieces)]
  | .block _ content => leavesList content
  | .row content => leavesList content

def leavesList : List Markup → List (Component × List Piece)
  | [] => []
  | m :: rest => m.leaves ++ leavesList rest

end

@[simp] theorem leavesList_append (xs ys : List Markup) :
    leavesList (xs ++ ys) = leavesList xs ++ leavesList ys := by
  induction xs with
  | nil => rfl
  | cons x xs ih => rw [List.cons_append, leavesList, leavesList, ih, List.append_assoc]

theorem leavesList_layoutChildren (inner : List (List Markup)) :
    leavesList (layoutChildren inner) = leavesList inner.flatten := by
  induction inner with
  | nil => rfl
  | cons ms inner ih =>
    have hbreak : leavesList [Markup.text [.host "\n"]] = [] := rfl
    rw [layoutChildren, List.flatMap_cons, leavesList_append, leavesList_append, hbreak,
      List.append_nil, List.flatten_cons, leavesList_append, ← ih, layoutChildren]

theorem leaves_layoutBlock (comp : Component) (layout : String) (inner : List (List Markup)) :
    (layoutBlock comp layout inner).leaves = leavesList inner.flatten := by
  simp [layoutBlock, Markup.leaves, leavesList, leavesList_layoutChildren]

theorem leavesList_rows (rows : List (List (List Markup))) :
    leavesList (rows.map (fun row => Markup.row row.flatten)) =
      leavesList rows.flatten.flatten := by
  induction rows with
  | nil => rfl
  | cons row rows ih =>
    rw [List.map_cons, leavesList, Markup.leaves, ih, List.flatten_cons, List.flatten_append,
      leavesList_append]

theorem leaves_gridBlock (comp : Component) (inner : List (List Markup)) :
    (gridBlock comp inner).leaves = leavesList inner.flatten := by
  simp [gridBlock, Markup.leaves, leavesList, leavesList_rows, chunksFrom_flatten]

theorem leaves_loopBlock (comp : Component) (key : List Piece) (slot : BindingSlot)
    (inner : List Markup) : (loopBlock comp key slot inner).leaves = leavesList inner := by
  simp [loopBlock, Markup.leaves, leavesList]

/-- A Responsive emits the leaves of its children twice. -/
theorem Contents.mem_leaves {comp : Component} {inner : List (List Markup)}
    {markup : List Markup} (h : Contents comp inner markup) (leaf : Component × List Piece) :
    leaf ∈ leavesList markup ↔ leaf ∈ leavesList inner.flatten := by
  cases h with
  | layout layout hlayout hkind =>
    rw [leavesList, leavesList, leaves_layoutBlock, List.append_nil]
  | grid hkind => rw [leavesList, leavesList, leaves_gridBlock, List.append_nil]
  | responsive breakpoint hkind hbreakpoint =>
    simp [responsiveBlocks, leavesList, Markup.leaves, leaves_layoutBlock]

section Leaves

variable (lib : JsonLib)

/-- The leaf is generated from its component, and the events registered for it are kept. -/
def GeneratedLeaf (ctx : Ctx) (leaf : Component × List Piece) : Prop :=
  ∃ ctx₁ ctx₂, ctx₁.Valid ∧ leafPieces lib leaf.1 ctx₁ = .ok (leaf.2,ctx₂) ∧
    ∀ event slot, ctx₂.events.get event = some slot → ctx.events.get event = some slot

/-- The leaves of a part of the source are those of the components. -/
structure LeavesOf (ctx : Ctx) (comps : List Component) (markup : List Markup) : Prop where
  generated : ∀ leaf ∈ leavesList markup, GeneratedLeaf lib ctx leaf
  mem_iff : ∀ comp, (∃ pieces, (comp,pieces) ∈ leavesList markup) ↔
    comp ∈ comps ∧ shapeOf comp = .leaf

end Leaves

section LeavesOf

variable {lib : JsonLib} {ctx : Ctx} {comps comps' : List Component} {markup markup' : List Markup}

theorem LeavesOf.nil : LeavesOf lib ctx [] [] where
  generated leaf hleaf := by cases hleaf
  mem_iff comp := by simp [leavesList]

theorem LeavesOf.append (h : LeavesOf lib ctx comps markup)
    (h' : LeavesOf lib ctx comps' markup') :
    LeavesOf lib ctx (comps ++ comps') (markup ++ markup') where
  generated leaf hleaf := by
    rw [leavesList_append] at hleaf
    rcases List.mem_append.mp hleaf with hleaf | hleaf
    · exact h.generated leaf hleaf
    · exact h'.generated leaf hleaf
  mem_iff comp := by
    simp only [leavesList_append, List.mem_append, exists_or, h.mem_iff, h'.mem_iff, or_and_right]

theorem LeavesOf.later {ctx' : Ctx} {count : ℕ} {paths : List (String × BindingValueType)}
    (h : LeavesOf lib ctx comps markup) (hsteps : Steps ctx count paths ctx') :
    LeavesOf lib ctx' comps markup where
  generated leaf hleaf := by
    obtain ⟨ctx₁,ctx₂,hvalid,hpieces,hkept⟩ := h.generated leaf hleaf
    exact ⟨ctx₁,ctx₂,hvalid,hpieces,fun event slot hslot =>
      hsteps.events event slot (hkept event slot hslot)⟩
  mem_iff := h.mem_iff

/-- A component that is no leaf itself adds none. -/
theorem LeavesOf.below {comp : Component} (h : LeavesOf lib ctx comps markup)
    (hshape : shapeOf comp ≠ .leaf) : LeavesOf lib ctx (comp :: comps) markup where
  generated := h.generated
  mem_iff node := by
    rw [h.mem_iff, List.mem_cons]
    refine and_congr_left fun hleaf => ⟨Or.inr,fun hnode => hnode.resolve_left ?_⟩
    rintro rfl
    exact hshape hleaf

theorem LeavesOf.congr (h : LeavesOf lib ctx comps markup)
    (hleaves : ∀ leaf, leaf ∈ leavesList markup' ↔ leaf ∈ leavesList markup) :
    LeavesOf lib ctx comps markup' where
  generated leaf hleaf := h.generated leaf ((hleaves leaf).mp hleaf)
  mem_iff comp := by simp only [hleaves, h.mem_iff]

theorem Renders.leavesOf {depth : ℕ} {ctx' : Ctx} {out : List (List Markup)}
    (h : Renders lib depth comps ctx out ctx') (hctx : ctx.Valid) :
    LeavesOf lib ctx' (nodesChildren comps) out.flatten := by
  induction h with
  | nil => exact LeavesOf.nil
  | @leaf depth comp rest ctx ctx₁ ctx₂ pieces out hdepth hshape hleaf hrest ih =>
    have henter := Steps.enter hctx
    obtain ⟨hsteps,-⟩ := leafPieces_emits henter.valid hleaf
    have hone : LeavesOf lib ctx₁ [comp] [.leaf comp pieces] := by
      refine ⟨fun leaf hmem => ?_,fun node => ?_⟩
      · obtain rfl : leaf = (comp,pieces) := by simpa [leavesList, Markup.leaves] using hmem
        exact ⟨ctx.entered,ctx₁,henter.valid,hleaf,fun _ _ hslot => hslot⟩
      · simp only [leavesList, Markup.leaves, List.append_nil, List.mem_singleton, Prod.mk.injEq,
          exists_and_left, exists_eq, and_true]
        exact ⟨fun hnode => ⟨hnode,hnode ▸ hshape⟩,And.left⟩
    rw [nodesChildren, nodes_leaf hshape, List.flatten_cons]
    exact (hone.later (hrest.steps hsteps.valid)).append (ih hsteps.valid)
  | @container depth comp rest ctx ctx₁ ctx₂ inner out markup hdepth hshape hinner hcontents hrest
      ihinner ih =>
    have henter := Steps.enter hctx
    have hinnerSteps := hinner.steps henter.valid
    have hbelow : LeavesOf lib ctx₁ (comp :: nodesChildren comp.children) markup :=
      ((ihinner henter.valid).congr hcontents.mem_leaves).below (by simp [hshape])
    rw [nodesChildren, nodes_container hshape, List.flatten_cons]
    exact (hbelow.later (hrest.steps hinnerSteps.valid)).append (ih hinnerSteps.valid)
  | @thenOnly depth comp shown rest ctx ctx₁ ctx₂ ctx₃ bind slot markup out hdepth hshape hwhen
      hslot hthen helse hshown hrest ihshown ih =>
    obtain ⟨-,hsteps,-⟩ := bindingSlot_steps (Steps.enter hctx).valid hslot
    have hshownSteps := hshown.steps hsteps.valid
    have hinner : LeavesOf lib ctx₂ (nodesChildren [shown]) (.guard (.isTrue slot) :: markup) :=
      (ihshown hsteps.valid).congr (by simp [leavesList, Markup.leaves])
    have hbelow : LeavesOf lib ctx₂ (comp :: nodesChildren [shown]) _ :=
      hinner.below (by simp [hshape])
    rw [nodesChildren, nodes_branch hshape, hthen, helse, List.flatten_cons]
    simp only [nodesChildren, List.append_nil] at hbelow
    simp only [nodesBranch, List.append_nil]
    exact (hbelow.later (hrest.steps hshownSteps.valid)).append (ih hshownSteps.valid)
  | @thenElse depth comp shown hidden rest ctx ctx₁ ctx₂ ctx₃ ctx₄ bind slot markup markup' out
      hdepth hshape hwhen hslot hthen helse hshown hhidden hrest ihshown ihhidden ih =>
    obtain ⟨-,hsteps,-⟩ := bindingSlot_steps (Steps.enter hctx).valid hslot
    have hshownSteps := hshown.steps hsteps.valid
    have hhiddenSteps := hhidden.steps hshownSteps.valid
    have hboth := ((ihshown hsteps.valid).later hhiddenSteps).append (ihhidden hshownSteps.valid)
    have hinner : LeavesOf lib ctx₃ (nodesChildren [shown] ++ nodesChildren [hidden])
        (.guard (.isTrue slot) :: markup ++ .guard (.isFalse slot) :: markup') :=
      hboth.congr (by simp [leavesList, Markup.leaves])
    have hbelow : LeavesOf lib ctx₃ (comp :: (nodesChildren [shown] ++ nodesChildren [hidden])) _ :=
      hinner.below (by simp [hshape])
    rw [nodesChildren, nodes_branch hshape, hthen, helse, List.flatten_cons]
    simp only [nodesChildren, List.append_nil] at hbelow
    simp only [nodesBranch]
    exact (hbelow.later (hrest.steps hhiddenSteps.valid)).append (ih hhiddenSteps.valid)
  | @loop depth comp template rest ctx ctx₁ ctx₂ ctx₃ bind slot key markup out hdepth hshape hitems
      hslot htemplate hinner hkey hrest ihinner ih =>
    obtain ⟨-,hsteps,-⟩ := bindingSlot_steps (Steps.enter hctx).valid hslot
    have hinnerSteps := hinner.steps hsteps.valid
    have hinner : LeavesOf lib ctx₂ (nodesChildren [template]) [loopBlock comp key slot markup] :=
      (ihinner hsteps.valid).congr (by simp [leavesList, leaves_loopBlock])
    have hbelow : LeavesOf lib ctx₂ (comp :: nodesChildren [template]) _ :=
      hinner.below (by simp [hshape])
    rw [nodesChildren, nodes_loop hshape, htemplate, List.flatten_cons]
    simp only [nodesChildren, List.append_nil] at hbelow
    simp only [nodesBranch]
    exact (hbelow.later (hrest.steps hinnerSteps.valid)).append (ih hinnerSteps.valid)

end LeavesOf

/-- The input event of the components that are clicked. -/
def inputEventOf (kind : String) : Option String :=
  if kind = "Button" then some "activate" else if kind = "Toggle" then some "toggle" else none

/-- The element ends with a handler that calls the callback without arguments. -/
def ClickCalls (pieces : List Piece) (slot : EventSlot) : Prop :=
  ∃ before text, pieces = before ++ [.host (text ++ "        clicked => \x7b root."),
    .callback slot,.host "(); \x7d\n    \x7d\n"]

/-- An element has one such handler. -/
theorem ClickCalls.unique {pieces : List Piece} {slot slot' : EventSlot}
    (h : ClickCalls pieces slot) (h' : ClickCalls pieces slot') : slot = slot' := by
  obtain ⟨before,text,rfl⟩ := h
  obtain ⟨before',text',heq⟩ := h'
  have hlast := List.append_inj_right' heq rfl
  simp only [List.cons.injEq, Piece.callback.injEq] at hlast
  exact hlast.2.1

/-- A button or a toggle of a document whose input event is bound. -/
structure Control (doc : UiDocument) where
  comp : Component
  input : String
  emitted : EmittedEvent
  mem : comp ∈ nodes doc.root
  kind : inputEventOf comp.kind = some input
  bound : comp.events.get input = some emitted

section Controls

variable {lib : JsonLib} {comp : Component} {ctx ctx' : Ctx} {pieces : List Piece} {input : String}

theorem shapeOf_control (h : inputEventOf comp.kind = some input) : shapeOf comp = .leaf := by
  unfold inputEventOf at h
  split_ifs at h with hbutton htoggle
  · simp [shapeOf, hbutton]
  · simp [shapeOf, htoggle]

/-- What the handler of a control calls: the callback that is registered for its event. -/
def CallsFor (comp : Component) (input : String) (pieces : List Piece) (ctx : Ctx) : Prop :=
  ∃ slot emitted, ClickCalls pieces slot ∧ comp.events.get input = some emitted ∧
    slot.event = emitted.emit ∧ ctx.events.get emitted.emit = some slot

theorem renderButton_calls (hctx : ctx.Valid) (h : renderButton lib comp ctx = .ok (pieces,ctx')) :
    CallsFor comp "activate" pieces ctx' := by
  obtain ⟨⟨label,ctx₁⟩,hlabel,h⟩ := bind_eq_ok.mp h
  obtain ⟨⟨callback,ctx₂⟩,hcallback,h⟩ := bind_eq_ok.mp h
  cases h
  obtain ⟨hsteps,-⟩ := renderStringProp_emits hctx hlabel
  obtain ⟨-,hget,emitted,hemitted,hevent⟩ := eventCallback_steps hsteps.valid hcallback
  exact ⟨callback,emitted,⟨_,_,rfl⟩,hemitted,hevent,hevent ▸ hget⟩

theorem renderToggle_calls (hctx : ctx.Valid) (h : renderToggle lib comp ctx = .ok (pieces,ctx')) :
    CallsFor comp "toggle" pieces ctx' := by
  obtain ⟨⟨checked,ctx₁⟩,hchecked,h⟩ := bind_eq_ok.mp h
  obtain ⟨⟨label,ctx₂⟩,hlabel,h⟩ := bind_eq_ok.mp h
  obtain ⟨⟨callback,ctx₃⟩,hcallback,h⟩ := bind_eq_ok.mp h
  cases h
  obtain ⟨hsteps,-⟩ := toggleChecked_emits hctx hchecked
  obtain ⟨hsteps',-⟩ := renderAccessibilityLabel_emits hsteps.valid hlabel
  obtain ⟨-,hget,emitted,hemitted,hevent⟩ := eventCallback_steps hsteps'.valid hcallback
  exact ⟨callback,emitted,⟨_,";\n        \x7d\n",rfl⟩,hemitted,hevent,hevent ▸ hget⟩

theorem leafPieces_calls (hctx : ctx.Valid) (hinput : inputEventOf comp.kind = some input)
    (h : leafPieces lib comp ctx = .ok (pieces,ctx')) : CallsFor comp input pieces ctx' := by
  have hleaf : renderLeaf lib comp ctx = .ok (pieces,ctx') := by
    unfold leafPieces at h
    have hlist : comp.kind ≠ "List" := by
      intro hkind
      rw [hkind] at hinput
      cases hinput
    split at h
    · rwa [if_neg hlist] at h
    · exact h
  unfold inputEventOf at hinput
  split_ifs at hinput with hbutton htoggle
  · cases hinput
    rw [renderLeaf, hbutton] at hleaf
    exact renderButton_calls hctx (by simpa using hleaf)
  · cases hinput
    rw [renderLeaf, htoggle] at hleaf
    exact renderToggle_calls hctx (by simpa using hleaf)

end Controls

section Documents

variable {lib : JsonLib} {doc : UiDocument} {r : RenderedComponent} {body : List Markup} {ctx : Ctx}

theorem Rendering.leavesOf (h : Rendering lib doc r body ctx) :
    LeavesOf lib ctx (nodes doc.root) r.markup := by
  have hleaves := h.renders.leavesOf (startCtx_valid doc)
  refine (show LeavesOf lib ctx (nodes doc.root) body by
    simpa [nodesChildren] using hleaves).congr fun leaf => ?_
  rw [h.markup]
  simp [wrapComponent, leavesList, Markup.leaves]

/-- A control is in the source, and clicks on it call the callback of its event. -/
theorem Rendering.control_calls (h : Rendering lib doc r body ctx) (c : Control doc) :
    (∃ pieces, (c.comp,pieces) ∈ leavesList r.markup) ∧
      ∃ slot ∈ r.events, slot.event = c.emitted.emit ∧
        ∀ pieces, (c.comp,pieces) ∈ leavesList r.markup → ClickCalls pieces slot := by
  have hleaves := h.leavesOf
  have hleaf := (hleaves.mem_iff c.comp).mpr ⟨c.mem,shapeOf_control c.kind⟩
  have hcalls : ∀ pieces, (c.comp,pieces) ∈ leavesList r.markup → ∃ slot, ClickCalls pieces slot ∧
      slot.event = c.emitted.emit ∧ ctx.events.get c.emitted.emit = some slot := by
    intro pieces hpieces
    obtain ⟨ctx₁,ctx₂,hvalid,hgenerated,hkept⟩ := hleaves.generated _ hpieces
    obtain ⟨slot,emitted,hcalls,hbound,hevent,hget⟩ :=
      leafPieces_calls hvalid c.kind hgenerated
    obtain rfl := Option.some.inj (hbound.symm.trans c.bound)
    exact ⟨slot,hcalls,hevent,hkept _ _ hget⟩
  refine ⟨hleaf,?_⟩
  obtain ⟨pieces,hpieces⟩ := hleaf
  obtain ⟨slot,-,hevent,hget⟩ := hcalls pieces hpieces
  refine ⟨slot,?_,hevent,fun pieces' hpieces' => ?_⟩
  · rw [h.events]
    exact List.mem_map.mpr ⟨_,(OrdMap.mem_entries_iff _ _ _).mpr hget,rfl⟩
  · obtain ⟨slot',hcalls',-,hget'⟩ := hcalls pieces' hpieces'
    obtain rfl := Option.some.inj (hget.symm.trans hget')
    exact hcalls'

/-- Two events do not share a callback. -/
theorem Rendering.callback_injective (h : Rendering lib doc r body ctx) {slot slot' : EventSlot}
    (hslot : slot ∈ r.events) (hslot' : slot' ∈ r.events) (heq : slot.callback = slot'.callback) :
    slot = slot' := by
  rw [h.events] at hslot hslot'
  obtain ⟨⟨event,_⟩,hmem,rfl⟩ := List.mem_map.mp hslot
  obtain ⟨⟨event',_⟩,hmem',rfl⟩ := List.mem_map.mp hslot'
  have hget := (OrdMap.mem_entries_iff _ _ _).mp hmem
  have hget' := (OrdMap.mem_entries_iff _ _ _).mp hmem'
  obtain rfl := h.steps.valid.distinct _ _ _ _ hget hget' heq
  exact Option.some.inj (hget.symm.trans hget')

/-- The payload of a control meets the schema that is declared for its event. -/
theorem Rendering.emitted_meets (h : Rendering lib doc r body ctx) (c : Control doc) :
    ∃ declared, doc.events.get c.emitted.emit = some declared ∧
      Meets declared.payload c.emitted.payload := by
  obtain ⟨uiMinor,hchecked⟩ := h.checked
  obtain ⟨item,hnode,-⟩ := hchecked c.comp c.mem
  have hkind := c.kind
  cases hnode with
  | if_ hif =>
    rw [hif] at hkind
    cases hkind
  | forEach hforEach =>
    rw [hforEach] at hkind
    cases hkind
  | element spec counts counts₁ counts₂ counts₃ hspec hkind helement hevents =>
    have hmem := (OrdMap.mem_entries_iff _ _ _).mpr c.bound
    exact validateEvent_meets ((validateEvents_eq_ok hevents).1 _ hmem)

end Documents

end Floatile.Renderer
