import Floatile.Renderer.Names

/-! What the generated source shows for given values of its conditions, next to what the document
selects. A component with several statements in its source is guarded only up to the first. -/
namespace Floatile.Renderer

open Floatile.Lib
open Floatile.Core
open Floatile.UiSchema

/-- The boolean paths of the state that are true, and whether the window is narrower than a
breakpoint. -/
structure Valuation where
  on : String → Bool
  below : Float → Bool

/-- A condition as the document means it: by the path that its property stands for. -/
def Valuation.holds (ρ : Valuation) : Condition → Bool
  | .isTrue slot => ρ.on slot.path
  | .isFalse slot => !ρ.on slot.path
  | .below breakpoint => ρ.below breakpoint
  | .atLeast breakpoint => !ρ.below breakpoint

/-- The boolean properties of the window, by their names, and its width. -/
structure WindowValues where
  prop : String → Bool
  below : Float → Bool

/-- A condition as the source reads it: by the name of its property. -/
def WindowValues.holds (w : WindowValues) : Condition → Bool
  | .isTrue slot => w.prop slot.prop
  | .isFalse slot => !w.prop slot.prop
  | .below breakpoint => w.below breakpoint
  | .atLeast breakpoint => !w.below breakpoint

section Shown

variable (holds : Condition → Bool)

/-- A guard waits for the element that follows it, other texts leave it waiting. -/
def Markup.opened (opened : Bool) : Markup → Bool
  | .text _ => opened
  | .guard condition => opened && holds condition
  | .leaf _ _ => true
  | .block _ _ => true
  | .row _ => true

mutual

/-- The leaves of an element that is shown. -/
def Markup.shown : Markup → List Component
  | .text _ => []
  | .guard _ => []
  | .leaf comp _ => [comp]
  | .block _ content => shownFrom true content
  | .row content => shownFrom true content

/-- The leaves that a part of the source shows, when the guards in front of it are as given. -/
def shownFrom (opened : Bool) : List Markup → List Component
  | [] => []
  | m :: rest => (if opened then m.shown else []) ++ shownFrom (m.opened holds opened) rest

end

end Shown

/-- The window after the host has set one property after another to the value of its path. -/
def RenderedComponent.window (r : RenderedComponent) (ρ : Valuation) : WindowValues where
  prop name := r.bindings.foldl
    (fun value slot => if slot.prop = name then ρ.on slot.path else value) false
  below := ρ.below

/-- The leaves that the source shows for the values of the paths. A component declares a property
once, so a source with two declarations of one name shows nothing at all. -/
def RenderedComponent.shows (r : RenderedComponent) (ρ : Valuation) : Option (List Component) :=
  if (declaredNames r.markup).Nodup then some (shownFrom (r.window ρ).holds true r.markup)
  else none

/-- The branch that an If chooses. -/
def chosen (ρ : Valuation) (comp : Component) : Bool :=
  match comp.when_ with
  | some (.state bind) => ρ.on bind
  | _ => false

/-- The form that a Responsive takes. -/
def narrow (ρ : Valuation) (comp : Component) : Bool :=
  match literalF64 comp "breakpoint" with
  | some breakpoint => ρ.below breakpoint
  | none => false

mutual

/-- The leaves that the document selects: those of the chosen branch of every If, and those of a
Responsive once, in the form for the width. -/
def selected (ρ : Valuation) (comp : Component) : List Component :=
  match comp with
  | ⟨_,_,children,_,_,then_,else_,_,_,template⟩ =>
    match shapeOf comp with
    | .leaf => [comp]
    | .container => selectedChildren ρ children
    | .branch => if chosen ρ comp then selectedBranch ρ then_ else selectedBranch ρ else_
    | .loop => selectedBranch ρ template

def selectedChildren (ρ : Valuation) : List Component → List Component
  | [] => []
  | child :: children => selected ρ child ++ selectedChildren ρ children

def selectedBranch (ρ : Valuation) : Option Component → List Component
  | none => []
  | some comp => selected ρ comp

end

/-- A condition reaches the first of several statements. -/
def reach {α : Type} (condition : Bool) : List (List α) → List (List α)
  | [] => []
  | first :: rest => (if condition then first else []) :: rest

mutual

/-- The statements that a component stands for, each with the leaves it shows. A Responsive has
one for each form; an If with an else has those of both branches. -/
def statements (ρ : Valuation) (comp : Component) : List (List Component) :=
  match comp with
  | ⟨_,_,children,_,_,then_,else_,_,_,template⟩ =>
    match shapeOf comp with
    | .leaf => [[comp]]
    | .container =>
      if comp.kind = "Responsive" then
        reach (narrow ρ comp) [statementsChildren ρ children] ++
          reach (!narrow ρ comp) [statementsChildren ρ children]
      else [statementsChildren ρ children]
    | .branch => reach (chosen ρ comp) (statementsBranch ρ then_) ++
        reach (!chosen ρ comp) (statementsBranch ρ else_)
    | .loop => [(statementsBranch ρ template).flatten]

def statementsChildren (ρ : Valuation) : List Component → List Component
  | [] => []
  | child :: children => (statements ρ child).flatten ++ statementsChildren ρ children

def statementsBranch (ρ : Valuation) : Option Component → List (List Component)
  | none => []
  | some comp => statements ρ comp

end

mutual

/-- At every If on the way, the branch that is not chosen shows nothing after its first
statement. -/
def Contained (ρ : Valuation) (comp : Component) : Prop :=
  match comp with
  | ⟨_,_,children,_,_,then_,else_,_,_,template⟩ =>
    match shapeOf comp with
    | .leaf => True
    | .container => ContainedChildren ρ children
    | .branch =>
      if chosen ρ comp then
        ContainedBranch ρ then_ ∧ (statementsBranch ρ else_).tail.flatten = []
      else (statementsBranch ρ then_).tail.flatten = [] ∧ ContainedBranch ρ else_
    | .loop => ContainedBranch ρ template

def ContainedChildren (ρ : Valuation) : List Component → Prop
  | [] => True
  | child :: children => Contained ρ child ∧ ContainedChildren ρ children

def ContainedBranch (ρ : Valuation) : Option Component → Prop
  | none => True
  | some comp => Contained ρ comp

end

section Reach

variable {α : Type}

theorem reach_true (sts : List (List α)) : reach true sts = sts := by
  cases sts <;> rfl

theorem reach_false_flatten (sts : List (List α)) :
    (reach false sts).flatten = sts.tail.flatten := by
  cases sts <;> rfl

theorem reach_reach (a b : Bool) (sts : List (List α)) :
    reach a (reach b sts) = reach (a && b) sts := by
  cases sts <;> cases a <;> cases b <;> rfl

theorem reach_append {a : Bool} {sts : List (List α)} (hsts : sts ≠ []) (sts' : List (List α)) :
    reach a (sts ++ sts') = reach a sts ++ sts' := by
  cases sts with
  | nil => exact absurd rfl hsts
  | cons first rest => rfl

theorem reach_ne_nil {a : Bool} {sts : List (List α)} (hsts : sts ≠ []) : reach a sts ≠ [] := by
  cases sts with
  | nil => exact absurd rfl hsts
  | cons first rest => exact List.cons_ne_nil _ _

end Reach

section Shapes

variable (ρ : Valuation) {comp : Component}

theorem selected_eq (comp : Component) : selected ρ comp =
    match shapeOf comp with
    | .leaf => [comp]
    | .container => selectedChildren ρ comp.children
    | .branch =>
      if chosen ρ comp then selectedBranch ρ comp.then_ else selectedBranch ρ comp.else_
    | .loop => selectedBranch ρ comp.template := by
  cases comp
  rw [selected]

theorem statements_eq (comp : Component) : statements ρ comp =
    match shapeOf comp with
    | .leaf => [[comp]]
    | .container =>
      if comp.kind = "Responsive" then
        reach (narrow ρ comp) [statementsChildren ρ comp.children] ++
          reach (!narrow ρ comp) [statementsChildren ρ comp.children]
      else [statementsChildren ρ comp.children]
    | .branch => reach (chosen ρ comp) (statementsBranch ρ comp.then_) ++
        reach (!chosen ρ comp) (statementsBranch ρ comp.else_)
    | .loop => [(statementsBranch ρ comp.template).flatten] := by
  cases comp
  rw [statements]

theorem contained_eq (comp : Component) : Contained ρ comp =
    match shapeOf comp with
    | .leaf => True
    | .container => ContainedChildren ρ comp.children
    | .branch =>
      if chosen ρ comp then
        ContainedBranch ρ comp.then_ ∧ (statementsBranch ρ comp.else_).tail.flatten = []
      else (statementsBranch ρ comp.then_).tail.flatten = [] ∧ ContainedBranch ρ comp.else_
    | .loop => ContainedBranch ρ comp.template := by
  cases comp
  rw [Contained]

theorem selected_leaf (h : shapeOf comp = .leaf) : selected ρ comp = [comp] := by
  rw [selected_eq, h]

theorem selected_container (h : shapeOf comp = .container) :
    selected ρ comp = selectedChildren ρ comp.children := by
  rw [selected_eq, h]

theorem selected_branch (h : shapeOf comp = .branch) : selected ρ comp =
    if chosen ρ comp then selectedBranch ρ comp.then_ else selectedBranch ρ comp.else_ := by
  rw [selected_eq, h]

theorem selected_loop (h : shapeOf comp = .loop) :
    selected ρ comp = selectedBranch ρ comp.template := by
  rw [selected_eq, h]

theorem statements_leaf (h : shapeOf comp = .leaf) : statements ρ comp = [[comp]] := by
  rw [statements_eq, h]

theorem statements_container (h : shapeOf comp = .container) (hkind : comp.kind ≠ "Responsive") :
    statements ρ comp = [statementsChildren ρ comp.children] := by
  rw [statements_eq, h]
  exact if_neg hkind

theorem statements_responsive (h : shapeOf comp = .container) (hkind : comp.kind = "Responsive") :
    statements ρ comp = reach (narrow ρ comp) [statementsChildren ρ comp.children] ++
      reach (!narrow ρ comp) [statementsChildren ρ comp.children] := by
  rw [statements_eq, h]
  exact if_pos hkind

theorem statements_branch (h : shapeOf comp = .branch) : statements ρ comp =
    reach (chosen ρ comp) (statementsBranch ρ comp.then_) ++
      reach (!chosen ρ comp) (statementsBranch ρ comp.else_) := by
  rw [statements_eq, h]

theorem statements_loop (h : shapeOf comp = .loop) :
    statements ρ comp = [(statementsBranch ρ comp.template).flatten] := by
  rw [statements_eq, h]

theorem contained_leaf (h : shapeOf comp = .leaf) : Contained ρ comp := by
  rw [contained_eq, h]
  trivial

theorem contained_container (h : shapeOf comp = .container) :
    Contained ρ comp = ContainedChildren ρ comp.children := by
  rw [contained_eq, h]

theorem contained_branch (h : shapeOf comp = .branch) : Contained ρ comp =
    if chosen ρ comp then
      ContainedBranch ρ comp.then_ ∧ (statementsBranch ρ comp.else_).tail.flatten = []
    else (statementsBranch ρ comp.then_).tail.flatten = [] ∧ ContainedBranch ρ comp.else_ := by
  rw [contained_eq, h]

theorem contained_loop (h : shapeOf comp = .loop) :
    Contained ρ comp = ContainedBranch ρ comp.template := by
  rw [contained_eq, h]

end Shapes

section Shown

variable {holds : Condition → Bool}

@[simp] theorem shownFrom_nil (opened : Bool) : shownFrom holds opened [] = [] := rfl

theorem shownFrom_cons (opened : Bool) (m : Markup) (rest : List Markup) :
    shownFrom holds opened (m :: rest) =
      (if opened then m.shown holds else []) ++ shownFrom holds (m.opened holds opened) rest := rfl

theorem shownFrom_text (opened : Bool) (pieces : List Piece) (rest : List Markup) :
    shownFrom holds opened (.text pieces :: rest) = shownFrom holds opened rest := by
  rw [shownFrom_cons, Markup.opened]
  cases opened <;> rfl

end Shown

section Source

variable {ρ : Valuation}

theorem statementsChildren_cons (comp : Component) (comps : List Component) :
    statementsChildren ρ (comp :: comps) =
      (statements ρ comp).flatten ++ statementsChildren ρ comps := rfl

/-- A part of the source is a sequence of statements with these leaves. -/
def Stated (ρ : Valuation) (markup : List Markup) (sts : List (List Component)) : Prop :=
  sts ≠ [] ∧ ∀ opened rest,
    shownFrom ρ.holds opened (markup ++ rest) = (reach opened sts).flatten ++ shownFrom ρ.holds true rest

theorem Stated.element {m : Markup} (h : ∀ opened, m.opened ρ.holds opened = true) :
    Stated ρ [m] [m.shown ρ.holds] := by
  refine ⟨List.cons_ne_nil _ _,fun opened rest => ?_⟩
  rw [List.singleton_append, shownFrom_cons, h]
  simp [reach]

theorem Stated.guard {condition : Condition} {markup : List Markup}
    {sts : List (List Component)} (h : Stated ρ markup sts) :
    Stated ρ (.guard condition :: markup) (reach (ρ.holds condition) sts) := by
  refine ⟨reach_ne_nil h.1,fun opened rest => ?_⟩
  have hguard : (if opened then (Markup.guard condition).shown ρ.holds else []) = [] := by
    cases opened <;> rfl
  rw [List.cons_append, shownFrom_cons, hguard, List.nil_append, Markup.opened, h.2, reach_reach]

theorem Stated.append {markup markup' : List Markup} {sts sts' : List (List Component)}
    (h : Stated ρ markup sts) (h' : Stated ρ markup' sts') :
    Stated ρ (markup ++ markup') (sts ++ sts') := by
  refine ⟨List.append_ne_nil_of_left_ne_nil h.1 _,fun opened rest => ?_⟩
  rw [List.append_assoc, h.2, h'.2, reach_true, reach_append h.1, List.flatten_append,
    List.append_assoc]

/-- The children of a component with the source of each. -/
def StatedAll (ρ : Valuation) (comps : List Component) (out : List (List Markup)) : Prop :=
  List.Forall₂ (fun comp markup => Stated ρ markup (statements ρ comp)) comps out

theorem StatedAll.flatten {comps : List Component} {out : List (List Markup)}
    (h : StatedAll ρ comps out) (rest : List Markup) :
    shownFrom ρ.holds true (out.flatten ++ rest) =
      statementsChildren ρ comps ++ shownFrom ρ.holds true rest := by
  induction h with
  | nil => rfl
  | cons hchild _ ih =>
    rw [List.flatten_cons, List.append_assoc, hchild.2, ih, reach_true, statementsChildren_cons,
      List.append_assoc]

theorem StatedAll.layoutChildren {comps : List Component} {out : List (List Markup)}
    (h : StatedAll ρ comps out) (rest : List Markup) :
    shownFrom ρ.holds true (layoutChildren out ++ rest) =
      statementsChildren ρ comps ++ shownFrom ρ.holds true rest := by
  induction h with
  | nil => rfl
  | cons hchild _ ih =>
    rw [Renderer.layoutChildren, List.flatMap_cons, List.append_assoc, List.append_assoc, hchild.2,
      List.singleton_append, shownFrom_text, ← Renderer.layoutChildren, ih, reach_true,
      statementsChildren_cons, List.append_assoc]

theorem StatedAll.layoutBlock {comp : Component} {comps : List Component} {layout : String}
    {out : List (List Markup)} (h : StatedAll ρ comps out) :
    Stated ρ [layoutBlock comp layout out] [statementsChildren ρ comps] := by
  have hshown : (Renderer.layoutBlock comp layout out).shown ρ.holds = statementsChildren ρ comps := by
    rw [Renderer.layoutBlock, Markup.shown, List.append_assoc, List.singleton_append,
      shownFrom_text, h.layoutChildren, shownFrom_text]
    exact List.append_nil _
  exact hshown ▸ Stated.element (fun _ => rfl)

theorem statementsChildren_append (comps comps' : List Component) :
    statementsChildren ρ (comps ++ comps') =
      statementsChildren ρ comps ++ statementsChildren ρ comps' := by
  induction comps with
  | nil => rfl
  | cons comp comps ih =>
    rw [List.cons_append, statementsChildren_cons, statementsChildren_cons, ih, List.append_assoc]

theorem StatedAll.rows {rows : List (List (List Markup))} {comps : List Component}
    (h : StatedAll ρ comps rows.flatten) (rest : List Markup) :
    shownFrom ρ.holds true (rows.map (fun row => Markup.row row.flatten) ++ rest) =
      statementsChildren ρ comps ++ shownFrom ρ.holds true rest := by
  induction rows generalizing comps with
  | nil =>
    obtain rfl := List.forall₂_nil_right_iff.mp h
    rfl
  | cons row rows ih =>
    rw [List.flatten_cons] at h
    have hrow : StatedAll ρ (comps.take row.length) row := List.forall₂_take_append _ _ _ h
    have hrows : StatedAll ρ (comps.drop row.length) rows.flatten :=
      List.forall₂_drop_append _ _ _ h
    have hcells : shownFrom ρ.holds true row.flatten = statementsChildren ρ (comps.take row.length) := by
      have hcells := hrow.flatten []
      rwa [List.append_nil, shownFrom_nil, List.append_nil] at hcells
    rw [List.map_cons, List.cons_append, shownFrom_cons, if_pos rfl, Markup.shown, Markup.opened,
      hcells, ih hrows, ← List.append_assoc, ← statementsChildren_append, List.take_append_drop]

theorem StatedAll.gridBlock {comp : Component} {comps : List Component}
    {out : List (List Markup)} (h : StatedAll ρ comps out) :
    Stated ρ [gridBlock comp out] [statementsChildren ρ comps] := by
  have hrows : StatedAll ρ comps (chunksFrom (gridColumns comp) [] out).flatten := by
    rw [chunksFrom_flatten]
    exact h
  have hshown : (Renderer.gridBlock comp out).shown ρ.holds = statementsChildren ρ comps := by
    rw [Renderer.gridBlock, Markup.shown, List.append_assoc, List.singleton_append,
      shownFrom_text, hrows.rows, shownFrom_text]
    exact List.append_nil _
  exact hshown ▸ Stated.element (fun _ => rfl)

theorem Stated.loopBlock {comp : Component} {key : List Piece} {slot : BindingSlot}
    {markup : List Markup} {sts : List (List Component)} (h : Stated ρ markup sts) :
    Stated ρ [loopBlock comp key slot markup] [sts.flatten] := by
  have hshown : (Renderer.loopBlock comp key slot markup).shown ρ.holds = sts.flatten := by
    rw [Renderer.loopBlock, Markup.shown, List.append_assoc, List.singleton_append,
      shownFrom_text, h.2, shownFrom_text, reach_true]
    exact List.append_nil _
  exact hshown ▸ Stated.element (fun _ => rfl)

theorem Contents.stated {comp : Component} {out : List (List Markup)} {markup : List Markup}
    (hshape : shapeOf comp = .container) (h : Contents comp out markup)
    (hout : StatedAll ρ comp.children out) : Stated ρ markup (statements ρ comp) := by
  cases h with
  | layout layout hlayout hkind =>
    rw [statements_container ρ hshape hkind]
    exact hout.layoutBlock
  | grid hkind =>
    rw [statements_container ρ hshape hkind]
    exact hout.gridBlock
  | responsive breakpoint hkind hbreakpoint =>
    have hnarrow : ρ.below breakpoint = narrow ρ comp := by rw [narrow, hbreakpoint]
    rw [statements_responsive ρ hshape hkind, ← hnarrow]
    exact hout.layoutBlock.guard.append hout.layoutBlock.guard

variable {lib : JsonLib}

/-- Every component is rendered as its statements. -/
theorem Renders.stated {depth : ℕ} {comps : List Component} {ctx ctx' : Ctx}
    {out : List (List Markup)} (h : Renders lib depth comps ctx out ctx') (hctx : ctx.Valid) :
    StatedAll ρ comps out := by
  induction h with
  | nil => exact .nil
  | @leaf depth comp rest ctx ctx₁ ctx₂ pieces out hdepth hshape hleaf hrest ih =>
    obtain ⟨hsteps,-⟩ := leafPieces_emits (Steps.enter hctx).valid hleaf
    refine .cons ?_ (ih hsteps.valid)
    rw [statements_leaf ρ hshape]
    exact Stated.element (m := .leaf comp pieces) (fun _ => rfl)
  | container hdepth hshape hinner hcontents _ ihinner ih =>
    have henter := Steps.enter hctx
    have hinnerSteps := hinner.steps henter.valid
    exact .cons (hcontents.stated hshape (ihinner henter.valid)) (ih hinnerSteps.valid)
  | @thenOnly depth comp shown rest ctx ctx₁ ctx₂ ctx₃ bind slot markup out hdepth hshape hwhen hslot
      hthen helse hshown hrest ihshown ih =>
    obtain ⟨rfl,hsteps,-⟩ := bindingSlot_steps (Steps.enter hctx).valid hslot
    have hchosen : chosen ρ comp = ρ.on bind := by rw [chosen, hwhen]
    refine .cons ?_ (ih (hshown.steps hsteps.valid).valid)
    obtain ⟨hstated,-⟩ := List.forall₂_cons.mp (ihshown hsteps.valid)
    have hnone : reach (!ρ.on bind) (statementsBranch ρ none) = [] := rfl
    rw [statements_branch ρ hshape, hchosen, hthen, helse, hnone, List.append_nil]
    exact hstated.guard
  | @thenElse depth comp shown hidden rest ctx ctx₁ ctx₂ ctx₃ ctx₄ bind slot markup markup' out hdepth
      hshape hwhen hslot hthen helse hshown hhidden hrest ihshown ihhidden ih =>
    obtain ⟨rfl,hsteps,-⟩ := bindingSlot_steps (Steps.enter hctx).valid hslot
    have hchosen : chosen ρ comp = ρ.on bind := by rw [chosen, hwhen]
    have hshownSteps := hshown.steps hsteps.valid
    refine .cons ?_ (ih (hhidden.steps hshownSteps.valid).valid)
    obtain ⟨hstated,-⟩ := List.forall₂_cons.mp (ihshown hsteps.valid)
    obtain ⟨hstated',-⟩ := List.forall₂_cons.mp (ihhidden hshownSteps.valid)
    rw [statements_branch ρ hshape, hchosen, hthen, helse]
    exact hstated.guard.append hstated'.guard
  | @loop depth comp template rest ctx ctx₁ ctx₂ ctx₃ bind slot key markup out hdepth hshape hitems
      hslot htemplate hinner hkey hrest ihinner ih =>
    obtain ⟨-,hsteps,-⟩ := bindingSlot_steps (Steps.enter hctx).valid hslot
    refine .cons ?_ (ih (hinner.steps hsteps.valid).valid)
    obtain ⟨hstated,-⟩ := List.forall₂_cons.mp (ihinner hsteps.valid)
    rw [statements_loop ρ hshape, htemplate]
    exact hstated.loopBlock

end Source

section Selection

theorem append_eq_append_iff_of_sublist {α : Type} {xs xs' ys ys' : List α} (hxs : xs.Sublist xs')
    (hys : ys.Sublist ys') : xs ++ ys = xs' ++ ys' ↔ xs = xs' ∧ ys = ys' := by
  constructor
  · intro h
    have hlength := congrArg List.length h
    rw [List.length_append, List.length_append] at hlength
    have hx := hxs.length_le
    have hy := hys.length_le
    exact ⟨hxs.eq_of_length (by omega),hys.eq_of_length (by omega)⟩
  · rintro ⟨rfl,rfl⟩
    rfl

theorem flatten_narrow {α : Type} (b : Bool) (xs : List α) :
    (reach b [xs] ++ reach (!b) [xs]).flatten = xs := by
  cases b <;> simp [reach]

/-- What is selected is shown, in the order of the document, and nothing else exactly when every
branch that is not chosen is contained. -/
structure Agrees (chosen shown : List Component) (contained : Prop) : Prop where
  sublist : chosen.Sublist shown
  iff : chosen = shown ↔ contained

theorem Agrees.append {xs xs' ys ys' : List Component} {p q : Prop} (h : Agrees xs xs' p)
    (h' : Agrees ys ys' q) : Agrees (xs ++ ys) (xs' ++ ys') (p ∧ q) where
  sublist := h.sublist.append h'.sublist
  iff := by rw [append_eq_append_iff_of_sublist h.sublist h'.sublist, h.iff, h'.iff]

/-- Leaves that are shown although nothing is selected. -/
theorem Agrees.nothing (shown : List Component) : Agrees [] shown (shown = []) where
  sublist := List.nil_sublist _
  iff := eq_comm

variable (ρ : Valuation)

mutual

theorem selected_agrees (comp : Component) :
    Agrees (selected ρ comp) (statements ρ comp).flatten (Contained ρ comp) := by
  match comp with
  | ⟨kind,props,children,events,when_,then_,else_,items,key,template⟩ =>
    cases hshape : shapeOf
        ⟨kind,props,children,events,when_,then_,else_,items,key,template⟩ with
    | leaf =>
      rw [selected_leaf ρ hshape, statements_leaf ρ hshape]
      exact ⟨List.Sublist.refl _,iff_of_true rfl (contained_leaf ρ hshape)⟩
    | container =>
      have hchildren := selectedChildren_agrees children
      rw [selected_container ρ hshape, contained_container ρ hshape]
      by_cases hkind : kind = "Responsive"
      · rw [statements_responsive ρ hshape hkind, flatten_narrow]
        exact hchildren
      · rw [statements_container ρ hshape hkind, List.flatten_singleton]
        exact hchildren
    | branch =>
      have hthen := selectedBranch_agrees then_
      have helse := selectedBranch_agrees else_
      rw [selected_branch ρ hshape, statements_branch ρ hshape, contained_branch ρ hshape,
        List.flatten_append]
      cases chosen ρ ⟨kind,props,children,events,when_,then_,else_,items,key,template⟩ with
      | true =>
        have hall := hthen.append (Agrees.nothing (statementsBranch ρ else_).tail.flatten)
        rw [List.append_nil] at hall
        rw [if_pos rfl, if_pos rfl, reach_true, Bool.not_true, reach_false_flatten]
        exact hall
      | false =>
        have hall := (Agrees.nothing (statementsBranch ρ then_).tail.flatten).append helse
        rw [List.nil_append] at hall
        rw [if_neg Bool.false_ne_true, if_neg Bool.false_ne_true, Bool.not_false, reach_true,
          reach_false_flatten]
        exact hall
    | loop =>
      rw [selected_loop ρ hshape, statements_loop ρ hshape, contained_loop ρ hshape,
        List.flatten_singleton]
      exact selectedBranch_agrees template

theorem selectedChildren_agrees (children : List Component) :
    Agrees (selectedChildren ρ children) (statementsChildren ρ children)
      (ContainedChildren ρ children) := by
  match children with
  | [] => exact ⟨List.Sublist.refl _,iff_of_true rfl trivial⟩
  | child :: children => exact (selected_agrees child).append (selectedChildren_agrees children)

theorem selectedBranch_agrees (branch : Option Component) :
    Agrees (selectedBranch ρ branch) (statementsBranch ρ branch).flatten
      (ContainedBranch ρ branch) := by
  match branch with
  | none => exact ⟨List.Sublist.refl _,iff_of_true rfl trivial⟩
  | some comp => exact selected_agrees comp

end

end Selection

section Documents

variable {lib : JsonLib} {doc : UiDocument} {r : RenderedComponent}

/-- The source means the statements of the root. -/
theorem shownFrom_markup (h : renderComponent lib doc = .ok r) (ρ : Valuation) :
    shownFrom ρ.holds true r.markup = (statements ρ doc.root).flatten := by
  obtain ⟨body,ctx,hrendering⟩ := rendering_of_ok h
  have hall : StatedAll ρ [doc.root] [body] := hrendering.renders.stated (startCtx_valid doc)
  obtain ⟨hstated,-⟩ := List.forall₂_cons.mp hall
  rw [hrendering.markup, wrapComponent, List.append_assoc, List.singleton_append,
    shownFrom_text, hstated.2, shownFrom_text, reach_true]
  exact List.append_nil _

end Documents

section Window

variable {w : WindowValues} {ρ : Valuation}

theorem holds_congr (condition : Condition) (hbelow : w.below = ρ.below)
    (h : ∀ slot, .prop slot ∈ condition.pieces → w.prop slot.prop = ρ.on slot.path) :
    w.holds condition = ρ.holds condition := by
  cases condition with
  | isTrue slot => exact h slot (by simp [Condition.pieces])
  | isFalse slot => exact congrArg not (h slot (by simp [Condition.pieces]))
  | below breakpoint => exact congrFun hbelow breakpoint
  | atLeast breakpoint => exact congrArg not (congrFun hbelow breakpoint)

mutual

theorem Markup.shown_congr (m : Markup) (hbelow : w.below = ρ.below)
    (h : ∀ slot, .prop slot ∈ m.pieces → w.prop slot.prop = ρ.on slot.path) :
    m.shown w.holds = m.shown ρ.holds := by
  match m with
  | .text pieces => rfl
  | .guard condition => rfl
  | .leaf comp pieces => rfl
  | .block comp content => exact shownFrom_congr content true hbelow h
  | .row content => exact shownFrom_congr content true hbelow h

/-- Where every property that is read has the value of its path, the source shows what it means. -/
theorem shownFrom_congr (markup : List Markup) (opened : Bool) (hbelow : w.below = ρ.below)
    (h : ∀ slot, .prop slot ∈ piecesList markup → w.prop slot.prop = ρ.on slot.path) :
    shownFrom w.holds opened markup = shownFrom ρ.holds opened markup := by
  match markup with
  | [] => rfl
  | m :: rest =>
    have hfirst : ∀ slot, .prop slot ∈ m.pieces → w.prop slot.prop = ρ.on slot.path :=
      fun slot hslot => h slot (List.mem_append_left _ hslot)
    have hrest : ∀ slot, .prop slot ∈ piecesList rest → w.prop slot.prop = ρ.on slot.path :=
      fun slot hslot => h slot (List.mem_append_right _ hslot)
    have hopened : m.opened w.holds opened = m.opened ρ.holds opened := by
      cases m with
      | guard condition => exact congrArg (opened && ·) (holds_congr condition hbelow hfirst)
      | text pieces => rfl
      | leaf comp pieces => rfl
      | block comp content => rfl
      | row content => rfl
    rw [shownFrom, shownFrom, Markup.shown_congr m hbelow hfirst, hopened,
      shownFrom_congr rest _ hbelow hrest]

end

theorem foldl_set_of_notMem {slots : List BindingSlot} {name : String}
    (h : name ∉ slots.map BindingSlot.prop) (on : String → Bool) (value : Bool) :
    slots.foldl (fun value slot => if slot.prop = name then on slot.path else value) value =
      value := by
  induction slots with
  | nil => rfl
  | cons slot slots ih =>
    rw [List.map_cons, List.mem_cons, not_or] at h
    rw [List.foldl_cons, if_neg (Ne.symm h.1)]
    exact ih h.2

/-- A property whose name is given once has the value of its path. -/
theorem foldl_set_of_mem {slots : List BindingSlot} (hnodup : (slots.map BindingSlot.prop).Nodup)
    {slot : BindingSlot} (h : slot ∈ slots) (on : String → Bool) (value : Bool) :
    slots.foldl (fun value s => if s.prop = slot.prop then on s.path else value) value =
      on slot.path := by
  induction slots generalizing value with
  | nil => cases h
  | cons first slots ih =>
    rw [List.map_cons, List.nodup_cons] at hnodup
    rw [List.foldl_cons]
    rcases List.mem_cons.mp h with rfl | h
    · rw [if_pos rfl]
      exact foldl_set_of_notMem hnodup.1 on _
    · exact ih hnodup.2 h _

variable {lib : JsonLib} {doc : UiDocument} {r : RenderedComponent}

/-- With one name for each path the window shows the statements of the root. -/
theorem shows_eq (h : renderComponent lib doc = .ok r) (ρ : Valuation) :
    r.shows ρ = if FlatDistinct doc.root then some (statements ρ doc.root).flatten else none := by
  obtain ⟨body,ctx,hrendering⟩ := rendering_of_ok h
  have hdeclared : (declaredNames r.markup).Nodup ↔ FlatDistinct doc.root := by
    rw [hrendering.declaredNames_eq]
    exact hrendering.props_nodup_iff
  rw [RenderedComponent.shows]
  by_cases hdistinct : FlatDistinct doc.root
  · rw [if_pos (hdeclared.mpr hdistinct), if_pos hdistinct, ← shownFrom_markup h]
    have hnodup := hrendering.props_nodup_iff.mpr hdistinct
    have hread : ∀ slot, .prop slot ∈ piecesList r.markup.tail →
        (r.window ρ).prop slot.prop = ρ.on slot.path :=
      fun slot hslot => foldl_set_of_mem hnodup (hrendering.read_mem hslot) ρ.on false
    have htail := shownFrom_congr r.markup.tail true (w := r.window ρ) (ρ := ρ) rfl hread
    rw [hrendering.markup, wrapComponent, List.append_assoc, List.singleton_append] at htail ⊢
    rw [shownFrom_text, shownFrom_text]
    exact congrArg some htail
  · rw [if_neg fun hnodup => hdistinct (hdeclared.mp hnodup), if_neg hdistinct]

end Window

def textLiteral (text : String) : Component :=
  { plainComponent "Text" with
    props := OrdMap.ofList [("text",.literal (.string text))] }

def ifBind (path : String) (thenView : Component) (elseView : Option Component) : Component :=
  { plainComponent "If" with
    when_ := some (.state path)
    then_ := some thenView
    else_ := elseView }

/-- The page of the SDK: loading before error, before empty, before the content. -/
def pageState (loadingPath errorPath emptyPath : String)
    (loading error empty content : Component) : Component :=
  ifBind loadingPath loading
    (some (ifBind errorPath error (some (ifBind emptyPath empty (some content)))))

def pageDocument : UiDocument where
  uiApiVersion := "1.0.0"
  state := ⟨.object [("empty",.bool false),("error",.bool false),("loading",.bool true)],
    .object [] [("empty",.boolean),("error",.boolean),("loading",.boolean)] false⟩
  events := OrdMap.empty
  root := pageState "$.loading" "$.error" "$.empty" (textLiteral "Loading") (textLiteral "Error")
    (textLiteral "Empty") (textLiteral "Content")

/-- The JSON library on the document of the page. -/
def pageLib : JsonLib := ⟨fun _ => .ok 612,fun _ => ""⟩

/-- Only the given path is true. -/
def onlyPath (path : String) : Valuation := ⟨fun p => p == path,fun _ => false⟩

theorem page_rendered : ∃ r, renderComponent pageLib pageDocument = .ok r := by
  have hsome : (renderComponent pageLib pageDocument).toOption.isSome = true := by decide +kernel
  obtain ⟨r,hr⟩ := Option.isSome_iff_exists.mp hsome
  exact ⟨r,Checked.toOption_eq_some.mp hr⟩

end Floatile.Renderer
