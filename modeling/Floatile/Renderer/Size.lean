import Floatile.Renderer.Sound
import Floatile.UiSchema.Expansion
import Mathlib.Tactic.Ring
import Mathlib.Tactic.Linarith

/-! The size of the generated source. A Responsive emits its children twice, so the bodies of
components double with every Responsive around them, and only without nested ones do they stay in
proportion to the nodes. -/
namespace Floatile.Renderer

open Floatile.Lib
open Floatile.Core
open Floatile.UiSchema

mutual

/-- The bodies of components in a part of the source. -/
def Markup.bodies : Markup → ℕ
  | .text _ => 0
  | .guard _ => 0
  | .leaf _ _ => 1
  | .block _ content => 1 + bodiesList content
  | .row content => bodiesList content

def bodiesList : List Markup → ℕ
  | [] => 0
  | m :: rest => m.bodies + bodiesList rest

end

@[simp] theorem bodiesList_append (xs ys : List Markup) :
    bodiesList (xs ++ ys) = bodiesList xs + bodiesList ys := by
  induction xs with
  | nil => simp [bodiesList]
  | cons x xs ih => rw [List.cons_append, bodiesList, bodiesList, ih, Nat.add_assoc]

theorem bodiesList_flatten (inner : List (List Markup)) :
    bodiesList inner.flatten = (inner.map bodiesList).sum := by
  induction inner with
  | nil => rfl
  | cons ms inner ih => rw [List.flatten_cons, bodiesList_append, ih, List.map_cons, List.sum_cons]

theorem bodiesList_layoutChildren (inner : List (List Markup)) :
    bodiesList (layoutChildren inner) = (inner.map bodiesList).sum := by
  induction inner with
  | nil => rfl
  | cons ms inner ih =>
    rw [layoutChildren, List.flatMap_cons, bodiesList_append, bodiesList_append]
    have hbreak : bodiesList [Markup.text [.host "\n"]] = 0 := rfl
    rw [hbreak, Nat.add_zero, List.map_cons, List.sum_cons, ← ih, layoutChildren]

theorem bodies_layoutBlock (comp : Component) (layout : String) (inner : List (List Markup)) :
    (layoutBlock comp layout inner).bodies = 1 + (inner.map bodiesList).sum := by
  simp [layoutBlock, Markup.bodies, bodiesList, bodiesList_layoutChildren]

theorem bodiesList_rows (rows : List (List (List Markup))) :
    bodiesList (rows.map (fun row => Markup.row row.flatten)) = bodiesList rows.flatten.flatten := by
  induction rows with
  | nil => rfl
  | cons row rows ih =>
    rw [List.map_cons, bodiesList, Markup.bodies, ih, List.flatten_cons, List.flatten_append,
      bodiesList_append]

theorem bodies_gridBlock (comp : Component) (inner : List (List Markup)) :
    (gridBlock comp inner).bodies = 1 + (inner.map bodiesList).sum := by
  simp [gridBlock, Markup.bodies, bodiesList, bodiesList_rows, chunksFrom_flatten,
    bodiesList_flatten]

/-- A container emits its children once, a Responsive twice. -/
theorem Contents.bodies_eq {comp : Component} {inner : List (List Markup)} {markup : List Markup}
    (h : Contents comp inner markup) : bodiesList markup =
      (if comp.kind = "Responsive" then 2 else 1) * (1 + (inner.map bodiesList).sum) := by
  cases h with
  | layout layout hlayout hkind =>
    rw [if_neg hkind, bodiesList, bodiesList, bodies_layoutBlock]
    omega
  | grid hkind =>
    rw [if_neg hkind, bodiesList, bodiesList, bodies_gridBlock]
    omega
  | responsive breakpoint hkind hbreakpoint =>
    rw [if_pos hkind]
    simp only [responsiveBlocks, bodiesList, Markup.bodies, bodies_layoutBlock]
    omega

theorem bodies_loopBlock (comp : Component) (key : List Piece) (slot : BindingSlot)
    (inner : List Markup) : (loopBlock comp key slot inner).bodies = 1 + bodiesList inner := by
  simp [loopBlock, Markup.bodies, bodiesList]

mutual

/-- How many Responsives stand in one another. -/
def nesting (comp : Component) : ℕ :=
  match comp with
  | ⟨kind,_,children,_,_,then_,else_,_,_,template⟩ =>
    match shapeOf comp with
    | .leaf => 0
    | .container => (if kind = "Responsive" then 1 else 0) + nestingChildren children
    | .branch => max (nestingBranch then_) (nestingBranch else_)
    | .loop => nestingBranch template

def nestingChildren : List Component → ℕ
  | [] => 0
  | child :: children => max (nesting child) (nestingChildren children)

def nestingBranch : Option Component → ℕ
  | none => 0
  | some comp => nesting comp

end

theorem nesting_eq (comp : Component) : nesting comp =
    match shapeOf comp with
    | .leaf => 0
    | .container =>
      (if comp.kind = "Responsive" then 1 else 0) + nestingChildren comp.children
    | .branch => max (nestingBranch comp.then_) (nestingBranch comp.else_)
    | .loop => nestingBranch comp.template := by
  cases comp
  rw [nesting]

section Bound

variable {lib : JsonLib}

/-- What a component and what the components after it emit, each within its own nesting. -/
theorem bodies_cons {own rest count counts d e : ℕ} (hown : own ≤ 2 ^ d * count)
    (hrest : rest ≤ 2 ^ e * counts) : own + rest ≤ 2 ^ max d e * (count + counts) := by
  have hd : 2 ^ d ≤ 2 ^ max d e := Nat.pow_le_pow_right (by omega) (le_max_left d e)
  have he : 2 ^ e ≤ 2 ^ max d e := Nat.pow_le_pow_right (by omega) (le_max_right d e)
  rw [Nat.mul_add]
  exact Nat.add_le_add (hown.trans (Nat.mul_le_mul_right _ hd))
    (hrest.trans (Nat.mul_le_mul_right _ he))

/-- A node around others adds one body at most, or doubles them as a Responsive. -/
theorem bodies_around {inner count d : ℕ} (h : inner ≤ 2 ^ d * count) (kind : String) :
    (if kind = "Responsive" then 2 else 1) * (1 + inner) ≤
      2 ^ ((if kind = "Responsive" then 1 else 0) + d) * (1 + count) := by
  have hone : 1 ≤ 2 ^ d := Nat.one_le_two_pow
  have hinner : 1 + inner ≤ 2 ^ d * (1 + count) := by
    rw [Nat.mul_add, Nat.mul_one]
    exact Nat.add_le_add hone h
  split_ifs
  · rw [Nat.add_comm 1 d, pow_succ, Nat.mul_comm (2 ^ d) 2, Nat.mul_assoc]
    exact Nat.mul_le_mul_left 2 hinner
  · rw [Nat.zero_add, Nat.one_mul]
    exact hinner

/-- The bodies double with every Responsive around a node and with nothing else. -/
theorem Renders.bodies_le {depth : ℕ} {comps : List Component} {ctx ctx' : Ctx}
    {out : List (List Markup)} (h : Renders lib depth comps ctx out ctx') :
    (out.map bodiesList).sum ≤ 2 ^ nestingChildren comps * (nodesChildren comps).length := by
  induction h with
  | nil => simp
  | leaf hdepth hshape hleaf _ ih =>
    rw [List.map_cons, List.sum_cons, nodesChildren, nestingChildren, nodes_leaf hshape,
      List.length_append]
    refine bodies_cons ?_ ih
    rw [nesting_eq, hshape]
    exact le_rfl
  | @container depth comp rest ctx ctx₁ ctx₂ inner out markup hdepth hshape _ hcontents _ ihinner
      ih =>
    rw [List.map_cons, List.sum_cons, nodesChildren, nestingChildren, nodes_container hshape,
      List.length_append, List.length_cons]
    refine bodies_cons ?_ ih
    rw [nesting_eq, hshape, hcontents.bodies_eq, Nat.add_comm (nodesChildren comp.children).length]
    exact bodies_around ihinner comp.kind
  | thenOnly hdepth hshape hwhen hslot hthen helse _ _ ihshown ih =>
    rw [List.map_cons, List.sum_cons, nodesChildren, nestingChildren, nodes_branch hshape,
      List.length_append]
    refine bodies_cons ?_ ih
    simp only [nesting_eq, hshape, hthen, helse, nestingBranch, nestingChildren, nodesBranch,
      nodesChildren, bodiesList, Markup.bodies, List.map_cons, List.map_nil, List.sum_cons,
      List.sum_nil, List.length_cons, List.append_nil, Nat.max_zero] at ihshown ⊢
    rw [Nat.mul_add]
    omega
  | thenElse hdepth hshape hwhen hslot hthen helse _ _ _ ihshown ihhidden ih =>
    rw [List.map_cons, List.sum_cons, nodesChildren, nestingChildren, nodes_branch hshape,
      List.length_append]
    refine bodies_cons ?_ ih
    have hboth := bodies_cons ihshown ihhidden
    simp only [nesting_eq, hshape, hthen, helse, nestingBranch, nestingChildren, nodesBranch,
      nodesChildren, bodiesList, Markup.bodies, bodiesList_append, List.map_cons, List.map_nil,
      List.sum_cons, List.sum_nil, List.length_cons, List.length_append, List.append_nil,
      Nat.max_zero] at hboth ⊢
    rw [Nat.mul_add]
    omega
  | loop hdepth hshape hitems hslot htemplate _ hkey _ ihinner ih =>
    rw [List.map_cons, List.sum_cons, nodesChildren, nestingChildren, nodes_loop hshape,
      List.length_append]
    refine bodies_cons ?_ ih
    have hinner := bodies_around ihinner "ForEach"
    simp only [nesting_eq, hshape, htemplate, nestingBranch, nestingChildren, nodesBranch,
      nodesChildren, bodiesList, bodies_loopBlock, List.map_cons, List.map_nil, List.sum_cons,
      List.sum_nil, List.length_cons, List.append_nil, Nat.max_zero] at hinner ⊢
    simpa [Nat.add_comm] using hinner

/-- A rendering stays within the node budget. -/
theorem Renders.nodes_le {depth : ℕ} {comps : List Component} {ctx ctx' : Ctx}
    {out : List (List Markup)} (h : Renders lib depth comps ctx out ctx') (hctx : ctx.Valid)
    (hnodes : ctx.nodes ≤ maxNodes) : ctx'.nodes ≤ maxNodes := by
  induction h with
  | nil => exact hnodes
  | leaf hdepth hshape hleaf _ ih =>
    have henter := Steps.enter hctx
    obtain ⟨hsteps,-⟩ := leafPieces_emits henter.valid hleaf
    exact ih hsteps.valid (hsteps.nodes.trans_le hdepth.2)
  | container hdepth hshape hinner hcontents _ ihinner ih =>
    have henter := Steps.enter hctx
    exact ih (hinner.steps henter.valid).valid (ihinner henter.valid hdepth.2)
  | thenOnly hdepth hshape hwhen hslot hthen helse hshown _ ihshown ih =>
    obtain ⟨-,hsteps,-⟩ := bindingSlot_steps (Steps.enter hctx).valid hslot
    exact ih (hshown.steps hsteps.valid).valid
      (ihshown hsteps.valid (hsteps.nodes.trans_le hdepth.2))
  | thenElse hdepth hshape hwhen hslot hthen helse hshown hhidden _ ihshown ihhidden ih =>
    obtain ⟨-,hsteps,-⟩ := bindingSlot_steps (Steps.enter hctx).valid hslot
    have hshownSteps := hshown.steps hsteps.valid
    exact ih (hhidden.steps hshownSteps.valid).valid (ihhidden hshownSteps.valid
      (ihshown hsteps.valid (hsteps.nodes.trans_le hdepth.2)))
  | loop hdepth hshape hitems hslot htemplate hinner hkey _ ihinner ih =>
    obtain ⟨-,hsteps,-⟩ := bindingSlot_steps (Steps.enter hctx).valid hslot
    exact ih (hinner.steps hsteps.valid).valid
      (ihinner hsteps.valid (hsteps.nodes.trans_le hdepth.2))

theorem renderedBodies_le {doc : UiDocument} {r : RenderedComponent}
    (h : renderComponent lib doc = .ok r) :
    bodiesList r.markup ≤ 2 ^ nesting doc.root * (nodes doc.root).length ∧
      (nodes doc.root).length ≤ maxNodes := by
  obtain ⟨body,ctx,hrendering⟩ := rendering_of_ok h
  have hbody : bodiesList r.markup = bodiesList body := by
    simp [hrendering.markup, wrapComponent, bodiesList, Markup.bodies]
  have hle := hrendering.renders.bodies_le
  have hnodes := hrendering.renders.nodes_le (startCtx_valid doc) (Nat.zero_le _)
  rw [hrendering.steps.nodes] at hnodes
  rw [hbody]
  constructor
  · simpa [nodesChildren, nestingChildren] using hle
  · simpa [startCtx] using hnodes

end Bound

/-- A text in so many Responsives. -/
def nestedResponsive : ℕ → Component
  | 0 => { plainComponent "Text" with
      props := OrdMap.ofList [("text",.literal (.string "deep"))] }
  | d + 1 => { plainComponent "Responsive" with
      props := OrdMap.ofList [("breakpoint",.literal (.number (.posInt 600)))]
      children := [nestedResponsive d] }

def nestedDocument (d : ℕ) : UiDocument where
  uiApiVersion := "1.4.0"
  state := ⟨.object [],.object [] [] false⟩
  events := OrdMap.empty
  root := nestedResponsive d

/-- The JSON library on the document with so many Responsives. -/
def nestedLib (d : ℕ) : JsonLib := ⟨fun _ => .ok (193 + 62 * d),fun _ => "\"deep\""⟩

theorem nesting_nestedResponsive (d : ℕ) : nesting (nestedResponsive d) = d := by
  induction d with
  | zero => rfl
  | succ d ih =>
    rw [nesting_eq]
    change 1 + max (nesting (nestedResponsive d)) 0 = d + 1
    rw [ih]
    omega

theorem length_nodes_nestedResponsive (d : ℕ) : (nodes (nestedResponsive d)).length = d + 1 := by
  induction d with
  | zero => rfl
  | succ d ih =>
    have hshape : shapeOf (nestedResponsive (d + 1)) = .container := rfl
    rw [nodes_container hshape, List.length_cons]
    change (nodes (nestedResponsive d) ++ []).length + 1 = d + 1 + 1
    rw [List.append_nil, ih]

theorem bodies_nestedResponsive {lib : JsonLib} {d depth : ℕ} {ctx ctx' : Ctx}
    {out : List (List Markup)} (h : Renders lib depth [nestedResponsive d] ctx out ctx') :
    (out.map bodiesList).sum + 2 = 3 * 2 ^ d := by
  induction d generalizing depth ctx ctx' out with
  | zero =>
    have hshape : shapeOf (nestedResponsive 0) = .leaf := rfl
    cases h with
    | leaf _ _ _ hrest =>
      cases hrest
      rfl
    | container _ hcontainer => cases hshape.symm.trans hcontainer
    | thenOnly _ hbranch => cases hshape.symm.trans hbranch
    | thenElse _ hbranch => cases hshape.symm.trans hbranch
    | loop _ hloop => cases hshape.symm.trans hloop
  | succ d ih =>
    have hshape : shapeOf (nestedResponsive (d + 1)) = .container := rfl
    cases h with
    | leaf _ hleaf => cases hshape.symm.trans hleaf
    | container _ _ hinner hcontents hrest =>
      cases hrest
      have hbelow := ih hinner
      have hkind : (nestedResponsive (d + 1)).kind = "Responsive" := rfl
      rw [List.map_cons, List.sum_cons, hcontents.bodies_eq, if_pos hkind, List.map_nil,
        List.sum_nil, pow_succ]
      omega
    | thenOnly _ hbranch => cases hshape.symm.trans hbranch
    | thenElse _ hbranch => cases hshape.symm.trans hbranch
    | loop _ hloop => cases hshape.symm.trans hloop

theorem nestedDocument_rendered (d : ℕ) (hd : d < maxTreeDepth) :
    ∃ r, renderComponent (nestedLib d) (nestedDocument d) = .ok r := by
  have hall : ∀ d < maxTreeDepth,
      (renderComponent (nestedLib d) (nestedDocument d)).toOption.isSome = true := by
    decide +kernel
  obtain ⟨r,hr⟩ := Option.isSome_iff_exists.mp (hall d hd)
  exact ⟨r,Checked.toOption_eq_some.mp hr⟩

theorem bodies_nestedDocument {d : ℕ} {lib : JsonLib} {r : RenderedComponent}
    (h : renderComponent lib (nestedDocument d) = .ok r) :
    bodiesList r.markup + 2 = 3 * 2 ^ d := by
  obtain ⟨body,ctx,hrendering⟩ := rendering_of_ok h
  have hbody : bodiesList r.markup = ([body].map bodiesList).sum := by
    simp [hrendering.markup, wrapComponent, bodiesList, Markup.bodies]
  rw [hbody]
  exact bodies_nestedResponsive hrendering.renders

/-- Every document whose Responsives are nested at most so deeply has at most so many bodies for
each of its nodes, and so for each node of the budget. -/
def BodiesWithin (factor depth : ℕ) : Prop :=
  ∀ (lib : JsonLib) (doc : UiDocument) (r : RenderedComponent),
    renderComponent lib doc = .ok r → nesting doc.root ≤ depth →
      bodiesList r.markup ≤ factor * (nodes doc.root).length ∧
        bodiesList r.markup ≤ factor * maxNodes

theorem bodiesWithin_pow (d : ℕ) : BodiesWithin (2 ^ d) d := by
  intro lib doc r h hnesting
  obtain ⟨hbodies,hnodes⟩ := renderedBodies_le h
  have hpow : 2 ^ nesting doc.root ≤ 2 ^ d := Nat.pow_le_pow_right (by omega) hnesting
  have hle := hbodies.trans (Nat.mul_le_mul_right _ hpow)
  exact ⟨hle,hle.trans (Nat.mul_le_mul_left _ hnodes)⟩

/-- A factor for a nesting is at least what the texts in nested Responsives take. -/
theorem le_of_bodiesWithin {factor depth d : ℕ} (h : BodiesWithin factor depth) (hd : d ≤ depth)
    (hmax : d < maxTreeDepth) : 3 * 2 ^ d ≤ factor * (d + 1) + 2 := by
  obtain ⟨r,hrendered⟩ := nestedDocument_rendered d hmax
  have hnesting : nesting (nestedDocument d).root ≤ depth := (nesting_nestedResponsive d).trans_le hd
  have hle := (h _ _ r hrendered hnesting).1
  have hnodes : (nodes (nestedDocument d).root).length = d + 1 := length_nodes_nestedResponsive d
  have hbodies := bodies_nestedDocument hrendered
  rw [hnodes] at hle
  omega

/-- Two bodies for each node are enough exactly as long as no Responsive stands in another one, and
a factor for more nesting grows exponentially. -/
theorem bodiesWithin_two_iff (depth : ℕ) : (BodiesWithin 2 depth ↔ depth ≤ 1) ∧
    ∀ factor, BodiesWithin factor depth → depth < maxTreeDepth →
      3 * 2 ^ depth ≤ factor * (depth + 1) + 2 := by
  refine ⟨⟨fun h => ?_,fun hdepth => ?_⟩,fun factor h hmax => le_of_bodiesWithin h le_rfl hmax⟩
  · by_contra hdeep
    have htwo := le_of_bodiesWithin h (by omega : 2 ≤ depth) (by decide)
    omega
  · intro lib doc r h hnesting
    exact bodiesWithin_pow 1 lib doc r h (hnesting.trans hdepth)

/-- A text in the deepest Responsives that are accepted: 32 nodes, and more than 200 million bodies
for each of them. -/
theorem nestedDocument_bodies : ∃ r,
    renderComponent (nestedLib 31) (nestedDocument 31) = .ok r ∧
    (nodes (nestedDocument 31).root).length = 32 ∧ bodiesList r.markup = 6442450942 ∧
    ¬bodiesList r.markup ≤ 200000000 * (nodes (nestedDocument 31).root).length ∧
    ¬bodiesList r.markup ≤ 25000000 * maxNodes := by
  obtain ⟨r,hrendered⟩ := nestedDocument_rendered 31 (by decide)
  have hnodes : (nodes (nestedDocument 31).root).length = 32 := length_nodes_nestedResponsive 31
  have hbodies : bodiesList r.markup = 6442450942 := by
    have hsum := bodies_nestedDocument hrendered
    omega
  refine ⟨r,hrendered,hnodes,hbodies,?_,?_⟩
  · rw [hnodes, hbodies]
    decide
  · rw [hbodies]
    decide

end Floatile.Renderer
