import Floatile.Renderer.Render

/-! The nodes of a tree that the renderer expands, and what a successful rendering of a list of
components consists of. -/
namespace Floatile.Renderer

open Floatile.Lib
open Floatile.Core
open Floatile.UiSchema

inductive Shape where
  | leaf
  | container
  | branch
  | loop
  deriving DecidableEq, Repr

/-- What is below a component: nothing, its children, its branches or its template. -/
def shapeOf (comp : Component) : Shape :=
  if comp.kind = "If" then .branch
  else if comp.kind = "ForEach" then .loop
  else if comp.kind ∈ ["Column","Row","Stack","Grid","Responsive"] ∨
    comp.kind = "List" ∧ (comp.props.get "items").isNone then .container
  else .leaf

mutual

/-- The components of a tree in document order. -/
def nodes (comp : Component) : List Component :=
  match comp with
  | ⟨_,_,children,_,_,then_,else_,_,_,template⟩ =>
    comp :: match shapeOf comp with
    | .leaf => []
    | .container => nodesChildren children
    | .branch => nodesBranch then_ ++ nodesBranch else_
    | .loop => nodesBranch template

def nodesChildren : List Component → List Component
  | [] => []
  | child :: children => nodes child ++ nodesChildren children

def nodesBranch : Option Component → List Component
  | none => []
  | some comp => nodes comp

end

section Nodes

variable {comp : Component}

/-- A component comes before the nodes that its shape puts below it. -/
theorem nodes_of_shape (comp : Component) : nodes comp =
    comp :: match shapeOf comp with
    | .leaf => []
    | .container => nodesChildren comp.children
    | .branch => nodesBranch comp.then_ ++ nodesBranch comp.else_
    | .loop => nodesBranch comp.template := by
  cases comp
  rw [nodes]

theorem nodes_leaf (h : shapeOf comp = .leaf) : nodes comp = [comp] := by
  rw [nodes_of_shape, h]

theorem nodes_container (h : shapeOf comp = .container) :
    nodes comp = comp :: nodesChildren comp.children := by
  rw [nodes_of_shape, h]

theorem nodes_branch (h : shapeOf comp = .branch) :
    nodes comp = comp :: (nodesBranch comp.then_ ++ nodesBranch comp.else_) := by
  rw [nodes_of_shape, h]

theorem nodes_loop (h : shapeOf comp = .loop) :
    nodes comp = comp :: nodesBranch comp.template := by
  rw [nodes_of_shape, h]

end Nodes

@[simp] def Ctx.entered (ctx : Ctx) : Ctx := { ctx with nodes := ctx.nodes + 1 }

/-- Another node may be expanded at a depth. -/
def InBudget (ctx : Ctx) (depth : ℕ) : Prop := depth ≤ maxTreeDepth ∧ ctx.nodes + 1 ≤ maxNodes

theorem enterNode_eq_ok {ctx ctx' : Ctx} {depth : ℕ} (h : enterNode ctx depth = .ok ctx') :
    InBudget ctx depth ∧ ctx' = ctx.entered := by
  simp only [enterNode, Checked.check_bind_eq_ok, Checked.reject_eq_ok, Except.ok.injEq] at h
  obtain ⟨hdepth,hnodes,-,rfl⟩ := h
  exact ⟨⟨Nat.not_lt.mp hdepth,Nat.not_lt.mp hnodes⟩,rfl⟩

/-- What a container makes of its rendered children. -/
inductive Contents (comp : Component) (inner : List (List Markup)) : List Markup → Prop
  | layout (layout : String)
      (hlayout : layout ∈ ["VerticalLayout","HorizontalLayout","StackLayout"])
      (hkind : comp.kind ≠ "Responsive") : Contents comp inner [layoutBlock comp layout inner]
  | grid (hkind : comp.kind ≠ "Responsive") : Contents comp inner [gridBlock comp inner]
  | responsive (breakpoint : Float) (hkind : comp.kind = "Responsive")
      (hbreakpoint : literalF64 comp "breakpoint" = some breakpoint) :
      Contents comp inner (responsiveBlocks comp breakpoint inner)

/-- The pieces of a leaf: those of its kind, or the items of a list. -/
def leafPieces (lib : JsonLib) (comp : Component) (ctx : Ctx) :
    Except RendererError (List Piece × Ctx) :=
  match comp.props.get "items" with
  | some items =>
    if comp.kind = "List" then renderListItems comp items ctx else renderLeaf lib comp ctx
  | none => renderLeaf lib comp ctx

/-- The components, from left to right, give these parts of the source. -/
inductive Renders (lib : JsonLib) : ℕ → List Component → Ctx → List (List Markup) → Ctx → Prop
  | nil {depth : ℕ} {ctx : Ctx} : Renders lib depth [] ctx [] ctx
  | leaf {depth : ℕ} {comp : Component} {rest : List Component} {ctx ctx₁ ctx₂ : Ctx}
      {pieces : List Piece} {out : List (List Markup)} (hdepth : InBudget ctx depth)
      (hshape : shapeOf comp = .leaf) (hleaf : leafPieces lib comp ctx.entered = .ok (pieces,ctx₁))
      (hrest : Renders lib depth rest ctx₁ out ctx₂) :
      Renders lib depth (comp :: rest) ctx ([.leaf comp pieces] :: out) ctx₂
  | container {depth : ℕ} {comp : Component} {rest : List Component} {ctx ctx₁ ctx₂ : Ctx}
      {inner out : List (List Markup)} {markup : List Markup} (hdepth : InBudget ctx depth)
      (hshape : shapeOf comp = .container)
      (hinner : Renders lib (depth + 1) comp.children ctx.entered inner ctx₁)
      (hcontents : Contents comp inner markup) (hrest : Renders lib depth rest ctx₁ out ctx₂) :
      Renders lib depth (comp :: rest) ctx (markup :: out) ctx₂
  | thenOnly {depth : ℕ} {comp shown : Component} {rest : List Component}
      {ctx ctx₁ ctx₂ ctx₃ : Ctx} {bind : String} {slot : BindingSlot} {markup : List Markup}
      {out : List (List Markup)} (hdepth : InBudget ctx depth)
      (hshape : shapeOf comp = .branch) (hwhen : comp.when_ = some (.state bind))
      (hslot : bindingSlot bind .boolean ctx.entered = .ok (slot,ctx₁))
      (hthen : comp.then_ = some shown) (helse : comp.else_ = none)
      (hshown : Renders lib (depth + 1) [shown] ctx₁ [markup] ctx₂)
      (hrest : Renders lib depth rest ctx₂ out ctx₃) :
      Renders lib depth (comp :: rest) ctx ((.guard (.isTrue slot) :: markup) :: out) ctx₃
  | thenElse {depth : ℕ} {comp shown hidden : Component} {rest : List Component}
      {ctx ctx₁ ctx₂ ctx₃ ctx₄ : Ctx} {bind : String} {slot : BindingSlot}
      {markup markup' : List Markup} {out : List (List Markup)} (hdepth : InBudget ctx depth)
      (hshape : shapeOf comp = .branch) (hwhen : comp.when_ = some (.state bind))
      (hslot : bindingSlot bind .boolean ctx.entered = .ok (slot,ctx₁))
      (hthen : comp.then_ = some shown) (helse : comp.else_ = some hidden)
      (hshown : Renders lib (depth + 1) [shown] ctx₁ [markup] ctx₂)
      (hhidden : Renders lib (depth + 1) [hidden] ctx₂ [markup'] ctx₃)
      (hrest : Renders lib depth rest ctx₃ out ctx₄) :
      Renders lib depth (comp :: rest) ctx
        ((.guard (.isTrue slot) :: markup ++ .guard (.isFalse slot) :: markup') :: out) ctx₄
  | loop {depth : ℕ} {comp template : Component} {rest : List Component}
      {ctx ctx₁ ctx₂ ctx₃ : Ctx} {bind : String} {slot : BindingSlot} {key : List Piece}
      {markup : List Markup} {out : List (List Markup)} (hdepth : InBudget ctx depth)
      (hshape : shapeOf comp = .loop) (hitems : comp.items = some (.state bind))
      (hslot : bindingSlot bind .string ctx.entered = .ok (slot,ctx₁))
      (htemplate : comp.template = some template)
      (hinner : Renders lib (depth + 1) [template] ctx₁ [markup] ctx₂)
      (hkey : itemKey comp = .ok key) (hrest : Renders lib depth rest ctx₂ out ctx₃) :
      Renders lib depth (comp :: rest) ctx ([loopBlock comp key slot markup] :: out) ctx₃

theorem Renders.append {lib : JsonLib} {depth : ℕ} {comps comps' : List Component}
    {ctx ctx₁ ctx₂ : Ctx} {out out' : List (List Markup)} (h : Renders lib depth comps ctx out ctx₁)
    (h' : Renders lib depth comps' ctx₁ out' ctx₂) :
    Renders lib depth (comps ++ comps') ctx (out ++ out') ctx₂ := by
  induction h with
  | nil => exact h'
  | leaf hdepth hshape hleaf _ ih => exact .leaf hdepth hshape hleaf (ih h')
  | container hdepth hshape hinner hcontents _ _ ih =>
    exact .container hdepth hshape hinner hcontents (ih h')
  | thenOnly hdepth hshape hwhen hslot hthen helse hshown _ _ ih =>
    exact .thenOnly hdepth hshape hwhen hslot hthen helse hshown (ih h')
  | thenElse hdepth hshape hwhen hslot hthen helse hshown hhidden _ _ _ ih =>
    exact .thenElse hdepth hshape hwhen hslot hthen helse hshown hhidden (ih h')
  | loop hdepth hshape hitems hslot htemplate hinner hkey _ _ ih =>
    exact .loop hdepth hshape hitems hslot htemplate hinner hkey (ih h')

open Floatile.Lib.Checked (bind_eq_ok)

section Generation

variable {lib : JsonLib}

theorem asLeaf_eq_ok {comp : Component} {rendered : Except RendererError (List Piece × Ctx)}
    {markup : List Markup} {ctx' : Ctx} (h : asLeaf comp rendered = .ok (markup,ctx')) :
    ∃ pieces, rendered = .ok (pieces,ctx') ∧ markup = [.leaf comp pieces] := by
  obtain ⟨⟨pieces,ctx₁⟩,hrendered,hmarkup⟩ := bind_eq_ok.mp h
  cases hmarkup
  exact ⟨pieces,hrendered,rfl⟩

/-- The nodes below a component are rendered as the argument renders them. -/
theorem renderLayout_eq_ok {comp : Component}
    {children : Ctx → Except RendererError (List (List Markup) × Ctx)} {layout : String}
    {ctx ctx' : Ctx} {markup : List Markup}
    (h : renderLayout comp children layout ctx = .ok (markup,ctx')) :
    ∃ inner, children ctx = .ok (inner,ctx') ∧ markup = [layoutBlock comp layout inner] := by
  obtain ⟨⟨inner,ctx₁⟩,hinner,h⟩ := bind_eq_ok.mp h
  cases h
  exact ⟨inner,hinner,rfl⟩

theorem renderGrid_eq_ok {comp : Component}
    {children : Ctx → Except RendererError (List (List Markup) × Ctx)} {ctx ctx' : Ctx}
    {markup : List Markup} (h : renderGrid comp children ctx = .ok (markup,ctx')) :
    ∃ inner, children ctx = .ok (inner,ctx') ∧ markup = [gridBlock comp inner] := by
  obtain ⟨⟨inner,ctx₁⟩,hinner,h⟩ := bind_eq_ok.mp h
  cases h
  exact ⟨inner,hinner,rfl⟩

theorem renderResponsive_eq_ok {comp : Component}
    {children : Ctx → Except RendererError (List (List Markup) × Ctx)} {ctx ctx' : Ctx}
    {markup : List Markup} (h : renderResponsive comp children ctx = .ok (markup,ctx')) :
    ∃ breakpoint inner, literalF64 comp "breakpoint" = some breakpoint ∧
      children ctx = .ok (inner,ctx') ∧ markup = responsiveBlocks comp breakpoint inner := by
  unfold renderResponsive at h
  cases hbreakpoint : literalF64 comp "breakpoint" with
  | none =>
    rw [hbreakpoint] at h
    cases h
  | some breakpoint =>
    rw [hbreakpoint] at h
    obtain ⟨⟨inner,ctx₁⟩,hinner,h⟩ := bind_eq_ok.mp h
    cases h
    exact ⟨breakpoint,inner,rfl,hinner,rfl⟩

theorem renderIf_eq_ok {comp : Component}
    {then_ else_ : Ctx → Except RendererError (Option (List Markup) × Ctx)} {ctx ctx' : Ctx}
    {markup : List Markup} (h : renderIf comp then_ else_ ctx = .ok (markup,ctx')) :
    ∃ bind slot shown ctx₁ ctx₂, comp.when_ = some (.state bind) ∧
      bindingSlot bind .boolean ctx = .ok (slot,ctx₁) ∧ then_ ctx₁ = .ok (some shown,ctx₂) ∧
      (else_ ctx₂ = .ok (none,ctx') ∧ markup = .guard (.isTrue slot) :: shown ∨
        ∃ hidden, else_ ctx₂ = .ok (some hidden,ctx') ∧
          markup = .guard (.isTrue slot) :: shown ++ .guard (.isFalse slot) :: hidden) := by
  unfold renderIf at h
  split at h
  · rename_i bind hwhen
    obtain ⟨⟨slot,ctx₁⟩,hslot,hthen⟩ := bind_eq_ok.mp h
    obtain ⟨⟨shown,ctx₂⟩,hshown,helse⟩ := bind_eq_ok.mp hthen
    cases shown with
    | none => cases helse
    | some shown =>
      obtain ⟨⟨hidden,ctx₃⟩,hhidden,hmarkup⟩ := bind_eq_ok.mp helse
      refine ⟨bind,slot,shown,ctx₁,ctx₂,hwhen,hslot,hshown,?_⟩
      cases hidden with
      | none =>
        cases hmarkup
        exact Or.inl ⟨hhidden,rfl⟩
      | some hidden =>
        cases hmarkup
        exact Or.inr ⟨hidden,hhidden,rfl⟩
  · cases h

theorem renderForeach_eq_ok {comp : Component}
    {template : Ctx → Except RendererError (Option (List Markup) × Ctx)} {ctx ctx' : Ctx}
    {markup : List Markup} (h : renderForeach comp template ctx = .ok (markup,ctx')) :
    ∃ bind slot inner key ctx₁, comp.items = some (.state bind) ∧
      bindingSlot bind .string ctx = .ok (slot,ctx₁) ∧ template ctx₁ = .ok (some inner,ctx') ∧
      itemKey comp = .ok key ∧ markup = [loopBlock comp key slot inner] := by
  unfold renderForeach at h
  split at h
  · rename_i bind hitems
    obtain ⟨⟨slot,ctx₁⟩,hslot,hinner⟩ := bind_eq_ok.mp h
    obtain ⟨⟨inner,ctx₂⟩,hinner,hkey⟩ := bind_eq_ok.mp hinner
    cases inner with
    | none => cases hkey
    | some inner =>
      obtain ⟨key,hitemKey,hmarkup⟩ := bind_eq_ok.mp hkey
      cases hmarkup
      exact ⟨bind,slot,inner,key,ctx₁,hitems,hslot,hinner,hitemKey,rfl⟩
  · cases h

theorem renderBranch_eq_none {branch : Option Component} {ctx ctx' : Ctx} {depth : ℕ}
    (h : renderBranch lib branch ctx depth = .ok (none,ctx')) : branch = none ∧ ctx' = ctx := by
  cases branch with
  | none =>
    cases h
    exact ⟨rfl,rfl⟩
  | some comp =>
    obtain ⟨⟨rendered,ctx₁⟩,-,h⟩ := bind_eq_ok.mp h
    cases h

theorem shapeOf_container {comp : Component}
    (h : comp.kind ∈ ["Column","Row","Stack","Grid","Responsive"]) : shapeOf comp = .container := by
  have hif : comp.kind ≠ "If" := by rintro heq; simp [heq] at h
  have hloop : comp.kind ≠ "ForEach" := by rintro heq; simp [heq] at h
  simp [shapeOf, hif, hloop, h]

mutual

theorem renderNode_renders {comp : Component} {ctx ctx' : Ctx} {depth : ℕ} {markup : List Markup}
    (h : renderNode lib comp ctx depth = .ok (markup,ctx')) :
    Renders lib depth [comp] ctx [markup] ctx' := by
  match comp with
  | ⟨kind,props,children,events,when_,then_,else_,items,key,template⟩ =>
    rw [renderNode] at h
    obtain ⟨ctx₁,henter,h⟩ := bind_eq_ok.mp h
    obtain ⟨hdepth,rfl⟩ := enterNode_eq_ok henter
    dsimp only at h
    split_ifs at h with hcolumn hrow hstack hgrid hresponsive hlist hif hloop
    · obtain ⟨inner,hinner,rfl⟩ := renderLayout_eq_ok h
      exact .container hdepth (shapeOf_container (by simp [hcolumn]))
        (renderChildren_renders hinner) (.layout _ (by simp) (by simp [hcolumn])) .nil
    · obtain ⟨inner,hinner,rfl⟩ := renderLayout_eq_ok h
      exact .container hdepth (shapeOf_container (by simp [hrow]))
        (renderChildren_renders hinner) (.layout _ (by simp) (by simp [hrow])) .nil
    · obtain ⟨inner,hinner,rfl⟩ := renderLayout_eq_ok h
      exact .container hdepth (shapeOf_container (by simp [hstack]))
        (renderChildren_renders hinner) (.layout _ (by simp) (by simp [hstack])) .nil
    · obtain ⟨inner,hinner,rfl⟩ := renderGrid_eq_ok h
      exact .container hdepth (shapeOf_container (by simp [hgrid]))
        (renderChildren_renders hinner) (.grid (by simp [hgrid])) .nil
    · obtain ⟨breakpoint,inner,hbreakpoint,hinner,rfl⟩ := renderResponsive_eq_ok h
      exact .container hdepth (shapeOf_container (by simp [hresponsive]))
        (renderChildren_renders hinner) (.responsive breakpoint hresponsive hbreakpoint) .nil
    · subst hlist
      unfold renderList at h
      cases hitems : props.get "items" with
      | none =>
        rw [hitems] at h
        obtain ⟨inner,hinner,rfl⟩ := renderLayout_eq_ok h
        have hshape : shapeOf
            ⟨"List",props,children,events,when_,then_,else_,items,key,template⟩ = .container := by
          simp [shapeOf, hitems]
        exact .container hdepth hshape (renderChildren_renders hinner)
          (.layout _ (by simp) (by simp)) .nil
      | some values =>
        rw [hitems] at h
        obtain ⟨pieces,hpieces,rfl⟩ := asLeaf_eq_ok h
        have hshape : shapeOf
            ⟨"List",props,children,events,when_,then_,else_,items,key,template⟩ = .leaf := by
          simp [shapeOf, hitems]
        exact .leaf hdepth hshape (by simpa [leafPieces, hitems] using hpieces) .nil
    · subst hif
      obtain ⟨bind,slot,shown,ctx₂,ctx₃,hwhen,hslot,hthen,helse⟩ := renderIf_eq_ok h
      obtain ⟨thenComp,hthenComp,hshown⟩ := renderBranch_renders hthen
      rcases helse with ⟨hnone,rfl⟩ | ⟨hidden,helse,rfl⟩
      · obtain ⟨helseComp,rfl⟩ := renderBranch_eq_none hnone
        exact .thenOnly hdepth rfl hwhen hslot hthenComp helseComp hshown .nil
      · obtain ⟨elseComp,helseComp,hhidden⟩ := renderBranch_renders helse
        exact .thenElse hdepth rfl hwhen hslot hthenComp helseComp hshown hhidden .nil
    · subst hloop
      obtain ⟨bind,slot,inner,keyPieces,ctx₂,hitems,hslot,hinner,hkey,rfl⟩ := renderForeach_eq_ok h
      obtain ⟨templateComp,htemplate,hrendered⟩ := renderBranch_renders hinner
      exact .loop hdepth rfl hitems hslot htemplate hrendered hkey .nil
    · obtain ⟨pieces,hpieces,rfl⟩ := asLeaf_eq_ok h
      have hshape : shapeOf
          ⟨kind,props,children,events,when_,then_,else_,items,key,template⟩ = .leaf := by
        simp [shapeOf, hcolumn, hrow, hstack, hgrid, hresponsive, hlist, hif, hloop]
      have hleaf : leafPieces lib
          ⟨kind,props,children,events,when_,then_,else_,items,key,template⟩ = renderLeaf lib
          ⟨kind,props,children,events,when_,then_,else_,items,key,template⟩ := by
        funext ctx
        unfold leafPieces
        cases props.get "items" with
        | none => rfl
        | some values => exact if_neg hlist
      exact .leaf hdepth hshape (by rw [hleaf]; exact hpieces) .nil

theorem renderChildren_renders {children : List Component} {ctx ctx' : Ctx} {depth : ℕ}
    {out : List (List Markup)} (h : renderChildren lib children ctx depth = .ok (out,ctx')) :
    Renders lib depth children ctx out ctx' := by
  match children with
  | [] =>
    cases h
    exact .nil
  | child :: children =>
    obtain ⟨⟨first,ctx₁⟩,hfirst,h⟩ := bind_eq_ok.mp h
    obtain ⟨⟨rest,ctx₂⟩,hrest,h⟩ := bind_eq_ok.mp h
    cases h
    exact (renderNode_renders hfirst).append (renderChildren_renders hrest)

theorem renderBranch_renders {branch : Option Component} {ctx ctx' : Ctx} {depth : ℕ}
    {markup : List Markup} (h : renderBranch lib branch ctx depth = .ok (some markup,ctx')) :
    ∃ comp, branch = some comp ∧ Renders lib depth [comp] ctx [markup] ctx' := by
  match branch with
  | none => cases h
  | some comp =>
    obtain ⟨⟨rendered,ctx₁⟩,hrendered,h⟩ := bind_eq_ok.mp h
    cases h
    exact ⟨comp,rfl,renderNode_renders hrendered⟩

end

end Generation

end Floatile.Renderer
