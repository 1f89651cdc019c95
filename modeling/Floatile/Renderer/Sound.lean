import Floatile.Renderer.Leaves

/-! A rendering of a tree registers exactly the paths of its nodes, and every piece of it is
sound. -/
namespace Floatile.Renderer

open Floatile.Lib
open Floatile.Lib.Checked (bind_eq_ok)
open Floatile.Core
open Floatile.UiSchema

/-- The path of an If or of a ForEach. -/
def controlPath (binding : Option Binding) (valueType : BindingValueType) :
    List (String × BindingValueType) :=
  match binding with
  | some (.state bind) => [(bind,valueType)]
  | _ => []

/-- The state paths that a node itself projects. -/
def ownPaths (comp : Component) : List (String × BindingValueType) :=
  match shapeOf comp with
  | .leaf => leafPaths comp
  | .container => []
  | .branch => controlPath comp.when_ .boolean
  | .loop => controlPath comp.items .string

/-- The state paths that a document projects. -/
def boundPaths (root : Component) : List (String × BindingValueType) :=
  (nodes root).flatMap ownPaths

theorem Steps.cast {ctx ctx' : Ctx} {m n : ℕ} {paths paths' : List (String × BindingValueType)}
    (h : Steps ctx m paths ctx') (hcount : m = n) (hpaths : paths = paths') :
    Steps ctx n paths' ctx' := by
  subst hcount hpaths
  exact h

variable {lib : JsonLib}

/-- A rendering expands the nodes of its components and registers exactly their paths. -/
theorem Renders.steps {depth : ℕ} {comps : List Component} {ctx ctx' : Ctx}
    {out : List (List Markup)} (h : Renders lib depth comps ctx out ctx') (hctx : ctx.Valid) :
    Steps ctx (nodesChildren comps).length ((nodesChildren comps).flatMap ownPaths) ctx' := by
  induction h with
  | nil => exact Steps.refl hctx
  | leaf hdepth hshape hleaf _ ih =>
    have henter := Steps.enter hctx
    obtain ⟨hsteps,-⟩ := leafPieces_emits henter.valid hleaf
    have hall := (henter.trans hsteps).trans (ih hsteps.valid)
    refine hall.cast ?_ ?_
    · simp [nodesChildren, nodes_leaf hshape]
      omega
    · simp [nodesChildren, nodes_leaf hshape, ownPaths, hshape]
  | container hdepth hshape _ hcontents _ ihinner ih =>
    have henter := Steps.enter hctx
    have hinner := ihinner henter.valid
    have hall := (henter.trans hinner).trans (ih hinner.valid)
    refine hall.cast ?_ ?_
    · simp [nodesChildren, nodes_container hshape]
      omega
    · simp [nodesChildren, nodes_container hshape, ownPaths, hshape]
  | thenOnly hdepth hshape hwhen hslot hthen helse _ _ ihshown ih =>
    have henter := Steps.enter hctx
    obtain ⟨-,hsteps,-⟩ := bindingSlot_steps henter.valid hslot
    have hshown := ihshown hsteps.valid
    have hall := ((henter.trans hsteps).trans hshown).trans (ih hshown.valid)
    refine hall.cast ?_ ?_
    · simp [nodesChildren, nodes_branch hshape, hthen, helse, nodesBranch]
      omega
    · simp [nodesChildren, nodes_branch hshape, hthen, helse, nodesBranch, ownPaths, hshape, hwhen,
        controlPath]
  | thenElse hdepth hshape hwhen hslot hthen helse _ _ _ ihshown ihhidden ih =>
    have henter := Steps.enter hctx
    obtain ⟨-,hsteps,-⟩ := bindingSlot_steps henter.valid hslot
    have hshown := ihshown hsteps.valid
    have hhidden := ihhidden hshown.valid
    have hall := (((henter.trans hsteps).trans hshown).trans hhidden).trans (ih hhidden.valid)
    refine hall.cast ?_ ?_
    · simp [nodesChildren, nodes_branch hshape, hthen, helse, nodesBranch]
      omega
    · simp [nodesChildren, nodes_branch hshape, hthen, helse, nodesBranch, ownPaths, hshape, hwhen,
        controlPath]
  | loop hdepth hshape hitems hslot htemplate _ hkey _ ihinner ih =>
    have henter := Steps.enter hctx
    obtain ⟨-,hsteps,-⟩ := bindingSlot_steps henter.valid hslot
    have hinner := ihinner hsteps.valid
    have hall := ((henter.trans hsteps).trans hinner).trans (ih hinner.valid)
    refine hall.cast ?_ ?_
    · simp [nodesChildren, nodes_loop hshape, htemplate, nodesBranch]
      omega
    · simp [nodesChildren, nodes_loop hshape, htemplate, nodesBranch, ownPaths, hshape, hitems,
        controlPath]

mutual

/-- The pieces of a part of the source. -/
def Markup.pieces : Markup → List Piece
  | .text pieces => pieces
  | .guard condition => condition.pieces
  | .leaf _ pieces => pieces
  | .block _ content => piecesList content
  | .row content => piecesList content

def piecesList : List Markup → List Piece
  | [] => []
  | m :: rest => m.pieces ++ piecesList rest

end

theorem piecesList_append (xs ys : List Markup) :
    piecesList (xs ++ ys) = piecesList xs ++ piecesList ys := by
  induction xs with
  | nil => rfl
  | cons x xs ih => rw [List.cons_append, piecesList, piecesList, ih, List.append_assoc]

theorem mem_piecesList {piece : Piece} {markup : List Markup} (h : piece ∈ piecesList markup) :
    ∃ m ∈ markup, piece ∈ m.pieces := by
  induction markup with
  | nil => cases h
  | cons m rest ih =>
    rw [piecesList] at h
    rcases List.mem_append.mp h with hm | hrest
    · exact ⟨m,List.mem_cons_self,hm⟩
    · obtain ⟨m',hm',hpiece⟩ := ih hrest
      exact ⟨m',List.mem_cons_of_mem _ hm',hpiece⟩

theorem piecesList_flatten {inner : List (List Markup)} {piece : Piece}
    (h : piece ∈ piecesList inner.flatten) : ∃ ms ∈ inner, piece ∈ piecesList ms := by
  induction inner with
  | nil => cases h
  | cons ms inner ih =>
    rw [List.flatten_cons, piecesList_append] at h
    rcases List.mem_append.mp h with hms | hinner
    · exact ⟨ms,List.mem_cons_self,hms⟩
    · obtain ⟨ms',hms',hpiece⟩ := ih hinner
      exact ⟨ms',List.mem_cons_of_mem _ hms',hpiece⟩

theorem pxProp_sound (comp : Component) (ctx : Ctx) (prop : String) {target : String}
    (htarget : isPlain target = true) : Sounds comp ctx (pxProp comp prop target) := by
  unfold pxProp
  split
  · simp only [sounds_cons, sound_host, sound_number, sounds_nil, true_and, and_true]
    rw [isPlain_append, isPlain_append]
    exact ⟨⟨⟨isPlain_ofList _ rfl,htarget⟩,isPlain_ofList _ rfl⟩,isPlain_ofList _ rfl⟩
  · exact sounds_nil

theorem renderLayoutProps_sound (comp : Component) (ctx : Ctx) :
    Sounds comp ctx (renderLayoutProps comp) := by
  rw [renderLayoutProps, sounds_append]
  exact ⟨pxProp_sound _ _ _ (isPlain_ofList _ rfl),pxProp_sound _ _ _ (isPlain_ofList _ rfl)⟩

theorem mem_layoutChildren {inner : List (List Markup)} {piece : Piece}
    (h : piece ∈ piecesList (layoutChildren inner)) :
    piece = .host "\n" ∨ ∃ ms ∈ inner, piece ∈ piecesList ms := by
  induction inner with
  | nil => cases h
  | cons ms inner ih =>
    rw [layoutChildren, List.flatMap_cons, piecesList_append, piecesList_append] at h
    simp only [piecesList, Markup.pieces, List.append_nil, List.mem_append,
      List.mem_singleton] at h
    rcases h with (hms | hbreak) | hrest
    · exact Or.inr ⟨ms,List.mem_cons_self,hms⟩
    · exact Or.inl hbreak
    · rcases ih hrest with hbreak | ⟨ms',hms',hpiece⟩
      · exact Or.inl hbreak
      · exact Or.inr ⟨ms',List.mem_cons_of_mem _ hms',hpiece⟩

section Containers

variable {comp : Component} {inner : List (List Markup)} {piece : Piece} (ctx : Ctx)

theorem layoutBlock_pieces {layout : String} (hlayout : isPlain layout = true)
    (h : piece ∈ (layoutBlock comp layout inner).pieces) :
    piece.Sound comp ctx ∨ ∃ ms ∈ inner, piece ∈ piecesList ms := by
  have hhead : Sounds comp ctx ([.host (layout ++ " \x7b\n")] ++ renderLayoutProps comp) := by
    simp only [sounds_append, sounds_cons, sound_host, sounds_nil, and_true]
    exact ⟨(isPlain_append _ _).mpr ⟨hlayout,isPlain_ofList _ rfl⟩,renderLayoutProps_sound comp ctx⟩
  rw [layoutBlock, Markup.pieces, piecesList_append, piecesList_append] at h
  rcases List.mem_append.mp h with h | hfoot
  · rcases List.mem_append.mp h with hstart | hinner
    · simp only [piecesList, Markup.pieces, List.append_nil] at hstart
      exact Or.inl (hhead piece hstart)
    · rcases mem_layoutChildren hinner with rfl | hms
      · left
        rw [sound_host]
        exact isPlain_ofList _ rfl
      · exact Or.inr hms
  · simp only [piecesList, Markup.pieces, List.append_nil, List.mem_singleton] at hfoot
    subst hfoot
    left
    rw [sound_host]
    exact isPlain_ofList _ rfl

theorem chunksFrom_flatten {α : Type} (columns : ℕ) (row xs : List α) :
    (chunksFrom columns row xs).flatten = row ++ xs := by
  induction xs generalizing row with
  | nil =>
    cases row <;> simp [chunksFrom]
  | cons x xs ih =>
    rw [chunksFrom]
    split_ifs
    · rw [List.flatten_cons, ih]
      simp
    · rw [ih]
      simp

theorem gridBlock_pieces (h : piece ∈ (gridBlock comp inner).pieces) :
    piece.Sound comp ctx ∨ ∃ ms ∈ inner, piece ∈ piecesList ms := by
  have hhead : Sounds comp ctx ([.host "GridLayout \x7b\n"] ++ renderLayoutProps comp) := by
    simp only [sounds_append, sounds_cons, sound_host, sounds_nil, and_true]
    exact ⟨isPlain_ofList _ rfl,renderLayoutProps_sound comp ctx⟩
  rw [gridBlock, Markup.pieces, piecesList_append, piecesList_append] at h
  rcases List.mem_append.mp h with h | hfoot
  · rcases List.mem_append.mp h with hstart | hrows
    · simp only [piecesList, Markup.pieces, List.append_nil] at hstart
      exact Or.inl (hhead piece hstart)
    · obtain ⟨m,hm,hpiece⟩ := mem_piecesList hrows
      obtain ⟨row,hrow,rfl⟩ := List.mem_map.mp hm
      rw [Markup.pieces] at hpiece
      obtain ⟨ms,hms,hpiece⟩ := piecesList_flatten hpiece
      have hmem : ms ∈ (chunksFrom (gridColumns comp) [] inner).flatten :=
        List.mem_flatten.mpr ⟨row,hrow,hms⟩
      rw [chunksFrom_flatten, List.nil_append] at hmem
      exact Or.inr ⟨ms,hmem,hpiece⟩
  · simp only [piecesList, Markup.pieces, List.append_nil, List.mem_singleton] at hfoot
    subst hfoot
    left
    rw [sound_host]
    exact isPlain_ofList _ rfl

theorem condition_sound {condition : Condition}
    (hslot : ∀ slot, condition = .isTrue slot ∨ condition = .isFalse slot →
      ctx.bindings.get slot.path = some slot) : Sounds comp ctx condition.pieces := by
  cases condition with
  | isTrue slot =>
    simp only [Condition.pieces, sounds_cons, sound_host, sound_prop, sounds_nil, and_true]
    exact ⟨isPlain_ofList _ rfl,hslot slot (Or.inl rfl),isPlain_ofList _ rfl⟩
  | isFalse slot =>
    simp only [Condition.pieces, sounds_cons, sound_host, sound_prop, sounds_nil, and_true]
    exact ⟨isPlain_ofList _ rfl,hslot slot (Or.inr rfl),isPlain_ofList _ rfl⟩
  | below breakpoint =>
    simp only [Condition.pieces, sounds_cons, sound_host, sound_number, sounds_nil, true_and,
      and_true]
    exact ⟨isPlain_ofList _ rfl,isPlain_ofList _ rfl⟩
  | atLeast breakpoint =>
    simp only [Condition.pieces, sounds_cons, sound_host, sound_number, sounds_nil, true_and,
      and_true]
    exact ⟨isPlain_ofList _ rfl,isPlain_ofList _ rfl⟩

theorem contents_pieces {markup : List Markup} (hcontents : Contents comp inner markup)
    (h : piece ∈ piecesList markup) :
    piece.Sound comp ctx ∨ ∃ ms ∈ inner, piece ∈ piecesList ms := by
  cases hcontents with
  | layout layout hlayout hkind =>
    simp only [piecesList, List.append_nil] at h
    have hall : ∀ name ∈ ["VerticalLayout","HorizontalLayout","StackLayout"],
        isPlain name = true := by
      simp only [List.forall_mem_cons]
      and_intros
      all_goals first | exact isPlain_ofList _ rfl | simp
    exact layoutBlock_pieces ctx (hall layout hlayout) h
  | grid hkind =>
    simp only [piecesList, List.append_nil] at h
    exact gridBlock_pieces ctx h
  | responsive breakpoint hkind hbreakpoint =>
    simp only [responsiveBlocks, piecesList, List.append_nil, List.mem_append] at h
    have hbelow : Sounds comp ctx (Condition.below breakpoint).pieces :=
      condition_sound ctx (by simp)
    have hatLeast : Sounds comp ctx (Condition.atLeast breakpoint).pieces :=
      condition_sound ctx (by simp)
    rcases h with hguard | hnarrow | hguard | hwide
    · exact Or.inl (hbelow piece hguard)
    · exact layoutBlock_pieces ctx (isPlain_ofList _ rfl) hnarrow
    · exact Or.inl (hatLeast piece hguard)
    · exact layoutBlock_pieces ctx (isPlain_ofList _ rfl) hwide

end Containers

/-- A piece is a sound piece of one of the components, or the key of a loop. -/
def Piece.SoundIn (comps : List Component) (ctx : Ctx) (piece : Piece) : Prop :=
  (∃ comp ∈ comps, piece.Sound comp ctx) ∨
    (∃ text, piece = .raw text) ∧ ∃ comp ∈ comps, shapeOf comp = .loop

theorem Piece.SoundIn.mono {comps comps' : List Component} {ctx ctx' : Ctx} {piece : Piece}
    {count : ℕ} {paths : List (String × BindingValueType)} (h : piece.SoundIn comps ctx)
    (hcomps : comps ⊆ comps') (hsteps : Steps ctx count paths ctx') :
    piece.SoundIn comps' ctx' := by
  rcases h with ⟨comp,hcomp,hsound⟩ | ⟨hraw,comp,hcomp,hshape⟩
  · have hsingle : Sounds comp ctx [piece] := (sounds_cons _ _).mpr ⟨hsound,sounds_nil⟩
    exact Or.inl ⟨comp,hcomps hcomp,((sounds_cons _ _).mp (hsingle.mono hsteps)).1⟩
  · exact Or.inr ⟨hraw,comp,hcomps hcomp,hshape⟩

theorem loopBlock_pieces {comp : Component} {key : List Piece} {slot : BindingSlot}
    {inner : List Markup} {piece : Piece} {ctx : Ctx} (hkey : itemKey comp = .ok key)
    (hslot : ctx.bindings.get slot.path = some slot)
    (h : piece ∈ (loopBlock comp key slot inner).pieces) :
    piece.Sound comp ctx ∨ (∃ text, piece = .raw text) ∨ piece ∈ piecesList inner := by
  have hhost : ∀ text ∈ ["for item[","] in root.",": \x7b\n","\x7d\n","item"],
      isPlain text = true := by
    simp only [List.forall_mem_cons]
    and_intros
    all_goals first | exact isPlain_ofList _ rfl | simp
  have hsound : ∀ text ∈ ["for item[","] in root.",": \x7b\n","\x7d\n","item"],
      piece = .host text → piece.Sound comp ctx := by
    rintro text htext rfl
    exact hhost text htext
  simp only [loopBlock, Markup.pieces, piecesList_append, piecesList, List.append_nil,
    List.mem_append, List.mem_cons, List.not_mem_nil, or_false] at h
  rcases h with (((hfor | hmem) | hin | hprop | hopen) | hinner) | hclose
  · exact Or.inl (hsound _ (by simp) hfor)
  · unfold itemKey at hkey
    split at hkey
    · split_ifs at hkey
      · cases hkey
      · obtain rfl := Except.ok.inj hkey
        exact Or.inr (Or.inl ⟨_,List.mem_singleton.mp hmem⟩)
    · obtain rfl := Except.ok.inj hkey
      exact Or.inl (hsound _ (by simp) (List.mem_singleton.mp hmem))
  · exact Or.inl (hsound _ (by simp) hin)
  · subst hprop
    exact Or.inl hslot
  · exact Or.inl (hsound _ (by simp) hopen)
  · exact Or.inr (Or.inr hinner)
  · exact Or.inl (hsound _ (by simp) hclose)

theorem bindingSlot_get {bind : String} {valueType : BindingValueType} {ctx ctx' : Ctx}
    {slot : BindingSlot} (hctx : ctx.Valid)
    (h : bindingSlot bind valueType ctx = .ok (slot,ctx')) :
    ctx'.bindings.get slot.path = some slot := by
  obtain ⟨hslot,-,hget⟩ := bindingSlot_steps hctx h
  rw [hslot] at hget ⊢
  exact hget

section Cases

variable {comp : Component} {comps rest : List Component} {ctx ctx' : Ctx} {count : ℕ}
  {paths : List (String × BindingValueType)}

theorem Piece.Sound.soundIn {piece : Piece} (h : piece.Sound comp ctx) (hcomp : comp ∈ comps)
    (hsteps : Steps ctx count paths ctx') : piece.SoundIn comps ctx' := by
  have hsound : piece.SoundIn [comp] ctx := Or.inl ⟨comp,List.mem_singleton_self comp,h⟩
  exact hsound.mono (by simpa using hcomp) hsteps

/-- A sound piece of the later nodes. -/
theorem Piece.SoundIn.later {piece : Piece} (h : piece.SoundIn (nodesChildren rest) ctx)
    (hctx : ctx.Valid) : piece.SoundIn (nodesChildren (comp :: rest)) ctx :=
  h.mono (by simp [nodesChildren]) (Steps.refl hctx)

theorem mem_nodesChildren_self : comp ∈ nodesChildren (comp :: rest) := by
  rw [nodesChildren, nodes_of_shape]
  exact List.mem_cons_self

theorem children_subset (hshape : shapeOf comp = .container) :
    nodesChildren comp.children ⊆ nodesChildren (comp :: rest) := by
  intro node hnode
  simp [nodesChildren, nodes_container hshape, hnode]

theorem branches_subset {branch : Component} (hshape : shapeOf comp = .branch)
    (hbranch : comp.then_ = some branch ∨ comp.else_ = some branch) :
    nodesChildren [branch] ⊆ nodesChildren (comp :: rest) := by
  intro node hnode
  have hnode : node ∈ nodes branch := by simpa [nodesChildren] using hnode
  rcases hbranch with hthen | helse
  · simp [nodesChildren, nodes_branch hshape, hthen, nodesBranch, hnode]
  · simp [nodesChildren, nodes_branch hshape, helse, nodesBranch, hnode]

theorem template_subset {template : Component} (hshape : shapeOf comp = .loop)
    (htemplate : comp.template = some template) :
    nodesChildren [template] ⊆ nodesChildren (comp :: rest) := by
  intro node hnode
  have hnode : node ∈ nodes template := by simpa [nodesChildren] using hnode
  simp [nodesChildren, nodes_loop hshape, htemplate, nodesBranch, hnode]

/-- What a container makes of sound children is sound. -/
theorem contents_soundIn {inner : List (List Markup)} {markup : List Markup}
    (hshape : shapeOf comp = .container) (hcontents : Contents comp inner markup)
    (hinner : ∀ ms ∈ inner, ∀ piece ∈ piecesList ms,
      piece.SoundIn (nodesChildren comp.children) ctx)
    (hsteps : Steps ctx count paths ctx') :
    ∀ piece ∈ piecesList markup, piece.SoundIn (nodesChildren (comp :: rest)) ctx' := by
  intro piece hpiece
  rcases contents_pieces ctx hcontents hpiece with hsound | ⟨ms,hms,hmem⟩
  · exact hsound.soundIn mem_nodesChildren_self hsteps
  · exact (hinner ms hms piece hmem).mono (children_subset hshape) hsteps

/-- A sound branch stays sound behind the guard of its If. -/
theorem guarded_soundIn {condition : Condition} {slot : BindingSlot} {markup : List Markup}
    (hcondition : condition = .isTrue slot ∨ condition = .isFalse slot)
    (hget : ctx.bindings.get slot.path = some slot) (hcomp : comp ∈ comps)
    (hsteps : Steps ctx count paths ctx')
    (hmarkup : ∀ piece ∈ piecesList markup, piece.SoundIn comps ctx') :
    ∀ piece ∈ piecesList (.guard condition :: markup), piece.SoundIn comps ctx' := by
  intro piece hpiece
  rw [piecesList, Markup.pieces] at hpiece
  rcases List.mem_append.mp hpiece with hguard | hmem
  · have hsounds : Sounds comp ctx condition.pieces :=
      condition_sound ctx (by rcases hcondition with rfl | rfl <;> simpa using hget)
    exact (hsounds piece hguard).soundIn hcomp hsteps
  · exact hmarkup piece hmem

/-- A sound template stays sound in its loop, the key apart. -/
theorem loop_soundIn {key : List Piece} {slot : BindingSlot} {markup : List Markup}
    (hshape : shapeOf comp = .loop) (hkey : itemKey comp = .ok key)
    (hget : ctx.bindings.get slot.path = some slot) (hcomp : comp ∈ comps)
    (hsteps : Steps ctx count paths ctx')
    (hmarkup : ∀ piece ∈ piecesList markup, piece.SoundIn comps ctx') :
    ∀ piece ∈ piecesList [loopBlock comp key slot markup], piece.SoundIn comps ctx' := by
  intro piece hpiece
  simp only [piecesList, List.append_nil] at hpiece
  rcases loopBlock_pieces hkey hget hpiece with hsound | hraw | hmem
  · exact hsound.soundIn hcomp hsteps
  · exact Or.inr ⟨hraw,comp,hcomp,hshape⟩
  · exact hmarkup piece hmem

end Cases

/-- Every piece of a rendering is sound. -/
theorem Renders.pieces {depth : ℕ} {comps : List Component} {ctx ctx' : Ctx}
    {out : List (List Markup)} (h : Renders lib depth comps ctx out ctx') (hctx : ctx.Valid) :
    ∀ ms ∈ out, ∀ piece ∈ piecesList ms, piece.SoundIn (nodesChildren comps) ctx' := by
  induction h with
  | nil => simp
  | leaf hdepth hshape hleaf hrest ih =>
    obtain ⟨hsteps,hsounds⟩ := leafPieces_emits (Steps.enter hctx).valid hleaf
    have hrestSteps := hrest.steps hsteps.valid
    rw [List.forall_mem_cons]
    refine ⟨fun piece hpiece => ?_,fun ms hms piece hpiece => ?_⟩
    · simp only [piecesList, Markup.pieces, List.append_nil] at hpiece
      exact (hsounds piece hpiece).soundIn mem_nodesChildren_self hrestSteps
    · exact (ih hsteps.valid ms hms piece hpiece).later hrestSteps.valid
  | container hdepth hshape hinner hcontents hrest ihinner ih =>
    have henter := Steps.enter hctx
    have hinnerSteps := hinner.steps henter.valid
    have hrestSteps := hrest.steps hinnerSteps.valid
    rw [List.forall_mem_cons]
    refine ⟨?_,fun ms hms piece hpiece => ?_⟩
    · exact contents_soundIn hshape hcontents (ihinner henter.valid) hrestSteps
    · exact (ih hinnerSteps.valid ms hms piece hpiece).later hrestSteps.valid
  | @thenOnly depth comp shown rest ctx ctx₁ ctx₂ ctx₃ bind slot markup out hdepth hshape hwhen
      hslot hthen helse hshown hrest ihshown ih =>
    have henter := Steps.enter hctx
    obtain ⟨-,hsteps,-⟩ := bindingSlot_steps henter.valid hslot
    have hget := bindingSlot_get henter.valid hslot
    have hshownSteps := hshown.steps hsteps.valid
    have hrestSteps := hrest.steps hshownSteps.valid
    rw [List.forall_mem_cons]
    refine ⟨?_,fun ms hms piece hpiece => ?_⟩
    · refine guarded_soundIn (Or.inl rfl) hget mem_nodesChildren_self
        (hshownSteps.trans hrestSteps) fun piece hpiece => ?_
      have hsound := ihshown hsteps.valid markup (List.mem_singleton_self markup) piece hpiece
      exact hsound.mono (branches_subset hshape (Or.inl hthen)) hrestSteps
    · exact (ih hshownSteps.valid ms hms piece hpiece).later hrestSteps.valid
  | @thenElse depth comp shown hidden rest ctx ctx₁ ctx₂ ctx₃ ctx₄ bind slot markup markup' out
      hdepth hshape hwhen hslot hthen helse hshown hhidden hrest ihshown ihhidden ih =>
    have henter := Steps.enter hctx
    obtain ⟨-,hsteps,-⟩ := bindingSlot_steps henter.valid hslot
    have hget := bindingSlot_get henter.valid hslot
    have hshownSteps := hshown.steps hsteps.valid
    have hhiddenSteps := hhidden.steps hshownSteps.valid
    have hrestSteps := hrest.steps hhiddenSteps.valid
    have hlater := (hshownSteps.trans hhiddenSteps).trans hrestSteps
    rw [List.forall_mem_cons]
    refine ⟨fun piece hpiece => ?_,fun ms hms piece hpiece => ?_⟩
    · rw [piecesList_append] at hpiece
      rcases List.mem_append.mp hpiece with hmem | hmem
      · refine guarded_soundIn (Or.inl rfl) hget mem_nodesChildren_self hlater
          (fun piece hpiece => ?_) piece hmem
        have hsound := ihshown hsteps.valid markup (List.mem_singleton_self markup) piece hpiece
        exact hsound.mono (branches_subset hshape (Or.inl hthen)) (hhiddenSteps.trans hrestSteps)
      · refine guarded_soundIn (Or.inr rfl) hget mem_nodesChildren_self hlater
          (fun piece hpiece => ?_) piece hmem
        have hsound :=
          ihhidden hshownSteps.valid markup' (List.mem_singleton_self markup') piece hpiece
        exact hsound.mono (branches_subset hshape (Or.inr helse)) hrestSteps
    · exact (ih hhiddenSteps.valid ms hms piece hpiece).later hrestSteps.valid
  | @loop depth comp template rest ctx ctx₁ ctx₂ ctx₃ bind slot key markup out hdepth hshape hitems
      hslot htemplate hinner hkey hrest ihinner ih =>
    have henter := Steps.enter hctx
    obtain ⟨-,hsteps,-⟩ := bindingSlot_steps henter.valid hslot
    have hget := bindingSlot_get henter.valid hslot
    have hinnerSteps := hinner.steps hsteps.valid
    have hrestSteps := hrest.steps hinnerSteps.valid
    rw [List.forall_mem_cons]
    refine ⟨?_,fun ms hms piece hpiece => ?_⟩
    · refine loop_soundIn hshape hkey hget mem_nodesChildren_self (hinnerSteps.trans hrestSteps)
        fun piece hpiece => ?_
      have hsound := ihinner hsteps.valid markup (List.mem_singleton_self markup) piece hpiece
      exact hsound.mono (template_subset hshape htemplate) hrestSteps
    · exact (ih hinnerSteps.valid ms hms piece hpiece).later hrestSteps.valid

theorem startCtx_valid (doc : UiDocument) : (startCtx doc).Valid where
  named path slot hslot := by cases hslot
  counted event slot hslot := by cases hslot
  distinct event event' slot slot' hslot := by cases hslot

/-- A rendered document, with the body of its source and the paths and events that it registers. -/
structure Rendering (lib : JsonLib) (doc : UiDocument) (r : RenderedComponent) (body : List Markup)
    (ctx : Ctx) : Prop where
  validated : validateDocument lib.irBytes doc = .ok ()
  renders : Renders lib 0 [doc.root] (startCtx doc) [body] ctx
  steps : Steps (startCtx doc) (nodes doc.root).length (boundPaths doc.root) ctx
  bindings : r.bindings = ctx.bindings.entries.map Prod.snd
  events : r.events = ctx.events.entries.map Prod.snd
  markup : r.markup = wrapComponent body r.bindings r.events

theorem rendering_of_ok {doc : UiDocument} {r : RenderedComponent}
    (h : renderComponent lib doc = .ok r) : ∃ body ctx, Rendering lib doc r body ctx := by
  obtain ⟨u,hvalidated,h⟩ := bind_eq_ok.mp h
  obtain ⟨⟨body,ctx⟩,hnode,h⟩ := bind_eq_ok.mp h
  cases h
  have hrenders := renderNode_renders hnode
  have hsteps := hrenders.steps (startCtx_valid doc)
  refine ⟨body,ctx,⟨Checked.mapError_eq_ok.mp hvalidated,hrenders,?_,rfl,rfl,rfl⟩⟩
  exact hsteps.cast (by simp [nodesChildren]) (by simp [nodesChildren, boundPaths])

section Documents

variable {doc : UiDocument} {r : RenderedComponent} {body : List Markup} {ctx : Ctx}

/-- The slots of a rendered document are those of its bound paths. -/
theorem Rendering.get_iff (h : Rendering lib doc r body ctx) (path : String) (slot : BindingSlot) :
    ctx.bindings.get path = some slot ↔
      slot = slotOf path slot.valueType ∧ (path,slot.valueType) ∈ boundPaths doc.root := by
  rw [h.steps.bindings]
  simp [startCtx]

theorem Rendering.mem_bindings (h : Rendering lib doc r body ctx) (slot : BindingSlot) :
    slot ∈ r.bindings ↔ ctx.bindings.get slot.path = some slot := by
  rw [h.bindings, List.mem_map]
  constructor
  · rintro ⟨⟨path,entry⟩,hmem,rfl⟩
    have hget := (OrdMap.mem_entries_iff _ _ _).mp hmem
    have hnamed := h.steps.valid.named path entry hget
    rw [hnamed] at hget ⊢
    exact hget
  · intro hget
    exact ⟨(slot.path,slot),(OrdMap.mem_entries_iff _ _ _).mpr hget,rfl⟩

/-- Every bound path has its slot. -/
theorem Rendering.slot_mem (h : Rendering lib doc r body ctx) {path : String}
    {valueType : BindingValueType} (hmem : (path,valueType) ∈ boundPaths doc.root) :
    slotOf path valueType ∈ r.bindings :=
  (h.mem_bindings _).mpr ((h.get_iff _ _).mpr ⟨rfl,hmem⟩)

theorem Rendering.mem_boundPaths (h : Rendering lib doc r body ctx) {slot : BindingSlot}
    (hslot : slot ∈ r.bindings) :
    slot = slotOf slot.path slot.valueType ∧ (slot.path,slot.valueType) ∈ boundPaths doc.root :=
  (h.get_iff _ _).mp ((h.mem_bindings _).mp hslot)

end Documents

end Floatile.Renderer
