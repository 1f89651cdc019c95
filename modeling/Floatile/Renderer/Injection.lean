import Floatile.Renderer.Names

/-! Where the texts of a document stand in the generated source: in literals, in numbers and
colours, and in the names of slots. The keys of loops and the items that props are bound to are
copied as they are. -/
namespace Floatile.Renderer

open Floatile.Lib
open Floatile.Lib.Checked (bind_eq_ok)
open Floatile.Core
open Floatile.UiSchema

def Piece.copied : Piece → List String
  | .raw text => [text]
  | _ => []

@[simp] theorem Piece.copied_host (text : String) : (Piece.host text).copied = [] := rfl

@[simp] theorem Piece.copied_number (value : Float) : (Piece.number value).copied = [] := rfl

@[simp] theorem Piece.copied_raw (text : String) : (Piece.raw text).copied = [text] := rfl

@[simp] theorem Piece.copied_prop (slot : BindingSlot) : (Piece.prop slot).copied = [] := rfl

@[simp] theorem Piece.copied_callback (slot : EventSlot) : (Piece.callback slot).copied = [] := rfl

/-- The texts of the document that are copied as they are. -/
def copied (pieces : List Piece) : List String := pieces.flatMap Piece.copied

@[simp] theorem copied_nil : copied [] = [] := rfl

@[simp] theorem copied_cons (piece : Piece) (pieces : List Piece) :
    copied (piece :: pieces) = piece.copied ++ copied pieces := rfl

@[simp] theorem copied_append (pieces rest : List Piece) :
    copied (pieces ++ rest) = copied pieces ++ copied rest := List.flatMap_append

theorem copied_flatten {groups : List (List Piece)} (h : ∀ group ∈ groups, copied group = []) :
    copied groups.flatten = [] := by
  induction groups with
  | nil => rfl
  | cons group groups ih =>
    rw [List.forall_mem_cons] at h
    rw [List.flatten_cons, copied_append, h.1, ih h.2]
    rfl

/-- The item that a prop is bound to. -/
def itemProp (comp : Component) (prop : String) : List String :=
  match comp.props.get prop with
  | some (.binding (.item item)) => [item]
  | _ => []

def leafItems (comp : Component) : List String :=
  (slotProps comp.kind).flatMap (fun e => itemProp comp e.1)

/-- The texts that the generation of a node copies. -/
def copiedTexts (comp : Component) : List String :=
  match shapeOf comp with
  | .leaf => leafItems comp
  | .container => []
  | .branch => []
  | .loop => comp.key.toList

section Leaves

variable {lib : JsonLib} {comp : Component} {ctx ctx' : Ctx} {pieces : List Piece}

theorem encodeString_copied {s : String} {piece : Piece} (h : encodeString s = .ok piece) :
    piece.copied = [] := by
  obtain ⟨encoded,-,h⟩ := bind_eq_ok.mp h
  cases h
  rfl

theorem colorLiteral_copied {s : String} {piece : Piece} (h : colorLiteral s = .ok piece) :
    piece.copied = [] := by
  unfold colorLiteral at h
  dsimp only at h
  split_ifs at h
  cases h
  rfl

theorem renderStringProp_copied {prop : String}
    (h : renderStringProp lib comp prop ctx = .ok (pieces,ctx')) :
    copied pieces = itemProp comp prop := by
  unfold renderStringProp at h
  split at h
  · rename_i bind hprop
    obtain ⟨⟨slot,ctx₁⟩,-,h⟩ := bind_eq_ok.mp h
    cases h
    simp [itemProp, hprop]
  · rename_i item hprop
    cases h
    simp [itemProp, hprop]
  · rename_i value hprop
    obtain ⟨text,-,h⟩ := bind_eq_ok.mp h
    obtain ⟨literal,hliteral,h⟩ := bind_eq_ok.mp h
    cases h
    simp [itemProp, hprop, encodeString_copied hliteral]
  · cases h

theorem renderAccessibilityLabel_copied
    (h : renderAccessibilityLabel lib comp ctx = .ok (pieces,ctx')) :
    copied pieces = itemProp comp "accessibilityLabel" := by
  unfold renderAccessibilityLabel at h
  split_ifs at h with hold
  · obtain ⟨literal,hliteral,h⟩ := bind_eq_ok.mp h
    cases h
    simp [itemProp, Option.isNone_iff_eq_none.mp hold.2, encodeString_copied hliteral]
  · exact renderStringProp_copied h

theorem toggleChecked_copied (h : toggleChecked comp ctx = .ok (pieces,ctx')) :
    copied pieces = itemProp comp "checked" := by
  unfold toggleChecked at h
  split at h
  · rename_i bind hprop
    obtain ⟨⟨slot,ctx₁⟩,-,h⟩ := bind_eq_ok.mp h
    cases h
    simp [itemProp, hprop]
  · rename_i item hprop
    cases h
    simp [itemProp, hprop]
  · rename_i value hprop
    split at h
    · cases h
      simp [itemProp, hprop]
    · cases h
  · cases h

theorem meterValue_copied (h : meterValue comp ctx = .ok (pieces,ctx')) :
    copied pieces = [] ∧ itemProp comp "value" = [] := by
  unfold meterValue at h
  split at h
  · rename_i bind hprop
    obtain ⟨⟨slot,ctx₁⟩,-,h⟩ := bind_eq_ok.mp h
    cases h
    simp [itemProp, hprop]
  · cases h
  · rename_i value hprop
    split at h
    · cases h
      simp [itemProp, hprop]
    · cases h
  · cases h

theorem sparklineLabel_copied (h : sparklineLabel comp ctx = .ok (pieces,ctx')) :
    copied pieces = [] ∧ itemProp comp "label" = [] := by
  unfold sparklineLabel at h
  split at h
  · rename_i bind hprop
    obtain ⟨⟨slot,ctx₁⟩,-,h⟩ := bind_eq_ok.mp h
    cases h
    simp [itemProp, hprop]
  · rename_i value hprop
    split at h
    · obtain ⟨literal,hliteral,h⟩ := bind_eq_ok.mp h
      cases h
      simp [itemProp, hprop, encodeString_copied hliteral]
    · cases h
  · cases h

theorem sparklineBars_copied {color : String}
    (h : sparklineBars comp color ctx = .ok (pieces,ctx')) :
    copied pieces = [] ∧ itemProp comp "values" = [] := by
  unfold sparklineBars at h
  split at h
  · rename_i bind hprop
    obtain ⟨⟨slot,ctx₁⟩,-,h⟩ := bind_eq_ok.mp h
    cases h
    simp [itemProp, hprop]
  · rename_i value hprop
    split at h
    · obtain ⟨bars,hbars,h⟩ := bind_eq_ok.mp h
      cases h
      refine ⟨copied_flatten fun bar hbar => ?_,by simp [itemProp, hprop]⟩
      obtain ⟨value,-,hvalue⟩ := Checked.exists_of_mem_mapM hbars hbar
      unfold sparklineBar at hvalue
      split at hvalue
      · cases hvalue
        simp
      · cases hvalue
    · cases h
  · cases h

theorem renderListItems_copied {items : PropValue} (hprop : comp.props.get "items" = some items)
    (h : renderListItems comp items ctx = .ok (pieces,ctx')) :
    copied pieces = [] ∧ itemProp comp "items" = [] := by
  simp only [renderListItems, Checked.check_bind_eq_ok] at h
  replace h := h.2
  split at h
  · obtain ⟨⟨slot,ctx₁⟩,-,h⟩ := bind_eq_ok.mp h
    cases h
    simp [itemProp, hprop]
  · cases h
  · split at h
    · obtain ⟨children,hchildren,h⟩ := bind_eq_ok.mp h
      cases h
      have hitems : copied children.flatten = [] := by
        refine copied_flatten fun child hchild => ?_
        obtain ⟨item,-,hitem⟩ := Checked.exists_of_mem_mapM hchildren hchild
        unfold listItem at hitem
        split at hitem
        · obtain ⟨literal,hliteral,hitem⟩ := bind_eq_ok.mp hitem
          cases hitem
          simp [encodeString_copied hliteral]
        · cases hitem
      simp [itemProp, hprop, hitems]
    · cases h

theorem textStyleProps_copied {style : List Piece} (h : textStyleProps comp = .ok style) :
    copied style = [] := by
  obtain ⟨color,hcolor,h⟩ := bind_eq_ok.mp h
  have hcopied : copied color = [] := by
    unfold textColor at hcolor
    split at hcolor
    · split at hcolor
      · cases hcolor
        rfl
      · cases hcolor
    · split at hcolor
      · obtain ⟨literal,hliteral,hcolor⟩ := bind_eq_ok.mp hcolor
        cases hcolor
        simp [colorLiteral_copied hliteral]
      · cases hcolor
        rfl
  split at h
  · cases h
    simp [hcopied]
  · cases h
    exact hcopied

theorem renderMeter_copied (hkind : slotProps comp.kind =
    [("value",.number),("accessibilityLabel",.string)])
    (h : renderMeter lib comp ctx = .ok (pieces,ctx')) :
    copied pieces = [] ↔ leafItems comp = [] := by
  obtain ⟨⟨value,ctx₁⟩,hvalue,h⟩ := bind_eq_ok.mp h
  obtain ⟨⟨label,ctx₂⟩,hlabel,h⟩ := bind_eq_ok.mp h
  cases h
  simp [leafItems, hkind, meterValue_copied hvalue,
    renderAccessibilityLabel_copied hlabel]

/-- A leaf copies a text exactly when one of its props is bound to an item. -/
theorem renderLeaf_copied (h : renderLeaf lib comp ctx = .ok (pieces,ctx')) :
    copied pieces = [] ↔ leafItems comp = [] := by
  unfold renderLeaf at h
  split_ifs at h with hsparkline htext hbutton htoggle hprogress hbadge hgauge
  · obtain ⟨⟨label,ctx₁⟩,hlabel,h⟩ := bind_eq_ok.mp h
    obtain ⟨color,-,h⟩ := bind_eq_ok.mp h
    obtain ⟨⟨bars,ctx₂⟩,hbars,h⟩ := bind_eq_ok.mp h
    cases h
    simp [leafItems, hsparkline, slotProps, sparklineLabel_copied hlabel,
      sparklineBars_copied hbars]
  · obtain ⟨⟨text,ctx₁⟩,htextProp,h⟩ := bind_eq_ok.mp h
    obtain ⟨style,hstyle,h⟩ := bind_eq_ok.mp h
    cases h
    simp [leafItems, htext, slotProps, renderStringProp_copied htextProp,
      textStyleProps_copied hstyle]
  · obtain ⟨⟨label,ctx₁⟩,hlabel,h⟩ := bind_eq_ok.mp h
    obtain ⟨⟨callback,ctx₂⟩,-,h⟩ := bind_eq_ok.mp h
    cases h
    simp [leafItems, hbutton, slotProps, renderStringProp_copied hlabel]
  · obtain ⟨⟨checked,ctx₁⟩,hchecked,h⟩ := bind_eq_ok.mp h
    obtain ⟨⟨label,ctx₂⟩,hlabel,h⟩ := bind_eq_ok.mp h
    obtain ⟨⟨callback,ctx₃⟩,-,h⟩ := bind_eq_ok.mp h
    cases h
    simp [leafItems, htoggle, slotProps, tied, toggleChecked_copied hchecked,
      renderAccessibilityLabel_copied hlabel, and_comm]
  · exact renderMeter_copied (by simp [slotProps, hprogress]) h
  · obtain ⟨⟨label,ctx₁⟩,hlabel,h⟩ := bind_eq_ok.mp h
    obtain ⟨tone,-,h⟩ := bind_eq_ok.mp h
    obtain ⟨background,-,h⟩ := bind_eq_ok.mp h
    cases h
    simp [leafItems, hbadge, slotProps, renderStringProp_copied hlabel]
  · exact renderMeter_copied (by simp [slotProps, hgauge]) h

theorem leafPieces_copied (h : leafPieces lib comp ctx = .ok (pieces,ctx')) :
    copied pieces = [] ↔ leafItems comp = [] := by
  unfold leafPieces at h
  cases hitems : comp.props.get "items" with
  | none =>
    rw [hitems] at h
    exact renderLeaf_copied h
  | some items =>
    rw [hitems] at h
    dsimp only at h
    split_ifs at h with hlist
    · simp [leafItems, hlist, slotProps, renderListItems_copied hitems h]
    · exact renderLeaf_copied h

end Leaves

theorem copied_piecesList_flatten {groups : List (List Markup)} :
    copied (piecesList groups.flatten) = [] ↔ ∀ ms ∈ groups, copied (piecesList ms) = [] := by
  induction groups with
  | nil => simp [piecesList]
  | cons ms groups ih =>
    rw [List.flatten_cons, piecesList_append, copied_append, List.append_eq_nil_iff, ih,
      List.forall_mem_cons]

theorem pxProp_copied (comp : Component) (prop target : String) :
    copied (pxProp comp prop target) = [] := by
  unfold pxProp
  split <;> simp

section Blocks

variable {comp : Component} {inner : List (List Markup)}

theorem layoutChildren_copied : copied (piecesList (layoutChildren inner)) = [] ↔
    ∀ ms ∈ inner, copied (piecesList ms) = [] := by
  induction inner with
  | nil => simp [layoutChildren, piecesList]
  | cons ms inner ih =>
    rw [layoutChildren, List.flatMap_cons, piecesList_append, copied_append,
      List.append_eq_nil_iff, List.forall_mem_cons]
    refine and_congr ?_ ih
    simp [piecesList_append, piecesList, Markup.pieces]

theorem layoutBlock_copied (comp : Component) (layout : String) :
    copied (layoutBlock comp layout inner).pieces = [] ↔
      ∀ ms ∈ inner, copied (piecesList ms) = [] := by
  rw [← layoutChildren_copied]
  simp [layoutBlock, Markup.pieces, piecesList_append, piecesList, renderLayoutProps,
    pxProp_copied]

theorem rows_copied (rows : List (List (List Markup))) :
    copied (piecesList (rows.map (fun row => .row row.flatten))) = [] ↔
      ∀ ms ∈ rows.flatten, copied (piecesList ms) = [] := by
  induction rows with
  | nil => simp [piecesList]
  | cons row rows ih =>
    rw [List.map_cons, piecesList, copied_append, List.append_eq_nil_iff, Markup.pieces,
      copied_piecesList_flatten, ih, List.flatten_cons, List.forall_mem_append]

theorem gridBlock_copied (comp : Component) : copied (gridBlock comp inner).pieces = [] ↔
    ∀ ms ∈ inner, copied (piecesList ms) = [] := by
  have hrows := rows_copied (chunksFrom (gridColumns comp) [] inner)
  rw [chunksFrom_flatten, List.nil_append] at hrows
  rw [← hrows]
  simp [gridBlock, Markup.pieces, piecesList_append, piecesList, renderLayoutProps, pxProp_copied]

theorem condition_copied (condition : Condition) : copied condition.pieces = [] := by
  cases condition <;> rfl

/-- A container copies what its children copy. -/
theorem contents_copied {markup : List Markup} (h : Contents comp inner markup) :
    copied (piecesList markup) = [] ↔ ∀ ms ∈ inner, copied (piecesList ms) = [] := by
  cases h with
  | layout layout hlayout hkind =>
    rw [← layoutBlock_copied comp layout]
    simp [piecesList]
  | grid hkind =>
    rw [← gridBlock_copied comp]
    simp [piecesList]
  | responsive breakpoint hkind hbreakpoint =>
    simp [responsiveBlocks, piecesList, Markup.pieces, condition_copied, layoutBlock_copied]

theorem itemKey_copied {key : List Piece} (h : itemKey comp = .ok key) :
    copied key = comp.key.toList := by
  unfold itemKey at h
  split at h
  · rename_i text hkey
    split_ifs at h
    · cases h
    · cases h
      simp [hkey]
  · rename_i hkey
    cases h
    simp [hkey]

theorem loopBlock_copied {key : List Piece} {slot : BindingSlot} {markup : List Markup}
    (hkey : itemKey comp = .ok key) : copied (loopBlock comp key slot markup).pieces = [] ↔
      comp.key.toList = [] ∧ copied (piecesList markup) = [] := by
  simp [loopBlock, Markup.pieces, piecesList_append, piecesList, itemKey_copied hkey]

end Blocks

variable {lib : JsonLib}

/-- A rendering copies a text exactly when one of its nodes does. -/
theorem Renders.copied {depth : ℕ} {comps : List Component} {ctx ctx' : Ctx}
    {out : List (List Markup)} (h : Renders lib depth comps ctx out ctx') :
    (∀ ms ∈ out, Renderer.copied (piecesList ms) = []) ↔
      ∀ comp ∈ nodesChildren comps, copiedTexts comp = [] := by
  induction h with
  | nil => simp [nodesChildren]
  | leaf hdepth hshape hleaf _ ih =>
    rw [List.forall_mem_cons, ih, nodesChildren, List.forall_mem_append, nodes_leaf hshape,
      List.forall_mem_singleton, copiedTexts, hshape]
    simp [piecesList, Markup.pieces, leafPieces_copied hleaf]
  | container hdepth hshape _ hcontents _ ihinner ih =>
    rw [List.forall_mem_cons, ih, nodesChildren, List.forall_mem_append, nodes_container hshape,
      List.forall_mem_cons, copiedTexts, hshape, contents_copied hcontents, ihinner]
    simp
  | thenOnly hdepth hshape hwhen hslot hthen helse _ _ ihshown ih =>
    rw [List.forall_mem_singleton, nodesChildren, nodesChildren, List.append_nil] at ihshown
    rw [List.forall_mem_cons, ih, nodesChildren, List.forall_mem_append, nodes_branch hshape,
      hthen, helse, List.forall_mem_cons, copiedTexts, hshape, nodesBranch, nodesBranch,
      List.append_nil, ← ihshown]
    simp [piecesList, Markup.pieces, condition_copied]
  | thenElse hdepth hshape hwhen hslot hthen helse _ _ _ ihshown ihhidden ih =>
    rw [List.forall_mem_singleton, nodesChildren, nodesChildren, List.append_nil]
      at ihshown ihhidden
    rw [List.forall_mem_cons, ih, nodesChildren, List.forall_mem_append, nodes_branch hshape,
      hthen, helse, List.forall_mem_cons, copiedTexts, hshape, nodesBranch, nodesBranch,
      List.forall_mem_append, ← ihshown, ← ihhidden]
    simp [piecesList, piecesList_append, Markup.pieces, condition_copied]
  | loop hdepth hshape hitems hslot htemplate _ hkey _ ihinner ih =>
    rw [List.forall_mem_singleton, nodesChildren, nodesChildren, List.append_nil] at ihinner
    rw [List.forall_mem_cons, ih, nodesChildren, List.forall_mem_append, nodes_loop hshape,
      htemplate, List.forall_mem_cons, copiedTexts, hshape, nodesBranch, ← ihinner]
    simp [piecesList, loopBlock_copied hkey]

/-- The characters that the compiler of the generated source allows in identifiers. -/
structure IdentifierChars (identifier : Char → Bool) : Prop where
  word : ∀ c, c.isAlphanum = true ∨ c = '_' → identifier c = true
  quote : identifier '"' = false
  lineBreak : identifier '\n' = false

theorem IdentifierChars.text {identifier : Char → Bool} (h : IdentifierChars identifier)
    {text : String} (hwords : text.toList.all (fun c => c.isAlphanum || c == '_') = true) :
    ∀ c ∈ text.toList, identifier c = true := by
  intro c hc
  have hword := List.all_eq_true.mp hwords c hc
  rw [Bool.or_eq_true, beq_iff_eq] at hword
  exact h.word c hword

section Places

variable (identifier : Char → Bool)

/-- Nothing of the document is outside of literals, numbers, colours and identifiers. -/
def Piece.Confined : Piece → Prop
  | .host text => isPlain text = true
  | .quoted literal => Literal.IsLiteral literal
  | .number value => ∀ c ∈ (Decimal.displayF64 value).toList, Decimal.isNumberChar c = true
  | .color literal => ∀ c ∈ literal.toList, c = '#' ∨ Text.isAsciiHexDigit c = true
  | .raw _ => False
  | .prop slot => ∀ c ∈ slot.prop.toList, identifier c = true
  | .callback slot => ∀ c ∈ slot.callback.toList, identifier c = true

/-- Literals are the only texts of the document that are not code. -/
def Glyph.Allowed (s : Literal.Scan) (g : Glyph) : Prop :=
  match g.origin with
  | .host => s = .code
  | .quoted => s = .code → g.char = '"'
  | .number => s = .code ∧ Decimal.isNumberChar g.char = true
  | .color => s = .code ∧ (g.char = '#' ∨ Text.isAsciiHexDigit g.char = true)
  | .raw => False
  | .name => s = .code ∧ identifier g.char = true

/-- A generated source in which the document has no code of its own. -/
structure InjectionSafe (r : RenderedComponent) : Prop where
  pieces : ∀ piece ∈ piecesList r.markup, piece.Confined identifier
  source : Literal.Closed Glyph.char (Glyph.Allowed identifier) (glyphsList r.markup)

/-- The fields of a path are made of the characters of identifiers. -/
def FieldsNamed (path : String) : Prop := ∀ c ∈ path.toList.drop 1, c = '.' ∨ identifier c = true

instance (path : String) : Decidable (FieldsNamed identifier path) :=
  List.decidableBAll (fun c => c = '.' ∨ identifier c = true) (path.toList.drop 1)

/-- Line breaks are not inside of literals either. -/
def Glyph.AllowedLine (s : Literal.Scan) (g : Glyph) : Prop :=
  Glyph.Allowed identifier s g ∧ (g.char = '\n' → s = .code)

end Places

section Closed

variable {identifier : Char → Bool}

theorem closed_code {gs : List Glyph} (h : ∀ g ∈ gs, g.char ≠ '"' ∧ g.Allowed identifier .code) :
    Literal.Closed Glyph.char (Glyph.AllowedLine identifier) gs :=
  Literal.along_code fun g hg => ⟨(h g hg).1,(h g hg).2,fun _ => rfl⟩

theorem mem_glyphsOf {origin : Origin} {text : String} {g : Glyph} (h : g ∈ glyphsOf origin text) :
    ∃ c ∈ text.toList, g = ⟨origin,c⟩ := by
  obtain ⟨c,hc,rfl⟩ := List.mem_map.mp h
  exact ⟨c,hc,rfl⟩

theorem closed_host {text : String} (h : isPlain text = true) :
    Literal.Closed Glyph.char (Glyph.AllowedLine identifier) (glyphsOf .host text) := by
  rw [isPlain, List.all_eq_true] at h
  refine closed_code fun g hg => ?_
  obtain ⟨c,hc,rfl⟩ := mem_glyphsOf hg
  have hplain := h c hc
  simp only [Bool.and_eq_true, bne_iff_ne, ne_eq] at hplain
  exact ⟨hplain.1,rfl⟩

/-- Glyphs that are allowed in code because of their characters. -/
theorem closed_chars {origin : Origin} {text : String} {p : Char → Prop}
    (htext : ∀ c ∈ text.toList, p c) (hquote : ¬p '"')
    (hallowed : ∀ c, p c → Glyph.Allowed identifier .code ⟨origin,c⟩) :
    Literal.Closed Glyph.char (Glyph.AllowedLine identifier) (glyphsOf origin text) := by
  refine closed_code fun g hg => ?_
  obtain ⟨c,hc,rfl⟩ := mem_glyphsOf hg
  refine ⟨?_,hallowed c (htext c hc)⟩
  rintro rfl
  exact hquote (htext '"' hc)

theorem Piece.Confined.closed (hidentifier : IdentifierChars identifier) {piece : Piece}
    (h : piece.Confined identifier) :
    Literal.Closed Glyph.char (Glyph.AllowedLine identifier) piece.glyphs := by
  have hname : ¬identifier '"' = true := by simp [hidentifier.quote]
  cases piece with
  | host text => exact closed_host h
  | quoted literal =>
    refine Literal.IsLiteral.closed (fun _ => rfl) ?_ ?_ h ⟨fun _ => rfl,fun heq => ?_⟩
    · intro c hcontrol
      refine ⟨fun heq => absurd heq (by decide),?_⟩
      rintro rfl
      exact absurd hcontrol (by decide)
    · intro c hescaped
      refine ⟨fun heq => absurd heq (by decide),?_⟩
      rintro rfl
      exact absurd hescaped (by decide)
    · cases heq
  | number value => exact closed_chars h (by decide) fun c hc => ⟨rfl,hc⟩
  | color literal => exact closed_chars h (by decide) fun c hc => ⟨rfl,hc⟩
  | raw text => exact h.elim
  | prop slot => exact closed_chars h hname fun c hc => ⟨rfl,hc⟩
  | callback slot => exact closed_chars h hname fun c hc => ⟨rfl,hc⟩

/-- A carriage return is taken from a line without leaving the code. -/
theorem closed_stripReturn {line : List Glyph}
    (h : Literal.Closed Glyph.char (Glyph.AllowedLine identifier) line.reverse) :
    Literal.Closed Glyph.char (Glyph.AllowedLine identifier) (stripReturn line).reverse := by
  cases line with
  | nil => exact h
  | cons g line =>
    rw [stripReturn]
    split_ifs with hreturn
    · rw [List.reverse_cons] at h
      refine (h.of_append ?_).1
      have hscan := h.2
      rw [Literal.scan_append, Literal.scan_cons, hreturn] at hscan
      cases hbefore : Literal.scan Glyph.char .code line.reverse with
      | code => rfl
      | string =>
        rw [hbefore] at hscan
        cases hscan
      | escape =>
        rw [hbefore] at hscan
        cases hscan
    · exact h

theorem closed_linesFrom {line rest : List Glyph}
    (h : Literal.Closed Glyph.char (Glyph.AllowedLine identifier) (line.reverse ++ rest)) :
    ∀ l ∈ linesFrom line rest,
      Literal.Closed Glyph.char (Glyph.AllowedLine identifier) l := by
  induction rest generalizing line with
  | nil =>
    rw [List.append_nil] at h
    rw [linesFrom]
    split_ifs
    · simp
    · simpa using h
  | cons g rest ih =>
    rw [linesFrom]
    split_ifs with hbreak
    · -- the line ends in code, so what comes after it is closed as well
      have halong := (Literal.along_append _ _ _).mp h.1
      obtain ⟨hline,hrest⟩ := h.of_append (halong.2.1.2 hbreak)
      have hsingle : Literal.scan Glyph.char .code [g] = .code := by
        rw [Literal.scan_cons, hbreak]
        rfl
      rw [List.forall_mem_cons]
      rw [← List.singleton_append] at hrest
      exact ⟨closed_stripReturn hline,ih (hrest.of_append hsingle).2⟩
    · refine ih ?_
      rw [List.reverse_cons, List.append_assoc]
      exact h

theorem closed_indent {text : List Glyph}
    (h : Literal.Closed Glyph.char (Glyph.AllowedLine identifier) text) :
    Literal.Closed Glyph.char (Glyph.AllowedLine identifier) (indent text) := by
  refine Literal.Closed.flatMap fun line hline => ?_
  rw [← List.nil_append text, ← List.reverse_nil] at h
  have hclosed := closed_linesFrom h line hline
  exact ((closed_host (isPlain_ofList _ rfl)).append hclosed).append
    (closed_host (isPlain_ofList _ rfl))

theorem closed_pieces (hidentifier : IdentifierChars identifier) {pieces : List Piece}
    (h : ∀ piece ∈ pieces, piece.Confined identifier) :
    Literal.Closed Glyph.char (Glyph.AllowedLine identifier) (pieces.flatMap Piece.glyphs) :=
  Literal.Closed.flatMap fun piece hpiece => (h piece hpiece).closed hidentifier

mutual

theorem Markup.closed (hidentifier : IdentifierChars identifier) (m : Markup)
    (h : ∀ piece ∈ m.pieces, piece.Confined identifier) :
    Literal.Closed Glyph.char (Glyph.AllowedLine identifier) m.glyphs := by
  cases m with
  | text pieces => exact closed_pieces hidentifier h
  | guard condition => exact closed_pieces hidentifier h
  | leaf comp pieces => exact closed_pieces hidentifier h
  | block comp content => exact closed_glyphsList hidentifier content h
  | row content =>
    have hinner := closed_indent (closed_glyphsList hidentifier content h)
    exact ((closed_host (isPlain_ofList _ rfl)).append hinner).append
      (closed_host (isPlain_ofList _ rfl))

theorem closed_glyphsList (hidentifier : IdentifierChars identifier) (ms : List Markup)
    (h : ∀ piece ∈ piecesList ms, piece.Confined identifier) :
    Literal.Closed Glyph.char (Glyph.AllowedLine identifier) (glyphsList ms) := by
  cases ms with
  | nil => exact Literal.closed_nil
  | cons m rest =>
    rw [piecesList, List.forall_mem_append] at h
    exact (Markup.closed hidentifier m h.1).append (closed_glyphsList hidentifier rest h.2)

end

end Closed

theorem copied_eq_nil_iff (pieces : List Piece) :
    copied pieces = [] ↔ ∀ piece ∈ pieces, piece.copied = [] := by
  simp [copied]

theorem Piece.Confined.copied {identifier : Char → Bool} {piece : Piece}
    (h : piece.Confined identifier) : piece.copied = [] := by
  cases piece with
  | raw text => exact h.elim
  | host | quoted | number | color | prop | callback => rfl

section Names

variable {identifier : Char → Bool} (hidentifier : IdentifierChars identifier)

include hidentifier

theorem identifier_flat (c : Char) :
    identifier (if c = '.' then '_' else c) = true ↔ c = '.' ∨ identifier c = true := by
  split_ifs with hdot
  · exact iff_of_true (hidentifier.word '_' (Or.inr rfl)) (Or.inl hdot)
  · simp [hdot]

/-- A name is an identifier exactly when the fields of its path are. -/
theorem propName_identifier_iff {path : String} {segments : PathSegments}
    (h : PathSegments.parse path = .ok segments) :
    (∀ c ∈ ("prop_" ++ pathPropName path).toList, identifier c = true) ↔
      FieldsNamed identifier path := by
  have hhead : ∀ c ∈ "prop_".toList, identifier c = true := hidentifier.text rfl
  have hflat := flatPath_eq h
  rw [String.toList_append, List.forall_mem_append, FieldsNamed]
  rw [and_iff_right hhead]
  unfold flatPath at hflat
  split_ifs at hflat with hroot
  · subst hroot
    have hname : (pathPropName "$").toList = "state".toList := by
      simpa using hflat.symm
    rw [hname]
    exact iff_of_true (hidentifier.text rfl) (by simp)
  · obtain ⟨c,rest,hpath,-,hrest⟩ := List.map_eq_cons_iff.mp hflat
    obtain ⟨d,rest,rfl,hdot,hname⟩ := List.map_eq_cons_iff.mp hrest
    rw [hpath, ← hname, List.drop_succ_cons, List.drop_zero, List.forall_mem_cons,
      List.forall_mem_map]
    have hfirst : d = '.' ∨ identifier d = true := by
      rw [← identifier_flat hidentifier, hdot]
      exact hidentifier.word '_' (Or.inr rfl)
    rw [and_iff_right hfirst]
    exact forall₂_congr fun c _ => identifier_flat hidentifier c

theorem callback_identifier (i : ℕ) :
    ∀ c ∈ ("emit_" ++ toString i).toList, identifier c = true := by
  rw [String.toList_append, List.forall_mem_append]
  constructor
  · exact hidentifier.text rfl
  · intro c hc
    have hdigit : c.isDigit = true := by
      apply Nat.isDigit_of_mem_toDigits (b := 10) (n := i) (by decide) (by decide)
      simpa [toString, Nat.repr] using hc
    exact hidentifier.word c (Or.inl (by simp [Char.isAlphanum, hdigit]))

end Names

section Documents

variable {doc : UiDocument} {r : RenderedComponent} {body : List Markup} {ctx : Ctx}
  {identifier : Char → Bool}

/-- The pieces of a rendered document: the head with its declarations, the body and the foot. -/
theorem Rendering.pieces_eq (h : Rendering lib doc r body ctx) : piecesList r.markup =
    [.host "// 由 floatile-renderer 生成;宿主控制,勿手编。\n",
      .host "export component ClockPluginUI inherits Rectangle \x7b\n"] ++
    r.bindings.flatMap slotDeclaration ++ r.events.flatMap callbackDeclaration ++
    [.host "    background: transparent;\n"] ++ (piecesList body ++ [.host "\x7d\n"]) := by
  rw [h.markup, wrapComponent]
  simp [piecesList_append, piecesList, Markup.pieces]

theorem Rendering.copied_body (h : Rendering lib doc r body ctx) :
    copied (piecesList body) = [] ↔ ∀ comp ∈ nodes doc.root, copiedTexts comp = [] := by
  have hrenders := h.renders.copied
  rwa [List.forall_mem_singleton, nodesChildren, nodesChildren, List.append_nil] at hrenders

variable (hidentifier : IdentifierChars identifier)

include hidentifier

theorem Rendering.slot_confined_iff (h : Rendering lib doc r body ctx) {slot : BindingSlot}
    (hslot : slot ∈ r.bindings) :
    (Piece.prop slot).Confined identifier ↔ FieldsNamed identifier slot.path := by
  obtain ⟨hname,hbound⟩ := h.mem_boundPaths hslot
  obtain ⟨segments,hparse⟩ := h.parsed hbound
  rw [← propName_identifier_iff hidentifier hparse]
  have hprop : slot.prop = "prop_" ++ pathPropName slot.path := congrArg BindingSlot.prop hname
  rw [← hprop]
  rfl

theorem Rendering.callback_confined (h : Rendering lib doc r body ctx) {event : String}
    {slot : EventSlot} (hslot : ctx.events.get event = some slot) :
    (Piece.callback slot).Confined identifier := by
  obtain ⟨-,i,-,hcallback⟩ := h.steps.valid.counted event slot hslot
  rw [Piece.Confined, hcallback]
  exact callback_identifier hidentifier i

/-- A sound piece that copies nothing is confined when the names are identifiers. -/
theorem Rendering.confined_of_sound (h : Rendering lib doc r body ctx)
    (hnames : ∀ slot ∈ r.bindings, (Piece.prop slot).Confined identifier) {piece : Piece}
    (hpiece : piece ∈ piecesList body) (hcopied : piece.copied = []) :
    piece.Confined identifier := by
  have hsound := h.renders.pieces (startCtx_valid doc) body (List.mem_singleton_self body) piece
    hpiece
  rcases hsound with ⟨comp,-,hsound⟩ | ⟨⟨text,rfl⟩,-⟩
  · cases piece with
    | host text => exact hsound
    | quoted literal => exact hsound
    | number value => exact Decimal.isNumberChar_displayF64 value
    | color literal => exact hsound
    | raw text => cases hcopied
    | prop slot => exact hnames slot ((h.mem_bindings slot).mpr hsound)
    | callback slot => exact h.callback_confined hidentifier hsound
  · cases hcopied

theorem Rendering.confined_iff (h : Rendering lib doc r body ctx) :
    (∀ piece ∈ piecesList r.markup, piece.Confined identifier) ↔
      (∀ comp ∈ nodes doc.root, copiedTexts comp = []) ∧
        ∀ e ∈ boundPaths doc.root, FieldsNamed identifier e.1 := by
  rw [h.pieces_eq, ← h.copied_body]
  constructor
  · intro hall
    refine ⟨(copied_eq_nil_iff _).mpr fun piece hpiece => ?_,fun e he => ?_⟩
    · exact (hall piece (List.mem_append_right _ (List.mem_append_left _ hpiece))).copied
    · have hslot := h.slot_mem he
      refine (h.slot_confined_iff hidentifier hslot).mp (hall _ ?_)
      refine List.mem_append_left _ (List.mem_append_left _ (List.mem_append_left _ ?_))
      exact List.mem_append_right _ (List.mem_flatMap.mpr ⟨_,hslot,by simp [slotDeclaration]⟩)
  · rintro ⟨hcopied,hpaths⟩
    have hnames : ∀ slot ∈ r.bindings, (Piece.prop slot).Confined identifier := fun slot hslot =>
      (h.slot_confined_iff hidentifier hslot).mpr (hpaths _ (h.mem_boundPaths hslot).2)
    have hempty : Literal.IsLiteral "\"\"" := ⟨[],rfl,.nil⟩
    simp only [List.forall_mem_append, List.forall_mem_cons, List.mem_flatMap,
      forall_exists_index, and_imp]
    refine ⟨⟨⟨⟨?_,?_⟩,?_⟩,?_⟩,?_,?_⟩
    · exact ⟨isPlain_ofList _ rfl,isPlain_ofList _ rfl,by simp⟩
    · intro piece slot hslot hpiece
      simp only [slotDeclaration, List.mem_cons, List.not_mem_nil, or_false] at hpiece
      rcases hpiece with rfl | rfl | rfl | rfl | rfl
      · have htype : isPlain (slotType slot.valueType).1 = true := by
          cases slot.valueType <;> exact isPlain_ofList _ rfl
        rw [Piece.Confined, isPlain_append, isPlain_append]
        exact ⟨⟨isPlain_ofList _ rfl,htype⟩,isPlain_ofList _ rfl⟩
      · exact hnames slot hslot
      · exact isPlain_ofList _ rfl
      · cases slot.valueType <;> first | exact hempty | exact isPlain_ofList _ rfl
      · exact isPlain_ofList _ rfl
    · intro piece slot hslot hpiece
      simp only [callbackDeclaration, List.mem_cons, List.not_mem_nil, or_false] at hpiece
      rw [h.events, List.mem_map] at hslot
      obtain ⟨⟨event,entry⟩,hentry,rfl⟩ := hslot
      rcases hpiece with rfl | rfl | rfl
      · exact isPlain_ofList _ rfl
      · exact h.callback_confined hidentifier ((OrdMap.mem_entries_iff _ _ _).mp hentry)
      · exact isPlain_ofList _ rfl
    · exact ⟨isPlain_ofList _ rfl,by simp⟩
    · intro piece hpiece
      exact h.confined_of_sound hidentifier hnames hpiece
        ((copied_eq_nil_iff _).mp hcopied piece hpiece)
    · exact ⟨isPlain_ofList _ rfl,by simp⟩

end Documents

/-- A generated source is free of code of the document exactly when the document has no loops with
keys and no props bound to items, and the fields of its bound paths are identifiers. -/
theorem injectionSafe_iff {identifier : Char → Bool} (hidentifier : IdentifierChars identifier)
    {doc : UiDocument} {r : RenderedComponent} (h : renderComponent lib doc = .ok r) :
    InjectionSafe identifier r ↔ (∀ comp ∈ nodes doc.root, copiedTexts comp = []) ∧
      ∀ e ∈ boundPaths doc.root, FieldsNamed identifier e.1 := by
  obtain ⟨body,ctx,hrendering⟩ := rendering_of_ok h
  rw [← hrendering.confined_iff hidentifier]
  refine ⟨InjectionSafe.pieces,fun hconfined => ⟨hconfined,?_⟩⟩
  obtain ⟨halong,hscan⟩ := closed_glyphsList hidentifier r.markup hconfined
  exact ⟨Literal.along_mono (fun _ _ hallowed => hallowed.1) halong,hscan⟩

theorem infix_glyphs {m : Markup} {markup : List Markup} (h : m ∈ markup) :
    m.glyphs <:+: glyphsList markup := by
  induction markup with
  | nil => cases h
  | cons m' rest ih =>
    rw [glyphsList]
    rcases List.mem_cons.mp h with rfl | hrest
    · exact (List.prefix_append _ _).isInfix
    · exact (ih hrest).trans (List.suffix_append _ _).isInfix

def asciiIdentifier (c : Char) : Bool := c.isAlphanum || c == '_' || c == '-'

theorem asciiIdentifier_chars : IdentifierChars asciiIdentifier where
  word c h := by
    rcases h with hword | rfl
    · simp [asciiIdentifier, hword]
    · rfl
  quote := rfl
  lineBreak := rfl

theorem fullName_safe : ∃ r,
    renderComponent accountLib (accountDocument "$.full_name") = .ok r ∧
      InjectionSafe asciiIdentifier r := by
  have hrendered : renderComponent accountLib (accountDocument "$.full_name") = .ok _ := rfl
  exact ⟨_,hrendered,
    (injectionSafe_iff asciiIdentifier_chars hrendered).mpr ⟨by decide,by decide⟩⟩

/-- A text for every zone. -/
def keyedDocument (key : String) : UiDocument where
  uiApiVersion := "1.0.0"
  state := ⟨.object [("zones",.array [])],
    .object ["zones"] [("zones",.array (some 16) (.string none))] false⟩
  events := OrdMap.empty
  root := { plainComponent "ForEach" with
    items := some (.state "$.zones")
    key := some key
    template := some { plainComponent "Text" with
      props := OrdMap.ofList [("text",.literal (.string "UTC"))] } }

/-- The JSON library on a document with one loop. -/
def elementLib : JsonLib := ⟨fun _ => .ok 390,fun _ => ""⟩

/-- A key that ends the head of the loop and adds an element of its own. -/
def elementKey : String := "i] in 1: Rectangle \x7b background: red; \x7d for zone[j"

section Keys

variable (comp : Component) (text : String) (slot : BindingSlot) (inner : List Markup)
  (bindings : List BindingSlot) (callbacks : List EventSlot)

/-- A source whose body is a loop with a key. -/
def keyedMarkup : List Markup :=
  wrapComponent [loopBlock comp [.raw text] slot inner] bindings callbacks

theorem raw_mem_keyedMarkup :
    .raw text ∈ piecesList (keyedMarkup comp text slot inner bindings callbacks) := by
  simp [keyedMarkup, wrapComponent, loopBlock, piecesList, Markup.pieces, piecesList_append]

theorem keyedMarkup_contains : Text.containsText
    (textOf (keyedMarkup comp text slot inner bindings callbacks)) text = true := by
  have hhead : glyphsOf .raw text <:+: (loopBlock comp [.raw text] slot inner).glyphs := by
    have hpieces : glyphsOf .raw text <:+: (Markup.text ([.host "for item["] ++ [.raw text] ++
        [.host "] in root.",.prop slot,.host ": \x7b\n"])).glyphs :=
      ⟨glyphsOf .host "for item[",_,by simp [Markup.glyphs, Piece.glyphs]; rfl⟩
    exact hpieces.trans (infix_glyphs (by simp))
  have hloop : loopBlock comp [.raw text] slot inner ∈
      keyedMarkup comp text slot inner bindings callbacks := by
    simp [keyedMarkup, wrapComponent]
  have hchars := (hhead.trans (infix_glyphs hloop)).map Glyph.char
  rw [Text.containsText_iff, textOf, String.toList_ofList]
  simpa [glyphsOf, Function.comp_def] using hchars

end Keys

/-- The key of a loop is copied into the source. -/
theorem zones_key_injected : ∃ r, renderComponent elementLib (keyedDocument elementKey) = .ok r ∧
    Text.containsText r.source elementKey = true ∧
    ∀ identifier, ¬InjectionSafe identifier r := by
  obtain ⟨inner,bindings,callbacks,hrendered⟩ : ∃ inner bindings callbacks,
      renderComponent elementLib (keyedDocument elementKey) =
        .ok ⟨keyedMarkup (keyedDocument elementKey).root elementKey (slotOf "$.zones" .string)
          inner bindings callbacks,bindings,callbacks⟩ := ⟨_,_,_,rfl⟩
  refine ⟨_,hrendered,keyedMarkup_contains _ _ _ _ _ _,fun identifier hsafe => ?_⟩
  exact hsafe.pieces _ (raw_mem_keyedMarkup _ _ _ _ _ _)

end Floatile.Renderer
