import Floatile.Lib.Literal
import Floatile.Renderer.Slots

/-! What the pieces of a leaf may be, and which paths every kind of leaf registers. -/
namespace Floatile.Renderer

open Floatile.Lib
open Floatile.Lib.Checked (bind_eq_ok)
open Floatile.Core
open Floatile.UiSchema

/-- A text without quotes and backslashes. -/
@[irreducible] def isPlain (text : String) : Bool := text.toList.all (fun c => c != '"' && c != '\\')

theorem isPlain_append (s t : String) :
    isPlain (s ++ t) = true ↔ isPlain s = true ∧ isPlain t = true := by
  rw [isPlain, isPlain, isPlain, String.toList_append, List.all_append, Bool.and_eq_true]

/-- A literal is checked as the list of its characters. -/
theorem isPlain_ofList (cs : List Char)
    (h : cs.all (fun c => c != '"' && c != '\\') = true) : isPlain (String.ofList cs) = true := by
  rw [isPlain, String.toList_ofList]
  exact h

/-- What a piece of a component may be: a text of the document is encoded, or it is the item of a
loop; a name belongs to a slot. -/
def Piece.Sound (comp : Component) (ctx : Ctx) : Piece → Prop
  | .host text => isPlain text = true
  | .quoted literal => Literal.IsLiteral literal
  | .number _ => True
  | .color literal => ∀ c ∈ literal.toList, c = '#' ∨ Text.isAsciiHexDigit c = true
  | .raw text => ∃ prop, comp.props.get prop = some (.binding (.item text))
  | .prop slot => ctx.bindings.get slot.path = some slot
  | .callback slot => ctx.events.get slot.event = some slot

@[simp] theorem sound_host (comp : Component) (ctx : Ctx) (text : String) :
    (Piece.host text).Sound comp ctx ↔ isPlain text = true := Iff.rfl

@[simp] theorem sound_number (comp : Component) (ctx : Ctx) (value : Float) :
    (Piece.number value).Sound comp ctx := trivial

@[simp] theorem sound_prop (comp : Component) (ctx : Ctx) (slot : BindingSlot) :
    (Piece.prop slot).Sound comp ctx ↔ ctx.bindings.get slot.path = some slot := Iff.rfl

@[simp] theorem sound_callback (comp : Component) (ctx : Ctx) (slot : EventSlot) :
    (Piece.callback slot).Sound comp ctx ↔ ctx.events.get slot.event = some slot := Iff.rfl

def Sounds (comp : Component) (ctx : Ctx) (pieces : List Piece) : Prop :=
  ∀ piece ∈ pieces, piece.Sound comp ctx

section Sounds

variable {comp : Component} {ctx : Ctx}

@[simp] theorem sounds_nil : Sounds comp ctx [] := by simp [Sounds]

@[simp] theorem sounds_cons (piece : Piece) (pieces : List Piece) :
    Sounds comp ctx (piece :: pieces) ↔ piece.Sound comp ctx ∧ Sounds comp ctx pieces := by
  simp [Sounds]

@[simp] theorem sounds_append (pieces rest : List Piece) :
    Sounds comp ctx (pieces ++ rest) ↔ Sounds comp ctx pieces ∧ Sounds comp ctx rest := by
  simp only [Sounds, List.forall_mem_append]

theorem sounds_flatten {groups : List (List Piece)} (h : ∀ group ∈ groups, Sounds comp ctx group) :
    Sounds comp ctx groups.flatten := by
  intro piece hpiece
  obtain ⟨group,hgroup,hmem⟩ := List.mem_flatten.mp hpiece
  exact h group hgroup piece hmem

theorem Sounds.mono {pieces : List Piece} (h : Sounds comp ctx pieces) {ctx' : Ctx} {count : ℕ}
    {paths : List (String × BindingValueType)} (hsteps : Steps ctx count paths ctx') :
    Sounds comp ctx' pieces := by
  intro piece hpiece
  have hsound := h piece hpiece
  cases piece with
  | host | quoted | number | color | raw => exact hsound
  | prop slot => exact (hsteps.bindings _ _).mpr (Or.inl hsound)
  | callback slot => exact hsteps.events _ _ hsound

end Sounds

theorem encodeChar_body {c : Char} {encoded : List Char} (h : encodeChar c = .ok encoded) :
    Literal.Body encoded := by
  unfold encodeChar at h
  split_ifs at h with hquote hslash hnewline hreturn htab hcontrol
  all_goals cases h
  · exact .escaped (by decide) .nil
  · exact .escaped (by decide) .nil
  · exact .escaped (by decide) .nil
  · exact .escaped (by decide) .nil
  · exact .escaped (by decide) .nil
  · exact .plain hquote hslash (by simpa using hcontrol) .nil

/-- An encoded string is a literal. -/
theorem encodeString_sound {s : String} {piece : Piece} (comp : Component) (ctx : Ctx)
    (h : encodeString s = .ok piece) : piece.Sound comp ctx := by
  obtain ⟨encoded,hencoded,h⟩ := bind_eq_ok.mp h
  cases h
  refine ⟨encoded.flatten,String.toList_ofList,Literal.Body.flatten fun body hbody => ?_⟩
  obtain ⟨c,-,hc⟩ := Checked.exists_of_mem_mapM hencoded hbody
  exact encodeChar_body hc

theorem colorLiteral_sound {s : String} {piece : Piece} (comp : Component) (ctx : Ctx)
    (h : colorLiteral s = .ok piece) : piece.Sound comp ctx := by
  unfold colorLiteral at h
  dsimp only at h
  split_ifs at h with hvalid
  cases h
  obtain ⟨hstart,-,hdigits⟩ := hvalid
  intro c hc
  cases hlist : (Text.trim s).toList with
  | nil =>
    rw [hlist] at hc
    cases hc
  | cons d rest =>
    rw [hlist] at hc hdigits
    rw [Text.startsWith, hlist] at hstart
    rcases List.mem_cons.mp hc with rfl | hrest
    · left
      have hhash : '#' = c := by simpa using hstart
      exact hhash.symm
    · right
      exact List.all_eq_true.mp hdigits c hrest

/-- A prop that is bound to the state. -/
def stateProp (comp : Component) (prop : String) (valueType : BindingValueType) :
    List (String × BindingValueType) :=
  match comp.props.get prop with
  | some (.binding (.state bind)) => [(bind,valueType)]
  | _ => []

/-- The props that a leaf projects, with their types. -/
def slotProps (kind : String) : List (String × BindingValueType) :=
  if kind = "Text" then [("text",.string)]
  else if kind = "Button" ∨ kind = "Badge" then [("label",.string)]
  else if kind = "Toggle" then [("checked",.boolean),("accessibilityLabel",.string)]
  else if kind = "Progress" ∨ kind = "Gauge" then [("value",.number),("accessibilityLabel",.string)]
  else if kind = "Sparkline" then [("label",.string),("values",.numberList)]
  else if kind = "List" then [("items",.stringList)]
  else []

def leafPaths (comp : Component) : List (String × BindingValueType) :=
  (slotProps comp.kind).flatMap (fun e => stateProp comp e.1 e.2)

/-- What holds of every part of a leaf: it registers its paths and consists of sound pieces. -/
def Emits (comp : Component) (ctx : Ctx) (paths : List (String × BindingValueType))
    (pieces : List Piece) (ctx' : Ctx) : Prop :=
  Steps ctx 0 paths ctx' ∧ Sounds comp ctx' pieces

section Leaves

variable {lib : JsonLib} {comp : Component} {ctx ctx' : Ctx} {pieces : List Piece}

theorem rootText_plain : isPlain "root." = true := isPlain_ofList _ rfl

/-- A slot that is read as a property of the root. -/
theorem emits_slot {prop bind : String} {valueType : BindingValueType} {slot : BindingSlot}
    (hctx : ctx.Valid) (hprop : comp.props.get prop = some (.binding (.state bind)))
    (h : bindingSlot bind valueType ctx = .ok (slot,ctx')) :
    Steps ctx 0 (stateProp comp prop valueType) ctx' ∧ ctx'.bindings.get slot.path = some slot := by
  obtain ⟨hslot,hsteps,hget⟩ := bindingSlot_steps hctx h
  rw [stateProp, hprop]
  refine ⟨hsteps,?_⟩
  rw [hslot] at hget ⊢
  exact hget

theorem renderStringProp_emits {prop : String} (hctx : ctx.Valid)
    (h : renderStringProp lib comp prop ctx = .ok (pieces,ctx')) :
    Emits comp ctx (stateProp comp prop .string) pieces ctx' := by
  unfold renderStringProp at h
  split at h
  · rename_i bind hprop
    obtain ⟨⟨slot,ctx₁⟩,hslot,h⟩ := bind_eq_ok.mp h
    cases h
    obtain ⟨hsteps,hget⟩ := emits_slot hctx hprop hslot
    exact ⟨hsteps,by simpa [hget] using rootText_plain⟩
  · rename_i item hprop
    cases h
    rw [stateProp, hprop]
    exact ⟨Steps.refl hctx,by simpa using ⟨prop,hprop⟩⟩
  · rename_i value hprop
    obtain ⟨text,-,h⟩ := bind_eq_ok.mp h
    obtain ⟨literal,hliteral,h⟩ := bind_eq_ok.mp h
    cases h
    rw [stateProp, hprop]
    exact ⟨Steps.refl hctx,by simpa using encodeString_sound _ _ hliteral⟩
  · cases h

theorem renderAccessibilityLabel_emits (hctx : ctx.Valid)
    (h : renderAccessibilityLabel lib comp ctx = .ok (pieces,ctx')) :
    Emits comp ctx (stateProp comp "accessibilityLabel" .string) pieces ctx' := by
  unfold renderAccessibilityLabel at h
  split_ifs at h with hold
  · obtain ⟨literal,hliteral,h⟩ := bind_eq_ok.mp h
    cases h
    rw [stateProp, Option.isNone_iff_eq_none.mp hold.2]
    exact ⟨Steps.refl hctx,by simpa using encodeString_sound _ _ hliteral⟩
  · exact renderStringProp_emits hctx h

theorem toggleChecked_emits (hctx : ctx.Valid) (h : toggleChecked comp ctx = .ok (pieces,ctx')) :
    Emits comp ctx (stateProp comp "checked" .boolean) pieces ctx' := by
  unfold toggleChecked at h
  split at h
  · rename_i bind hprop
    obtain ⟨⟨slot,ctx₁⟩,hslot,h⟩ := bind_eq_ok.mp h
    cases h
    obtain ⟨hsteps,hget⟩ := emits_slot hctx hprop hslot
    exact ⟨hsteps,by simpa [hget] using rootText_plain⟩
  · rename_i item hprop
    cases h
    rw [stateProp, hprop]
    exact ⟨Steps.refl hctx,by simpa using ⟨_,hprop⟩⟩
  · rename_i value hprop
    split at h
    · rename_i checked hchecked
      cases h
      rw [stateProp, hprop]
      have hplain : isPlain (toString checked) = true := by
        cases checked
        · exact isPlain_ofList ['f','a','l','s','e'] rfl
        · exact isPlain_ofList ['t','r','u','e'] rfl
      exact ⟨Steps.refl hctx,by simpa using hplain⟩
    · cases h
  · cases h

theorem meterValue_emits (hctx : ctx.Valid) (h : meterValue comp ctx = .ok (pieces,ctx')) :
    Emits comp ctx (stateProp comp "value" .number) pieces ctx' := by
  unfold meterValue at h
  split at h
  · rename_i bind hprop
    obtain ⟨⟨slot,ctx₁⟩,hslot,h⟩ := bind_eq_ok.mp h
    cases h
    obtain ⟨hsteps,hget⟩ := emits_slot hctx hprop hslot
    refine ⟨hsteps,?_⟩
    simp only [sounds_cons, sound_host, sound_prop, hget, sounds_nil, true_and, and_true]
    and_intros
    all_goals exact isPlain_ofList _ rfl
  · cases h
  · rename_i value hprop
    split at h
    · cases h
      rw [stateProp, hprop]
      exact ⟨Steps.refl hctx,by simp⟩
    · cases h
  · cases h

theorem sparklineLabel_emits (hctx : ctx.Valid)
    (h : sparklineLabel comp ctx = .ok (pieces,ctx')) :
    Emits comp ctx (stateProp comp "label" .string) pieces ctx' := by
  unfold sparklineLabel at h
  split at h
  · rename_i bind hprop
    obtain ⟨⟨slot,ctx₁⟩,hslot,h⟩ := bind_eq_ok.mp h
    cases h
    obtain ⟨hsteps,hget⟩ := emits_slot hctx hprop hslot
    exact ⟨hsteps,by simpa [hget] using rootText_plain⟩
  · rename_i value hprop
    split at h
    · obtain ⟨literal,hliteral,h⟩ := bind_eq_ok.mp h
      cases h
      rw [stateProp, hprop]
      exact ⟨Steps.refl hctx,by simpa using encodeString_sound _ _ hliteral⟩
    · cases h
  · cases h

theorem sparklineColor_plain {color : String} (h : sparklineColor comp = .ok color) :
    isPlain color = true := by
  unfold sparklineColor at h
  split at h
  · cases h
    exact isPlain_ofList _ rfl
  · split at h
    · cases h
      exact isPlain_ofList _ rfl
    · split_ifs at h
      all_goals first | (cases h; exact isPlain_ofList _ rfl) | cases h
  · cases h

theorem badgeBackground_plain {tone color : String} (h : badgeBackground tone = .ok color) :
    isPlain color = true := by
  unfold badgeBackground at h
  split_ifs at h
  all_goals
    cases h
    exact isPlain_ofList _ rfl

theorem sparklineBars_emits {color : String} (hctx : ctx.Valid) (hcolor : isPlain color = true)
    (h : sparklineBars comp color ctx = .ok (pieces,ctx')) :
    Emits comp ctx (stateProp comp "values" .numberList) pieces ctx' := by
  unfold sparklineBars at h
  split at h
  · rename_i bind hprop
    obtain ⟨⟨slot,ctx₁⟩,hslot,h⟩ := bind_eq_ok.mp h
    cases h
    obtain ⟨hsteps,hget⟩ := emits_slot hctx hprop hslot
    refine ⟨hsteps,?_⟩
    simp only [sounds_cons, sound_host, isPlain_append, sound_prop, hget, sounds_nil, true_and,
      and_true]
    and_intros
    all_goals first | assumption | exact isPlain_ofList _ rfl
  · rename_i value hprop
    split at h
    · obtain ⟨bars,hbars,h⟩ := bind_eq_ok.mp h
      cases h
      rw [stateProp, hprop]
      refine ⟨Steps.refl hctx,sounds_flatten fun bar hbar => ?_⟩
      obtain ⟨value,-,hvalue⟩ := Checked.exists_of_mem_mapM hbars hbar
      unfold sparklineBar at hvalue
      split at hvalue
      · cases hvalue
        simp only [sounds_cons, sound_host, isPlain_append, sound_number, sounds_nil, true_and,
          and_true]
        and_intros
        all_goals first | assumption | exact isPlain_ofList _ rfl
      · cases hvalue
    · cases h
  · cases h

theorem listItem_sound {item : Json} (h : listItem item = .ok pieces) : Sounds comp ctx pieces := by
  unfold listItem at h
  split at h
  · obtain ⟨literal,hliteral,h⟩ := bind_eq_ok.mp h
    cases h
    simp only [sounds_cons, sound_host, sounds_nil, and_true]
    exact ⟨isPlain_ofList _ rfl,encodeString_sound _ _ hliteral,isPlain_ofList _ rfl⟩
  · cases h

theorem renderListItems_emits {items : PropValue} (hctx : ctx.Valid)
    (hprop : comp.props.get "items" = some items)
    (h : renderListItems comp items ctx = .ok (pieces,ctx')) :
    Emits comp ctx (stateProp comp "items" .stringList) pieces ctx' := by
  simp only [renderListItems, Checked.check_bind_eq_ok] at h
  replace h := h.2
  split at h
  · obtain ⟨⟨slot,ctx₁⟩,hslot,h⟩ := bind_eq_ok.mp h
    cases h
    obtain ⟨hsteps,hget⟩ := emits_slot hctx hprop hslot
    refine ⟨hsteps,?_⟩
    simp only [sounds_cons, sound_host, sound_prop, hget, sounds_nil, true_and, and_true]
    and_intros
    all_goals exact isPlain_ofList _ rfl
  · cases h
  · split at h
    · obtain ⟨children,hchildren,h⟩ := bind_eq_ok.mp h
      cases h
      rw [stateProp, hprop]
      have hitems : Sounds comp ctx children.flatten := by
        refine sounds_flatten fun child hchild => ?_
        obtain ⟨item,-,hitem⟩ := Checked.exists_of_mem_mapM hchildren hchild
        exact listItem_sound hitem
      refine ⟨Steps.refl hctx,?_⟩
      simp only [sounds_append, sounds_cons, sound_host, sounds_nil, and_true]
      exact ⟨⟨isPlain_ofList _ rfl,hitems⟩,isPlain_ofList _ rfl⟩
    · cases h

theorem textStyleProps_sound {style : List Piece} (h : textStyleProps comp = .ok style) :
    Sounds comp ctx style := by
  obtain ⟨color,hcolor,h⟩ := bind_eq_ok.mp h
  have hsound : Sounds comp ctx color := by
    unfold textColor at hcolor
    split at hcolor
    · split at hcolor
      · rename_i token _ found hfound
        cases hcolor
        have hmem : found ∈ colorTokens := List.mem_of_find?_eq_some hfound
        have hall : ∀ token ∈ colorTokens, isPlain token.value = true := by
          simp only [colorTokens, List.forall_mem_cons]
          and_intros
          all_goals first | exact isPlain_ofList _ rfl | simp
        simp only [sounds_cons, sound_host, sounds_nil, and_true]
        rw [isPlain_append, isPlain_append]
        exact ⟨⟨isPlain_ofList _ rfl,hall found hmem⟩,isPlain_ofList _ rfl⟩
      · cases hcolor
    · split at hcolor
      · obtain ⟨literal,hliteral,hcolor⟩ := bind_eq_ok.mp hcolor
        cases hcolor
        simp only [sounds_cons, sound_host, sounds_nil, and_true]
        exact ⟨isPlain_ofList _ rfl,colorLiteral_sound _ _ hliteral,isPlain_ofList _ rfl⟩
      · cases hcolor
        exact sounds_nil
  split at h
  · cases h
    simp only [sounds_append, sounds_cons, sound_host, sound_number, sounds_nil, true_and, and_true]
    exact ⟨hsound,isPlain_ofList _ rfl,isPlain_ofList _ rfl⟩
  · cases h
    exact hsound

theorem renderText_emits (hctx : ctx.Valid) (h : renderText lib comp ctx = .ok (pieces,ctx')) :
    Emits comp ctx (stateProp comp "text" .string) pieces ctx' := by
  obtain ⟨⟨text,ctx₁⟩,htext,h⟩ := bind_eq_ok.mp h
  obtain ⟨style,hstyle,h⟩ := bind_eq_ok.mp h
  cases h
  obtain ⟨hsteps,hsound⟩ := renderStringProp_emits hctx htext
  refine ⟨hsteps,?_⟩
  have hstyle' : Sounds comp ctx' style := textStyleProps_sound hstyle
  simp only [sounds_append, sounds_cons, sound_host, sounds_nil, and_true]
  and_intros
  all_goals first | assumption | exact isPlain_ofList _ rfl

theorem renderButton_emits (hctx : ctx.Valid)
    (h : renderButton lib comp ctx = .ok (pieces,ctx')) :
    Emits comp ctx (stateProp comp "label" .string) pieces ctx' := by
  obtain ⟨⟨label,ctx₁⟩,hlabel,h⟩ := bind_eq_ok.mp h
  obtain ⟨⟨callback,ctx₂⟩,hcallback,h⟩ := bind_eq_ok.mp h
  cases h
  obtain ⟨hsteps,hsound⟩ := renderStringProp_emits hctx hlabel
  obtain ⟨hsteps',hget,-⟩ := eventCallback_steps hsteps.valid hcallback
  have hlabel' := hsound.mono hsteps'
  refine ⟨by simpa using hsteps.trans hsteps',?_⟩
  simp only [sounds_append, sounds_cons, sound_host, isPlain_append, sound_callback, sounds_nil,
    and_true]
  and_intros
  all_goals first | assumption | exact isPlain_ofList _ rfl

theorem renderToggle_emits (hctx : ctx.Valid)
    (h : renderToggle lib comp ctx = .ok (pieces,ctx')) :
    Emits comp ctx (stateProp comp "checked" .boolean ++
      stateProp comp "accessibilityLabel" .string) pieces ctx' := by
  obtain ⟨⟨checked,ctx₁⟩,hchecked,h⟩ := bind_eq_ok.mp h
  obtain ⟨⟨label,ctx₂⟩,hlabel,h⟩ := bind_eq_ok.mp h
  obtain ⟨⟨callback,ctx₃⟩,hcallback,h⟩ := bind_eq_ok.mp h
  cases h
  obtain ⟨hsteps,hsound⟩ := toggleChecked_emits hctx hchecked
  obtain ⟨hsteps',hsound'⟩ := renderAccessibilityLabel_emits hsteps.valid hlabel
  obtain ⟨hsteps'',hget,-⟩ := eventCallback_steps hsteps'.valid hcallback
  have hchecked' := (hsound.mono hsteps').mono hsteps''
  have hlabel' := hsound'.mono hsteps''
  refine ⟨by simpa using (hsteps.trans hsteps').trans hsteps'',?_⟩
  simp only [tied, sounds_append, sounds_cons, sound_host, isPlain_append, sound_callback,
    sounds_nil, and_true]
  and_intros
  all_goals first | assumption | exact isPlain_ofList _ rfl

theorem renderMeter_emits (hctx : ctx.Valid) (h : renderMeter lib comp ctx = .ok (pieces,ctx')) :
    Emits comp ctx (stateProp comp "value" .number ++
      stateProp comp "accessibilityLabel" .string) pieces ctx' := by
  obtain ⟨⟨value,ctx₁⟩,hvalue,h⟩ := bind_eq_ok.mp h
  obtain ⟨⟨label,ctx₂⟩,hlabel,h⟩ := bind_eq_ok.mp h
  cases h
  obtain ⟨hsteps,hsound⟩ := meterValue_emits hctx hvalue
  obtain ⟨hsteps',hsound'⟩ := renderAccessibilityLabel_emits hsteps.valid hlabel
  have hvalue' := hsound.mono hsteps'
  refine ⟨hsteps.trans hsteps',?_⟩
  simp only [sounds_append, sounds_cons, sound_host, isPlain_append, sounds_nil, and_true]
  and_intros
  all_goals first | assumption | exact isPlain_ofList _ rfl

theorem renderBadge_emits (hctx : ctx.Valid) (h : renderBadge lib comp ctx = .ok (pieces,ctx')) :
    Emits comp ctx (stateProp comp "label" .string) pieces ctx' := by
  obtain ⟨⟨label,ctx₁⟩,hlabel,h⟩ := bind_eq_ok.mp h
  obtain ⟨tone,-,h⟩ := bind_eq_ok.mp h
  obtain ⟨background,hbackground,h⟩ := bind_eq_ok.mp h
  cases h
  obtain ⟨hsteps,hsound⟩ := renderStringProp_emits hctx hlabel
  refine ⟨hsteps,?_⟩
  have hplain := badgeBackground_plain hbackground
  simp only [sounds_append, sounds_cons, sound_host, isPlain_append, sounds_nil, and_true]
  and_intros
  all_goals first | assumption | exact isPlain_ofList _ rfl

theorem renderSparkline_emits (hctx : ctx.Valid)
    (h : renderSparkline comp ctx = .ok (pieces,ctx')) :
    Emits comp ctx (stateProp comp "label" .string ++ stateProp comp "values" .numberList) pieces
      ctx' := by
  obtain ⟨⟨label,ctx₁⟩,hlabel,h⟩ := bind_eq_ok.mp h
  obtain ⟨color,hcolor,h⟩ := bind_eq_ok.mp h
  obtain ⟨⟨bars,ctx₂⟩,hbars,h⟩ := bind_eq_ok.mp h
  cases h
  obtain ⟨hsteps,hsound⟩ := sparklineLabel_emits hctx hlabel
  obtain ⟨hsteps',hsound'⟩ := sparklineBars_emits hsteps.valid (sparklineColor_plain hcolor) hbars
  refine ⟨hsteps.trans hsteps',?_⟩
  have hlabel' := hsound.mono hsteps'
  simp only [sounds_append, sounds_cons, sound_host, isPlain_append, sounds_nil, and_true]
  and_intros
  all_goals first | assumption | exact isPlain_ofList _ rfl

theorem renderLeaf_emits (hctx : ctx.Valid) (h : renderLeaf lib comp ctx = .ok (pieces,ctx')) :
    Emits comp ctx (leafPaths comp) pieces ctx' := by
  unfold renderLeaf at h
  split_ifs at h with hsparkline htext hbutton htoggle hprogress hbadge hgauge
  · rw [leafPaths, hsparkline]
    simpa [slotProps] using renderSparkline_emits hctx h
  · rw [leafPaths, htext]
    simpa [slotProps] using renderText_emits hctx h
  · rw [leafPaths, hbutton]
    simpa [slotProps] using renderButton_emits hctx h
  · rw [leafPaths, htoggle]
    simpa [slotProps] using renderToggle_emits hctx h
  · rw [leafPaths, hprogress]
    simpa [slotProps] using renderMeter_emits hctx h
  · rw [leafPaths, hbadge]
    simpa [slotProps] using renderBadge_emits hctx h
  · rw [leafPaths, hgauge]
    simpa [slotProps] using renderMeter_emits hctx h

/-- What a leaf registers and what its body consists of. -/
theorem leafPieces_emits (hctx : ctx.Valid) (h : leafPieces lib comp ctx = .ok (pieces,ctx')) :
    Emits comp ctx (leafPaths comp) pieces ctx' := by
  unfold leafPieces at h
  cases hitems : comp.props.get "items" with
  | none =>
    rw [hitems] at h
    exact renderLeaf_emits hctx h
  | some items =>
    rw [hitems] at h
    dsimp only at h
    split_ifs at h with hlist
    · rw [leafPaths, hlist]
      simpa [slotProps] using renderListItems_emits hctx hitems h
    · exact renderLeaf_emits hctx h

end Leaves

end Floatile.Renderer
