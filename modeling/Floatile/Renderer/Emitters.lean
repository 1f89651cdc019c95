import Floatile.Renderer.Demands
import Floatile.Renderer.Typed
import Floatile.UiSchema.DocumentSound

/-! Every emitter follows its demands: it goes through when they are met and stops at the first
one that is not. -/
namespace Floatile.Renderer

open Floatile.Lib
open Floatile.Lib.Checked (bind_eq_ok reject_eq_ok)
open Floatile.Core
open Floatile.UiSchema

/-- The types that the registered paths have. -/
def Ctx.used (ctx : Ctx) : Used := fun path => (ctx.bindings.get path).map BindingSlot.valueType

/-- The components of the registry that the renderer has an emitter for. -/
def mappedKinds : List String :=
  ["Column","Row","Stack","Grid","Responsive","List","Sparkline","Text","Button","Toggle",
   "Progress","Badge","Gauge","If","ForEach"]

/-- An error of the renderer stands for a refusal. -/
def Refuses : RendererError → Refusal → Prop
  | .unsupportedComponent component _, .unmapped =>
    (∃ spec ∈ components, spec.name = component) ∧ component ∉ mappedKinds
  | .bindingError _, .unmet => True
  | .encodeError _, .unmet => True
  | _, _ => False

/-- The generation of a part of the source ends as the walk along the demands does. -/
def Follows {α : Type} (x : Except RendererError (α × Ctx)) (used : Used) (ds : List Demand)
    (post : Ctx → Prop) : Prop :=
  match x with
  | .ok (_,ctx') => scan used ds = .ok ctx'.used ∧ post ctx'
  | .error e => ∃ r, scan used ds = .error r ∧ Refuses e r

section Follows

variable {α β : Type} {x : Except RendererError (α × Ctx)} {used : Used} {ds es : List Demand}
  {post post' : Ctx → Prop}

theorem follows_ok {a : α} {ctx : Ctx} (h : post ctx) :
    Follows (.ok (a,ctx)) ctx.used [] post := ⟨rfl,h⟩

theorem follows_unmet {e : RendererError} (h : Refuses e .unmet) :
    Follows (.error e : Except RendererError (α × Ctx)) used (.holds false :: ds) post :=
  ⟨.unmet,rfl,h⟩

theorem Follows.mono (h : Follows x used ds post) (hpost : ∀ ctx, post ctx → post' ctx) :
    Follows x used ds post' := by
  cases x with
  | error e => exact h
  | ok out => exact ⟨h.1,hpost _ h.2⟩

/-- One part after the other. -/
theorem Follows.bind {f : α × Ctx → Except RendererError (β × Ctx)}
    (h : Follows x used ds post)
    (hf : ∀ a ctx', x = .ok (a,ctx') → post ctx' → Follows (f (a,ctx')) ctx'.used es post') :
    Follows (x >>= f) used (ds ++ es) post' := by
  unfold Follows
  rw [scan_append]
  cases x with
  | error e =>
    obtain ⟨r,hr,he⟩ := h
    exact ⟨r,by rw [hr]; rfl,he⟩
  | ok out =>
    obtain ⟨a,ctx'⟩ := out
    obtain ⟨hscan,hpost⟩ := h
    rw [hscan]
    exact hf a ctx' rfl hpost

/-- What is made of the result asks for nothing more. -/
theorem Follows.map {f : α × Ctx → Except RendererError (β × Ctx)} (h : Follows x used ds post)
    (hf : ∀ a ctx', ∃ b, f (a,ctx') = .ok (b,ctx')) : Follows (x >>= f) used ds post := by
  rw [← List.append_nil ds]
  refine h.bind fun a ctx' _ hpost => ?_
  obtain ⟨b,hb⟩ := hf a ctx'
  rw [hb]
  exact follows_ok hpost

/-- A check in between that its condition decides. -/
theorem follows_check {γ : Type} {y : Except RendererError γ} {b : Bool}
    {f : γ → Except RendererError (β × Ctx)} (htrue : b = true → ∃ c, y = .ok c)
    (hfalse : b = false → ∃ e, y = .error e ∧ Refuses e .unmet)
    (hf : ∀ c, y = .ok c → Follows (f c) used ds post) :
    Follows (y >>= f) used (.holds b :: ds) post := by
  cases b with
  | true =>
    obtain ⟨c,rfl⟩ := htrue rfl
    exact hf c rfl
  | false =>
    obtain ⟨e,rfl,he⟩ := hfalse rfl
    exact follows_unmet he

end Follows

/-- A part of the generation that stays in a node registers at most so many paths. -/
structure Grown (ctx : Ctx) (count : ℕ) (ctx' : Ctx) : Prop where
  nodes : ctx'.nodes = ctx.nodes
  minor : ctx'.uiMinor = ctx.uiMinor
  paths : ctx'.bindings.entries.length ≤ ctx.bindings.entries.length + count

theorem Grown.refl (ctx : Ctx) : Grown ctx 0 ctx := ⟨rfl,rfl,le_rfl⟩

theorem Grown.trans {ctx ctx₁ ctx₂ : Ctx} {m n : ℕ} (h : Grown ctx m ctx₁) (h' : Grown ctx₁ n ctx₂) :
    Grown ctx (m + n) ctx₂ := by
  refine ⟨h'.nodes.trans h.nodes,h'.minor.trans h.minor,?_⟩
  have hm := h.paths
  have hn := h'.paths
  omega

theorem Grown.mono {ctx ctx' : Ctx} {m n : ℕ} (h : Grown ctx m ctx') (hmn : m ≤ n) :
    Grown ctx n ctx' := ⟨h.nodes,h.minor,h.paths.trans (by omega)⟩

theorem bindingSlot_follows {bind : String} {valueType : BindingValueType} {ctx : Ctx}
    (hparse : ∃ path, PathSegments.parse bind = .ok path)
    (hroom : ctx.bindings.entries.length < maxBindings) :
    Follows (bindingSlot bind valueType ctx) ctx.used [.path bind valueType] (Grown ctx 1) := by
  obtain ⟨path,hparse⟩ := hparse
  unfold bindingSlot
  rw [hparse]
  simp only [Checked.mapError_ok, Checked.ok_bind]
  cases hget : ctx.bindings.get bind with
  | some slot =>
    have hused : ctx.used bind = some slot.valueType := by rw [Ctx.used, hget]; rfl
    by_cases htype : slot.valueType = valueType
    · simp only [Checked.reject, htype, ne_eq, not_true_eq_false, if_false, Checked.ok_bind]
      refine ⟨?_,(Grown.refl ctx).mono (by omega)⟩
      rw [scan_cons]
      simp [Demand.check, hused, htype]
    · simp only [Checked.reject, htype, ne_eq, not_false_eq_true, if_true, Checked.error_bind]
      refine ⟨.unmet,?_,trivial⟩
      rw [scan_cons]
      simp [Demand.check, hused, htype]
  | none =>
    have hused : ctx.used bind = none := by rw [Ctx.used, hget]; rfl
    simp only [Checked.reject, Nat.not_le.mpr hroom, if_false, Checked.ok_bind]
    refine ⟨?_,rfl,rfl,OrdMap.length_insert_le _ _ _⟩
    rw [scan_cons]
    simp only [Demand.check, hused, Checked.ok_bind, scan_nil, Except.ok.injEq]
    funext path
    simp only [Ctx.used, OrdMap.get_insert, Function.update_apply]
    split_ifs with hpath
    · rfl
    · rfl

theorem eventCallback_follows {comp : Component} {ctx : Ctx} {inputEvent : String} :
    Follows (eventCallback comp ctx inputEvent) ctx.used (eventDemands comp inputEvent)
      (Grown ctx 0) := by
  unfold eventCallback eventDemands
  cases hemitted : comp.events.get inputEvent with
  | none => exact follows_unmet trivial
  | some emitted =>
    cases hget : ctx.events.get emitted.emit with
    | some slot =>
      simp only [hget]
      exact ⟨rfl,Grown.refl ctx⟩
    | none =>
      simp only [hget]
      exact ⟨rfl,rfl,rfl,le_rfl⟩

theorem mapM_eq_error {ε α β : Type} {f : α → Except ε β} {xs : List α} {e : ε}
    (h : xs.mapM f = .error e) : ∃ x ∈ xs, f x = .error e := by
  induction xs with
  | nil => cases h
  | cons x xs ih =>
    rw [List.mapM_cons] at h
    cases hx : f x with
    | error e' =>
      rw [hx] at h
      cases h
      exact ⟨x,List.mem_cons_self,hx⟩
    | ok y =>
      rw [hx, Checked.ok_bind] at h
      cases hxs : xs.mapM f with
      | error e' =>
        rw [hxs] at h
        cases h
        obtain ⟨x',hmem,hx'⟩ := ih hxs
        exact ⟨x',List.mem_cons_of_mem _ hmem,hx'⟩
      | ok ys =>
        rw [hxs] at h
        cases h

theorem encodeChar_cases (c : Char) :
    ((!Text.isControl c || c = '\n' || c = '\r' || c = '\t') = true ∧
      ∃ cs, encodeChar c = .ok cs) ∨
    ((!Text.isControl c || c = '\n' || c = '\r' || c = '\t') = false ∧
      ∃ detail, encodeChar c = .error (.encodeError detail)) := by
  unfold encodeChar
  split_ifs with hquote hslash hnewline hreturn htab hcontrol
  · subst hquote
    exact Or.inl ⟨by decide,_,rfl⟩
  · subst hslash
    exact Or.inl ⟨by decide,_,rfl⟩
  · exact Or.inl ⟨by simp [hnewline],_,rfl⟩
  · exact Or.inl ⟨by simp [hreturn],_,rfl⟩
  · exact Or.inl ⟨by simp [htab],_,rfl⟩
  · exact Or.inr ⟨by simp [hcontrol, hnewline, hreturn, htab],_,rfl⟩
  · exact Or.inl ⟨by simp [hcontrol],_,rfl⟩

/-- A string is encoded exactly if it is quotable. -/
theorem encodeString_cases (s : String) :
    (quotable s = true ∧ ∃ piece, encodeString s = .ok piece) ∨
    (quotable s = false ∧ ∃ detail, encodeString s = .error (.encodeError detail)) := by
  unfold encodeString quotable
  cases hencoded : s.toList.mapM encodeChar with
  | ok encoded =>
    refine Or.inl ⟨List.all_eq_true.mpr fun c hc => ?_,_,rfl⟩
    obtain ⟨cs,-,hok⟩ := Checked.exists_mem_of_mapM hencoded hc
    rcases encodeChar_cases c with ⟨htrue,-⟩ | ⟨-,detail,herror⟩
    · exact htrue
    · rw [hok] at herror
      cases herror
  | error e =>
    obtain ⟨c,hc,herror⟩ := mapM_eq_error hencoded
    rcases encodeChar_cases c with ⟨-,cs,hok⟩ | ⟨hfalse,detail,herror'⟩
    · rw [hok] at herror
      cases herror
    · rw [herror] at herror'
      cases herror'
      exact Or.inr ⟨List.all_eq_false.mpr ⟨c,hc,by rw [hfalse]; decide⟩,_,rfl⟩

theorem follows_encode {β : Type} {s : String} {f : Piece → Except RendererError (β × Ctx)}
    {used : Used} {ds : List Demand} {post : Ctx → Prop}
    (hf : ∀ piece, Follows (f piece) used ds post) :
    Follows (encodeString s >>= f) used (.holds (quotable s) :: ds) post := by
  rcases encodeString_cases s with ⟨htrue,piece,hpiece⟩ | ⟨hfalse,detail,herror⟩
  · rw [htrue, hpiece]
    exact hf piece
  · rw [hfalse, herror]
    exact follows_unmet trivial

/-- A prop that a slot may show is given, and checked so far. -/
def SlotGiven (comp : Component) (prop : String) (valueType : BindingValueType) : Prop :=
  match comp.props.get prop with
  | some (.binding (.state bind)) => ∃ path, PathSegments.parse bind = .ok path
  | some (.binding (.item _)) => True
  | some (.literal value) => (jsonTypeOf valueType).accepts value = true
  | none => False

section Emitters

variable {lib : JsonLib} {comp : Component} {ctx : Ctx}

theorem accepts_string {value : Json} (h : JsonType.string.accepts value = true) :
    ∃ s, value = .string s := by
  cases value <;> simp [JsonType.accepts] at h ⊢

theorem renderStringProp_follows {prop : String} (hgiven : SlotGiven comp prop .string)
    (hroom : ctx.bindings.entries.length < maxBindings) :
    Follows (renderStringProp lib comp prop ctx) ctx.used (stringDemands comp prop)
      (Grown ctx 1) := by
  unfold SlotGiven at hgiven
  unfold renderStringProp stringDemands
  cases hprop : comp.props.get prop with
  | none =>
    rw [hprop] at hgiven
    exact hgiven.elim
  | some value =>
    rw [hprop] at hgiven
    cases value with
    | binding binding =>
      cases binding with
      | state bind => exact (bindingSlot_follows hgiven hroom).map fun _ _ => ⟨_,rfl⟩
      | item item => exact follows_ok ((Grown.refl ctx).mono (by omega))
    | literal json =>
      obtain ⟨s,rfl⟩ := accepts_string hgiven
      exact follows_encode fun piece => follows_ok ((Grown.refl ctx).mono (by omega))

/-- A label is given, or the document is older than the label. -/
def LabelGiven (comp : Component) (uiMinor : ℕ) : Prop :=
  SlotGiven comp "accessibilityLabel" .string ∨
    uiMinor < 6 ∧ (comp.props.get "accessibilityLabel").isNone

theorem renderAccessibilityLabel_follows (hgiven : LabelGiven comp ctx.uiMinor)
    (hkind : quotable comp.kind = true) (hroom : ctx.bindings.entries.length < maxBindings) :
    Follows (renderAccessibilityLabel lib comp ctx) ctx.used
      (accessibilityDemands ctx.uiMinor comp) (Grown ctx 1) := by
  unfold renderAccessibilityLabel accessibilityDemands
  split_ifs with hold
  · obtain ⟨piece,hpiece⟩ : ∃ piece, encodeString comp.kind = .ok piece := by
      rcases encodeString_cases comp.kind with ⟨-,hpiece⟩ | ⟨hfalse,-⟩
      · exact hpiece
      · rw [hkind] at hfalse
        cases hfalse
    rw [hpiece]
    exact follows_ok ((Grown.refl ctx).mono (by omega))
  · exact renderStringProp_follows (hgiven.resolve_right hold) hroom

theorem toggleChecked_follows (hgiven : SlotGiven comp "checked" .boolean)
    (hroom : ctx.bindings.entries.length < maxBindings) :
    Follows (toggleChecked comp ctx) ctx.used (checkedDemands comp) (Grown ctx 1) := by
  unfold SlotGiven at hgiven
  unfold toggleChecked checkedDemands
  cases hprop : comp.props.get "checked" with
  | none =>
    rw [hprop] at hgiven
    exact hgiven.elim
  | some value =>
    rw [hprop] at hgiven
    cases value with
    | binding binding =>
      cases binding with
      | state bind => exact (bindingSlot_follows hgiven hroom).map fun _ _ => ⟨_,rfl⟩
      | item item => exact follows_ok ((Grown.refl ctx).mono (by omega))
    | literal json =>
      cases json with
      | bool b => exact follows_ok ((Grown.refl ctx).mono (by omega))
      | null | number | string | array | object => cases hgiven

theorem meterValue_follows (hgiven : SlotGiven comp "value" .number)
    (hroom : ctx.bindings.entries.length < maxBindings) :
    Follows (meterValue comp ctx) ctx.used (stateDemands comp "value" .number) (Grown ctx 1) := by
  unfold SlotGiven at hgiven
  unfold meterValue stateDemands
  cases hprop : comp.props.get "value" with
  | none =>
    rw [hprop] at hgiven
    exact hgiven.elim
  | some value =>
    rw [hprop] at hgiven
    cases value with
    | binding binding =>
      cases binding with
      | state bind => exact (bindingSlot_follows hgiven hroom).map fun _ _ => ⟨_,rfl⟩
      | item item => exact follows_unmet trivial
    | literal json =>
      cases json with
      | number n => exact follows_ok ((Grown.refl ctx).mono (by omega))
      | null | bool | string | array | object => cases hgiven

theorem sparklineLabel_follows (hgiven : SlotGiven comp "label" .string)
    (hroom : ctx.bindings.entries.length < maxBindings) :
    Follows (sparklineLabel comp ctx) ctx.used (labelDemands comp) (Grown ctx 1) := by
  unfold SlotGiven at hgiven
  unfold sparklineLabel labelDemands stringDemands
  cases hprop : comp.props.get "label" with
  | none =>
    rw [hprop] at hgiven
    exact hgiven.elim
  | some value =>
    rw [hprop] at hgiven
    cases value with
    | binding binding =>
      cases binding with
      | state bind => exact (bindingSlot_follows hgiven hroom).map fun _ _ => ⟨_,rfl⟩
      | item item => exact follows_unmet trivial
    | literal json =>
      obtain ⟨s,rfl⟩ := accepts_string hgiven
      exact follows_encode fun piece => follows_ok ((Grown.refl ctx).mono (by omega))

/-- Literal points are numbers. -/
def PointsGiven (comp : Component) : Prop :=
  ∀ points, comp.props.get "values" = some (.literal (.array points)) →
    ∀ point ∈ points, point.asF64.isSome

theorem sparklineBars_follows {color : String} (hgiven : SlotGiven comp "values" .numberList)
    (hpoints : PointsGiven comp) (hroom : ctx.bindings.entries.length < maxBindings) :
    Follows (sparklineBars comp color ctx) ctx.used (stateDemands comp "values" .numberList)
      (Grown ctx 1) := by
  unfold SlotGiven at hgiven
  unfold sparklineBars stateDemands
  cases hprop : comp.props.get "values" with
  | none =>
    rw [hprop] at hgiven
    exact hgiven.elim
  | some value =>
    rw [hprop] at hgiven
    cases value with
    | binding binding =>
      cases binding with
      | state bind => exact (bindingSlot_follows hgiven hroom).map fun _ _ => ⟨_,rfl⟩
      | item item => exact follows_unmet trivial
    | literal json =>
      cases json with
      | array points =>
        have hbars : points.mapM (sparklineBar color) = .ok _ :=
          Checked.mapM_eq_ok_of_forall fun point hpoint => by
            obtain ⟨x,hx⟩ := Option.isSome_iff_exists.mp (hpoints points hprop point hpoint)
            unfold sparklineBar
            rw [hx]
            exact ⟨_,rfl⟩
        simp only [Json.asArray, hbars, Checked.ok_bind]
        exact follows_ok ((Grown.refl ctx).mono (by omega))
      | null | bool | string | number | object => cases hgiven

theorem listItem_cases (item : Json) :
    (((item.asStr.map quotable).getD false) = true ∧ ∃ pieces, listItem item = .ok pieces) ∨
    (((item.asStr.map quotable).getD false) = false ∧
      ∃ e, listItem item = .error e ∧ Refuses e .unmet) := by
  unfold listItem
  cases hitem : item.asStr with
  | none => exact Or.inr ⟨rfl,_,rfl,trivial⟩
  | some text =>
    rcases encodeString_cases text with ⟨htrue,piece,hpiece⟩ | ⟨hfalse,detail,herror⟩
    · exact Or.inl ⟨htrue,by simp [hpiece]⟩
    · exact Or.inr ⟨hfalse,.encodeError detail,by simp only [herror, Checked.error_bind],trivial⟩

theorem renderListItems_follows {value : PropValue} (hprop : comp.props.get "items" = some value)
    (hgiven : SlotGiven comp "items" .stringList) (hchildren : comp.children = [])
    (hroom : ctx.bindings.entries.length < maxBindings) :
    Follows (renderListItems comp value ctx) ctx.used (itemsDemands comp) (Grown ctx 1) := by
  unfold SlotGiven at hgiven
  unfold renderListItems itemsDemands stateDemands
  rw [hprop] at hgiven ⊢
  simp only [hchildren, List.isEmpty_nil, Bool.not_true, Checked.reject, Bool.false_eq_true,
    if_false, Checked.ok_bind]
  cases value with
  | binding binding =>
    cases binding with
    | state bind => exact (bindingSlot_follows hgiven hroom).map fun _ _ => ⟨_,rfl⟩
    | item item => exact follows_unmet trivial
  | literal json =>
    cases json with
    | array items =>
      refine follows_check (fun htrue => ?_) (fun hfalse => ?_)
        (fun _ _ => follows_ok ((Grown.refl ctx).mono (by omega)))
      · refine ⟨_,Checked.mapM_eq_ok_of_forall fun item hitem => ?_⟩
        have hquotable := List.all_eq_true.mp htrue item hitem
        rcases listItem_cases item with ⟨-,hok⟩ | ⟨hfalse,-⟩
        · exact hok
        · rw [hquotable] at hfalse
          cases hfalse
      · obtain ⟨item,hitem,hbad⟩ := List.all_eq_false.mp hfalse
        cases hmapped : items.mapM listItem with
        | ok pieces =>
          obtain ⟨piece,-,hok⟩ := Checked.exists_mem_of_mapM hmapped hitem
          rcases listItem_cases item with ⟨htrue,-⟩ | ⟨-,e,herror,-⟩
          · exact absurd htrue hbad
          · rw [hok] at herror
            cases herror
        | error e =>
          obtain ⟨bad,-,herror⟩ := mapM_eq_error hmapped
          rcases listItem_cases bad with ⟨-,pieces,hok⟩ | ⟨-,e',herror',hrefuses⟩
          · rw [hok] at herror
            cases herror
          · rw [herror] at herror'
            cases herror'
            exact ⟨_,rfl,hrefuses⟩
    | null | bool | string | number | object => cases hgiven

/-- A theme token is one of the registered ones. -/
def ThemeGiven (comp : Component) : Prop :=
  ∀ token, literalStr comp "colorToken" = some token → (colorToken token).isSome

theorem colorForm_iff (s : String) : colorForm s = true ↔
    Text.startsWith (Text.trim s) "#" ∧
      (Text.byteLen (Text.trim s) = 4 ∨ Text.byteLen (Text.trim s) = 7 ∨
        Text.byteLen (Text.trim s) = 9) ∧
      ((Text.trim s).toList.drop 1).all Text.isAsciiHexDigit := by
  simp [colorForm, and_assoc, or_assoc]

theorem colorLiteral_ok {s : String} (h : colorForm s = true) :
    ∃ piece, colorLiteral s = .ok piece := by
  have hvalid := (colorForm_iff s).mp h
  refine ⟨.color (Text.trim s),?_⟩
  unfold colorLiteral
  exact if_pos hvalid

theorem colorLiteral_error {s : String} (h : colorForm s = false) :
    ∃ e, colorLiteral s = .error e ∧ Refuses e .unmet := by
  have hinvalid := mt (colorForm_iff s).mpr (by simp [h])
  refine ⟨.encodeError s!"颜色 `{Text.trim s}` 不是受限 #RRGGBB[AA] 字面量",?_,trivial⟩
  unfold colorLiteral
  exact if_neg hinvalid

theorem follows_textColor {β : Type} {f : List Piece → Except RendererError (β × Ctx)}
    {used : Used} {post : Ctx → Prop} (htheme : ThemeGiven comp)
    (hf : ∀ color, Follows (f color) used [] post) :
    Follows (textColor comp >>= f) used (colorDemands comp) post := by
  unfold textColor colorDemands
  cases htoken : literalStr comp "colorToken" with
  | some token =>
    obtain ⟨color,hcolor⟩ := Option.isSome_iff_exists.mp (htheme token htoken)
    simp only [hcolor, Checked.ok_bind]
    exact hf _
  | none =>
    cases hcolor : literalStr comp "color" with
    | none => exact hf _
    | some color =>
      dsimp only
      rw [bind_assoc]
      have hok : colorForm color = true → ∃ piece, colorLiteral color = .ok piece := colorLiteral_ok
      have herror : colorForm color = false →
          ∃ e, colorLiteral color = .error e ∧ Refuses e .unmet := colorLiteral_error
      generalize colorLiteral color = literal at hok herror ⊢
      exact follows_check hok herror fun piece _ => hf _

/-- The colour of a text and its opacity, if it has one. -/
def opacityProps (comp : Component) (color : List Piece) : Except RendererError (List Piece) :=
  match literalF64 comp "opacity" with
  | some opacity => .ok (color ++ [.host "        opacity: ",.number opacity,.host ";\n"])
  | none => .ok color

theorem textStyleProps_eq (comp : Component) :
    textStyleProps comp = textColor comp >>= opacityProps comp := rfl

theorem renderText_follows (hgiven : SlotGiven comp "text" .string) (htheme : ThemeGiven comp)
    (hroom : ctx.bindings.entries.length + 2 ≤ maxBindings) :
    Follows (renderText lib comp ctx) ctx.used (stringDemands comp "text" ++ colorDemands comp)
      (Grown ctx 2) := by
  refine (renderStringProp_follows hgiven (by omega)).bind fun text ctx₁ _ hgrown => ?_
  dsimp only
  rw [textStyleProps_eq, bind_assoc]
  refine follows_textColor htheme fun color => ?_
  unfold opacityProps
  cases literalF64 comp "opacity" with
  | none => exact follows_ok (hgrown.mono (by omega))
  | some opacity => exact follows_ok (hgrown.mono (by omega))

theorem renderButton_follows (hgiven : SlotGiven comp "label" .string)
    (hroom : ctx.bindings.entries.length + 2 ≤ maxBindings) :
    Follows (renderButton lib comp ctx) ctx.used
      (stringDemands comp "label" ++ eventDemands comp "activate") (Grown ctx 2) := by
  refine (renderStringProp_follows hgiven (by omega)).bind fun label ctx₁ _ hgrown => ?_
  have hevent : Follows (eventCallback comp ctx₁ "activate") ctx₁.used
      (eventDemands comp "activate") (Grown ctx 2) :=
    eventCallback_follows.mono fun ctx₂ hcallback => (hgrown.trans hcallback).mono (by omega)
  exact hevent.map fun _ _ => ⟨_,rfl⟩

theorem renderToggle_follows (hgiven : SlotGiven comp "checked" .boolean)
    (hlabel : LabelGiven comp ctx.uiMinor) (hkind : quotable comp.kind = true)
    (hroom : ctx.bindings.entries.length + 2 ≤ maxBindings) :
    Follows (renderToggle lib comp ctx) ctx.used
      (checkedDemands comp ++ (accessibilityDemands ctx.uiMinor comp ++ eventDemands comp "toggle"))
      (Grown ctx 2) := by
  refine (toggleChecked_follows hgiven (by omega)).bind fun checked ctx₁ _ hgrown => ?_
  have hpaths := hgrown.paths
  rw [← hgrown.minor] at hlabel ⊢
  refine (renderAccessibilityLabel_follows hlabel hkind (by omega)).bind
    fun label ctx₂ _ hgrown' => ?_
  have hevent : Follows (eventCallback comp ctx₂ "toggle") ctx₂.used
      (eventDemands comp "toggle") (Grown ctx 2) :=
    eventCallback_follows.mono fun ctx₃ hcallback => (hgrown.trans hgrown').trans hcallback
  exact hevent.map fun _ _ => ⟨_,rfl⟩

theorem renderMeter_follows (hgiven : SlotGiven comp "value" .number)
    (hlabel : LabelGiven comp ctx.uiMinor) (hkind : quotable comp.kind = true)
    (hroom : ctx.bindings.entries.length + 2 ≤ maxBindings) :
    Follows (renderMeter lib comp ctx) ctx.used
      (stateDemands comp "value" .number ++ accessibilityDemands ctx.uiMinor comp)
      (Grown ctx 2) := by
  refine (meterValue_follows hgiven (by omega)).bind fun value ctx₁ _ hgrown => ?_
  have hpaths := hgrown.paths
  rw [← hgrown.minor] at hlabel ⊢
  have hfollows : Follows (renderAccessibilityLabel lib comp ctx₁) ctx₁.used
      (accessibilityDemands ctx₁.uiMinor comp) (Grown ctx 2) :=
    (renderAccessibilityLabel_follows hlabel hkind (by omega)).mono fun ctx₂ hgrown' =>
      hgrown.trans hgrown'
  exact hfollows.map fun _ _ => ⟨_,rfl⟩

/-- The tone of a Badge has a colour. -/
def ToneGiven (comp : Component) : Prop :=
  ∃ tone background, badgeTone comp = .ok tone ∧ badgeBackground tone = .ok background

theorem renderBadge_follows (hgiven : SlotGiven comp "label" .string) (htone : ToneGiven comp)
    (hroom : ctx.bindings.entries.length + 2 ≤ maxBindings) :
    Follows (renderBadge lib comp ctx) ctx.used (stringDemands comp "label") (Grown ctx 2) := by
  obtain ⟨tone,background,htone,hbackground⟩ := htone
  have hlabel : Follows (renderStringProp lib comp "label" ctx) ctx.used
      (stringDemands comp "label") (Grown ctx 1) := renderStringProp_follows hgiven (by omega)
  refine (hlabel.map fun label ctx₁ => ?_).mono fun ctx₁ hgrown => hgrown.mono (by omega)
  simp only [htone, hbackground, Checked.ok_bind]
  exact ⟨_,rfl⟩

theorem renderSparkline_follows (hlabel : SlotGiven comp "label" .string)
    (hvalues : SlotGiven comp "values" .numberList) (hpoints : PointsGiven comp)
    (hcolor : ∃ color, sparklineColor comp = .ok color)
    (hroom : ctx.bindings.entries.length + 2 ≤ maxBindings) :
    Follows (renderSparkline comp ctx) ctx.used
      (labelDemands comp ++ stateDemands comp "values" .numberList) (Grown ctx 2) := by
  obtain ⟨color,hcolor⟩ := hcolor
  refine (sparklineLabel_follows hlabel (by omega)).bind fun label ctx₁ _ hgrown => ?_
  have hpaths := hgrown.paths
  have hbars : Follows (sparklineBars comp color ctx₁) ctx₁.used
      (stateDemands comp "values" .numberList) (Grown ctx 2) :=
    (sparklineBars_follows hvalues hpoints (by omega)).mono fun ctx₂ hgrown' =>
      hgrown.trans hgrown'
  simp only [hcolor, Checked.ok_bind]
  exact hbars.map fun _ _ => ⟨_,rfl⟩

end Emitters

end Floatile.Renderer
