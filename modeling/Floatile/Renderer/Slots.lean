import Floatile.Renderer.Tree

/-! What the generation of a part of the source does to the registered paths and events. -/
namespace Floatile.Renderer

open Floatile.Lib
open Floatile.Lib.Checked (bind_eq_ok)
open Floatile.Core
open Floatile.UiSchema

/-- The slot of a path. -/
def slotOf (path : String) (valueType : BindingValueType) : BindingSlot :=
  ⟨path,"prop_" ++ pathPropName path,valueType⟩

/-- Slots are named after their paths, and callbacks are counted. -/
structure Ctx.Valid (ctx : Ctx) : Prop where
  named : ∀ path slot, ctx.bindings.get path = some slot → slot = slotOf path slot.valueType
  counted : ∀ event slot, ctx.events.get event = some slot →
    slot.event = event ∧ ∃ i < ctx.callbackCounter, slot.callback = "emit_" ++ toString i
  distinct : ∀ event event' slot slot', ctx.events.get event = some slot →
    ctx.events.get event' = some slot' → slot.callback = slot'.callback → event = event'

/-- A part of the generation expands a number of nodes and registers exactly the given paths. -/
structure Steps (ctx : Ctx) (count : ℕ) (paths : List (String × BindingValueType)) (ctx' : Ctx) :
    Prop where
  valid : ctx'.Valid
  bindings : ∀ path slot, ctx'.bindings.get path = some slot ↔
    ctx.bindings.get path = some slot ∨
      slot = slotOf path slot.valueType ∧ (path,slot.valueType) ∈ paths
  parsed : ∀ e ∈ paths, ∃ segments, PathSegments.parse e.1 = .ok segments
  events : ∀ event slot, ctx.events.get event = some slot → ctx'.events.get event = some slot
  nodes : ctx'.nodes = ctx.nodes + count
  minor : ctx'.uiMinor = ctx.uiMinor

theorem Steps.refl {ctx : Ctx} (h : ctx.Valid) : Steps ctx 0 [] ctx where
  valid := h
  bindings path slot := by simp
  parsed e he := by cases he
  events event slot hslot := hslot
  nodes := rfl
  minor := rfl

theorem Steps.enter {ctx : Ctx} (h : ctx.Valid) : Steps ctx 1 [] ctx.entered where
  valid := ⟨h.named,h.counted,h.distinct⟩
  bindings path slot := by simp
  parsed e he := by cases he
  events event slot hslot := hslot
  nodes := rfl
  minor := rfl

theorem Steps.trans {ctx ctx₁ ctx₂ : Ctx} {m n : ℕ} {paths paths' : List (String × BindingValueType)}
    (h : Steps ctx m paths ctx₁) (h' : Steps ctx₁ n paths' ctx₂) :
    Steps ctx (m + n) (paths ++ paths') ctx₂ where
  valid := h'.valid
  bindings path slot := by
    rw [h'.bindings, h.bindings, List.mem_append]
    tauto
  parsed e he := by
    rcases List.mem_append.mp he with he | he
    · exact h.parsed e he
    · exact h'.parsed e he
  events event slot hslot := h'.events event slot (h.events event slot hslot)
  nodes := by rw [h'.nodes, h.nodes, Nat.add_assoc]
  minor := h'.minor.trans h.minor

theorem bindingSlot_steps {bind : String} {valueType : BindingValueType} {ctx ctx' : Ctx}
    {slot : BindingSlot} (hctx : ctx.Valid)
    (h : bindingSlot bind valueType ctx = .ok (slot,ctx')) :
    slot = slotOf bind valueType ∧ Steps ctx 0 [(bind,valueType)] ctx' ∧
      ctx'.bindings.get bind = some slot := by
  obtain ⟨segments,hparse,h⟩ := bind_eq_ok.mp h
  rw [Checked.mapError_eq_ok] at hparse
  have hparsed : ∀ e ∈ [(bind,valueType)], ∃ segments, PathSegments.parse e.1 = .ok segments := by
    simpa using ⟨segments,hparse⟩
  cases hget : ctx.bindings.get bind with
  | some old =>
    simp only [hget, Checked.check_bind_eq_ok, Checked.reject_eq_ok, not_not, Except.ok.injEq,
      Prod.mk.injEq] at h
    obtain ⟨htype,rfl,rfl⟩ := h
    have hold := hctx.named bind old hget
    subst htype
    refine ⟨hold,⟨hctx,?_,hparsed,fun _ _ h => h,rfl,rfl⟩,hget⟩
    intro path slot
    constructor
    · exact Or.inl
    · rintro (hslot | ⟨hslot,hmem⟩)
      · exact hslot
      · simp only [List.mem_singleton, Prod.mk.injEq] at hmem
        obtain ⟨rfl,htype⟩ := hmem
        rw [hget, hslot, htype, ← hold]
  | none =>
    simp only [hget, Checked.check_bind_eq_ok, Checked.reject_eq_ok, Except.ok.injEq,
      Prod.mk.injEq] at h
    obtain ⟨-,rfl,rfl⟩ := h
    have hbindings : ∀ path slot, (ctx.bindings.insert bind (slotOf bind valueType)).get path =
        some slot ↔ ctx.bindings.get path = some slot ∨
          slot = slotOf path slot.valueType ∧ (path,slot.valueType) ∈ [(bind,valueType)] := by
      intro path slot
      rw [OrdMap.get_insert, List.mem_singleton, Prod.mk.injEq]
      split_ifs with hpath
      · subst hpath
        rw [hget]
        constructor
        · intro hslot
          obtain rfl := Option.some.inj hslot
          exact Or.inr ⟨rfl,rfl,rfl⟩
        · rintro (hnone | ⟨hslot,-,htype⟩)
          · cases hnone
          · rw [hslot, htype]
      · simp [hpath]
    refine ⟨rfl,⟨⟨?_,hctx.counted,hctx.distinct⟩,hbindings,hparsed,fun _ _ h => h,rfl,rfl⟩,
      OrdMap.get_insert_self _ _ _⟩
    intro path slot hslot
    rcases (hbindings path slot).mp hslot with hold | ⟨hnew,-⟩
    · exact hctx.named path slot hold
    · exact hnew

/-- Callbacks with different numbers are different. -/
theorem callback_injective {i j : ℕ} (h : "emit_" ++ toString i = "emit_" ++ toString j) :
    i = j := by
  have hlist := congrArg String.toList h
  rw [String.toList_append, String.toList_append] at hlist
  have hdigits : Nat.toDigits 10 i = Nat.toDigits 10 j := by
    simpa [toString, Nat.repr] using List.append_cancel_left hlist
  rw [← Nat.ofDigitChars_ten_toDigits (n := i), hdigits, Nat.ofDigitChars_ten_toDigits]

/-- The next callback is none of the registered ones. -/
theorem Ctx.Valid.next_callback {ctx : Ctx} (hctx : ctx.Valid) {event : String} {slot : EventSlot}
    (hslot : ctx.events.get event = some slot) :
    slot.callback ≠ "emit_" ++ toString ctx.callbackCounter := by
  obtain ⟨-,i,hi,hcallback⟩ := hctx.counted event slot hslot
  rw [hcallback]
  intro heq
  have hsame := callback_injective heq
  omega

theorem eventCallback_steps {comp : Component} {ctx ctx' : Ctx} {inputEvent : String}
    {slot : EventSlot} (hctx : ctx.Valid)
    (h : eventCallback comp ctx inputEvent = .ok (slot,ctx')) :
    Steps ctx 0 [] ctx' ∧ ctx'.events.get slot.event = some slot ∧
      ∃ emitted, comp.events.get inputEvent = some emitted ∧ slot.event = emitted.emit := by
  unfold eventCallback at h
  cases hemitted : comp.events.get inputEvent with
  | none =>
    rw [hemitted] at h
    cases h
  | some emitted =>
    rw [hemitted] at h
    dsimp only at h
    cases hget : ctx.events.get emitted.emit with
    | some old =>
      rw [hget] at h
      cases h
      obtain ⟨hevent,-⟩ := hctx.counted _ _ hget
      exact ⟨Steps.refl hctx,by rw [hevent, hget],emitted,rfl,hevent⟩
    | none =>
      rw [hget] at h
      cases h
      refine ⟨⟨⟨hctx.named,?_,?_⟩,by simp,by simp,?_,rfl,rfl⟩,OrdMap.get_insert_self _ _ _,
        emitted,rfl,rfl⟩
      · intro event slot hslot
        rw [OrdMap.get_insert] at hslot
        split_ifs at hslot with hevent
        · obtain rfl := Option.some.inj hslot
          exact ⟨hevent.symm,ctx.callbackCounter,Nat.lt_succ_self _,rfl⟩
        · obtain ⟨hsame,i,hi,hcallback⟩ := hctx.counted event slot hslot
          exact ⟨hsame,i,Nat.lt_succ_of_lt hi,hcallback⟩
      · intro event event' slot slot' hslot hslot' hcallback
        rw [OrdMap.get_insert] at hslot hslot'
        split_ifs at hslot hslot' with hevent hevent' hevent'
        · rw [hevent, hevent']
        · obtain rfl := Option.some.inj hslot
          exact absurd hcallback.symm (hctx.next_callback hslot')
        · obtain rfl := Option.some.inj hslot'
          exact absurd hcallback (hctx.next_callback hslot)
        · exact hctx.distinct event event' slot slot' hslot hslot' hcallback
      · intro event slot hslot
        rw [OrdMap.get_insert_of_ne]
        · exact hslot
        · rintro rfl
          rw [hget] at hslot
          cases hslot

end Floatile.Renderer
