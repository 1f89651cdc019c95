import Floatile.Core.Layout
import Floatile.Lib.Transition

/-! The modes of the widget window: when clicks pass through it, the global hotkey that brings the
edit mode back, and how the hotkey is registered. Calls of the platform may fail at every step. -/
namespace Floatile.Shell.ModeControl

open Floatile.Core.Layout (WidgetMode)
open Floatile.Lib.Transition

/-- What a change of the mode asks of the window. -/
inductive ModeEffect where
  | edit
  | shown (clickThrough : Bool)

structure ShellController where
  mode : WidgetMode
  clickThroughSupported : Bool

namespace ShellController

def new (clickThroughSupported : Bool) : ShellController := ⟨.edit,clickThroughSupported⟩

def currentEffect (c : ShellController) : ModeEffect :=
  match c.mode with
  | .edit => .edit
  | .shown => .shown c.clickThroughSupported

def toggleMode (c : ShellController) : ShellController := { c with mode := c.mode.toggle }

def restoreEditMode (c : ShellController) : ShellController := { c with mode := .edit }

end ShellController

inductive PlatformKind where
  | windows
  | macOS
  | x11
  | wayland
  | unknown
  deriving DecidableEq

/-- What the probe has found. On Windows clicks can always pass through a window. -/
structure Probe where
  kind : PlatformKind
  clickThrough : Bool
  probed : kind = .windows → clickThrough = true

/-- The result of `set_click_through`; a failed call may have taken effect. -/
inductive PlatformResult where
  | done
  | failed (tookEffect : Bool)
  deriving DecidableEq

/-- The native window passes clicks through or not, and shows the controls of the edit mode. -/
structure WidgetWindow where
  clickThrough : Bool
  editMode : Bool
  deriving DecidableEq

def ModeEffect.clickThrough : ModeEffect → Bool
  | .edit => false
  | .shown clickThrough => clickThrough

def ModeEffect.editMode : ModeEffect → Bool
  | .edit => true
  | .shown _ => false

def applyModeEffect (w : WidgetWindow) (effect : ModeEffect) : PlatformResult → WidgetWindow
  | .done => ⟨effect.clickThrough,effect.editMode⟩
  | .failed tookEffect => if tookEffect then { w with clickThrough := effect.clickThrough } else w

/-- The recovery hotkey, named by its place among the candidates. -/
inductive Hotkey where
  | unregistered
  | registered (candidate : ℕ)
  | lost (candidate : ℕ)

/-- The timer that sets up the window, the hotkey and the tray icon on Windows. -/
structure RegisterTimer where
  running : Bool
  retries : ℕ
  candidateIndex : ℕ
  widgetRoleDone : Bool
  hotkeyDone : Bool
  trayDone : Bool

def maxRetries : ℕ := 25

def hotkeyCandidates : List String := ["Ctrl+Shift+E","Ctrl+Alt+E","Ctrl+Shift+F12"]

/-- `restored` says that the stored layout has been restored, `attempts` lists the results of the
registrations so far, and `ticks` counts the turns of the timer. -/
structure HostState where
  controller : ShellController
  window : WidgetWindow
  hotkey : Hotkey
  timer : RegisterTimer
  restored : Bool
  attempts : List Bool
  ticks : ℕ

inductive HostLabel where
  | listen (registered : Bool)
  | tick (role hotkey tray : Bool)
  | restore (mode : WidgetMode) (result : PlatformResult)
  | showMode (result : PlatformResult)
  | hotkey (result : PlatformResult)
  | escape (result : PlatformResult)
  | focused (result : PlatformResult)
  | listenerLost

namespace HostState

def started : HostState where
  controller := ShellController.new false
  window := ⟨false,true⟩
  hotkey := .unregistered
  timer := ⟨true,0,0,false,false,false⟩
  restored := false
  attempts := []
  ticks := 0

/-- The controller changes, and the window follows if the platform lets it. -/
def follow (s : HostState) (controller : ShellController) (result : PlatformResult) : HostState :=
  { s with controller := controller
           window := applyModeEffect s.window controller.currentEffect result }

/-- The listener starts before the event loop, and is not tried again. -/
def listened (s : HostState) : Bool → HostState
  | true => { s with
      controller := { s.controller with clickThroughSupported := true }
      hotkey := .registered 0
      attempts := [true] }
  | false => { s with attempts := [false] }

/-- One candidate after the other is tried. -/
def registerHotkey (s : HostState) (registered : Bool) : HostState :=
  if s.timer.hotkeyDone then s
  else if hotkeyCandidates.length ≤ s.timer.candidateIndex then
    { s with timer := { s.timer with hotkeyDone := true } }
  else if registered then
    { s with
      controller := { s.controller with clickThroughSupported := true }
      hotkey := .registered s.timer.candidateIndex
      timer := { s.timer with hotkeyDone := true }
      attempts := s.attempts ++ [true] }
  else
    { s with
      timer := { s.timer with candidateIndex := s.timer.candidateIndex + 1 }
      attempts := s.attempts ++ [false] }

/-- A registration that fails is tried again at the next turn. -/
def hotkeyPending (s : HostState) (registered : Bool) : Bool :=
  !s.timer.hotkeyDone && decide (s.timer.candidateIndex < hotkeyCandidates.length) && !registered

/-- A turn of the timer. It stops when nothing is pending, or when its retries are used up. -/
def tick (s : HostState) (role hotkey tray : Bool) : HostState :=
  if maxRetries ≤ s.timer.retries then
    { s with timer := { s.timer with running := false }, ticks := s.ticks + 1 }
  else
    let roleDone := s.timer.widgetRoleDone || role
    let trayDone := s.timer.trayDone || tray
    let pending := !roleDone || s.hotkeyPending hotkey || !trayDone
    let after := s.registerHotkey hotkey
    { after with
      timer := { after.timer with
        running := pending
        retries := if pending then s.timer.retries + 1 else s.timer.retries
        widgetRoleDone := roleDone
        trayDone := trayDone }
      ticks := s.ticks + 1 }

variable (probe : Probe)

def step (s : HostState) : HostLabel → Option HostState
  | .listen registered =>
    if (probe.kind = .x11 ∨ probe.kind = .macOS) ∧ probe.clickThrough = true ∧ s.attempts = [] then
      some (s.listened registered)
    else none
  | .tick role hotkey tray =>
    if probe.kind = .windows ∧ s.timer.running = true then some (s.tick role hotkey tray) else none
  | .restore mode result =>
    -- The layout is restored once, when the window is there.
    if s.restored then none
    else if s.controller.mode = mode then some { s with restored := true }
    else some { s.follow { s.controller with mode := mode } result with restored := true }
  | .showMode result =>
    -- The button is one of the controls of the edit mode.
    if s.window.editMode then some (s.follow s.controller.toggleMode result) else none
  | .hotkey result =>
    match s.hotkey with
    | .registered _ => some (s.follow s.controller.restoreEditMode result)
    | _ => none
  | .escape result =>
    if s.controller.mode = .shown then some (s.follow s.controller.restoreEditMode result)
    else some s
  | .focused result => some (s.follow s.controller result)
  | .listenerLost =>
    match s.hotkey with
    | .registered candidate =>
      if probe.kind = .x11 then some { s with hotkey := .lost candidate } else none
    | _ => none

end HostState

def modeSystem (probe : Probe) : System HostState HostLabel :=
  System.ofPartial (fun s => s = HostState.started) (HostState.step probe)

def Hotkey.candidate : Hotkey → Option ℕ
  | .unregistered => none
  | .registered candidate => some candidate
  | .lost candidate => some candidate

/-- The controller allows clicks to pass through only if the platform can do it and a hotkey has
been registered. -/
structure WayBack (probe : Probe) (s : HostState) : Prop where
  supported : s.controller.clickThroughSupported = true →
    probe.clickThrough = true ∧ s.hotkey.candidate.isSome = true
  window : s.window.clickThrough = true → s.controller.clickThroughSupported = true

/-- The candidates before the registered one have failed, and none is tried twice. -/
structure Tried (probe : Probe) (s : HostState) : Prop where
  unregistered : s.hotkey.candidate = none →
    s.attempts = List.replicate s.attempts.length false ∧
      s.attempts.length ≤ hotkeyCandidates.length ∧
      (probe.kind = .windows → s.timer.candidateIndex = s.attempts.length)
  registered : ∀ candidate, s.hotkey.candidate = some candidate →
    s.attempts = List.replicate candidate false ++ [true] ∧ candidate < hotkeyCandidates.length ∧
      (probe.kind = .windows → s.timer.hotkeyDone = true)

/-- The timer stops at the latest when its retries are used up. -/
def Bounded (s : HostState) : Prop :=
  s.timer.retries ≤ maxRetries ∧ s.ticks ≤ s.timer.retries + (if s.timer.running then 0 else 1)

section Steps

variable {probe : Probe} {s t : HostState}

theorem applyModeEffect_clickThrough {w : WidgetWindow} {c : ShellController} {result : PlatformResult}
    (h : (applyModeEffect w c.currentEffect result).clickThrough = true) :
    w.clickThrough = true ∨ c.clickThroughSupported = true := by
  have heffect (hyes : c.currentEffect.clickThrough = true) : c.clickThroughSupported = true := by
    rw [ShellController.currentEffect] at hyes
    cases hmode : c.mode with
    | edit =>
      rw [hmode] at hyes
      cases hyes
    | shown =>
      rw [hmode] at hyes
      exact hyes
  cases result with
  | done => exact Or.inr (heffect h)
  | failed tookEffect =>
    cases tookEffect with
    | true => exact Or.inr (heffect h)
    | false => exact Or.inl h

theorem WayBack.follow (h : WayBack probe s) {c : ShellController} (result : PlatformResult)
    (hsame : c.clickThroughSupported = s.controller.clickThroughSupported) :
    WayBack probe (s.follow c result) := by
  refine ⟨fun hyes => h.supported (hsame ▸ hyes),?_⟩
  intro hyes
  rcases applyModeEffect_clickThrough hyes with hbefore | hafter
  · exact hsame.trans (h.window hbefore)
  · exact hafter

/-- What a turn of the timer does to the registration. -/
theorem registerHotkey_cases (s : HostState) (registered : Bool) :
    (s.timer.hotkeyDone = false ∧ s.timer.candidateIndex < hotkeyCandidates.length ∧
      registered = true ∧ s.registerHotkey registered = { s with
        controller := { s.controller with clickThroughSupported := true }
        hotkey := .registered s.timer.candidateIndex
        timer := { s.timer with hotkeyDone := true }
        attempts := s.attempts ++ [true] }) ∨
    (s.timer.hotkeyDone = false ∧ s.timer.candidateIndex < hotkeyCandidates.length ∧
      registered = false ∧ s.registerHotkey registered = { s with
        timer := { s.timer with candidateIndex := s.timer.candidateIndex + 1 }
        attempts := s.attempts ++ [false] }) ∨
    ∃ hotkeyDone, (s.timer.hotkeyDone = true → hotkeyDone = true) ∧
      s.registerHotkey registered = { s with timer := { s.timer with hotkeyDone := hotkeyDone } } := by
  rw [HostState.registerHotkey]
  split_ifs with hdone hlast hregistered
  · exact Or.inr (Or.inr ⟨s.timer.hotkeyDone,id,rfl⟩)
  · exact Or.inr (Or.inr ⟨true,fun _ => rfl,rfl⟩)
  · exact Or.inl ⟨by simpa using hdone,by omega,hregistered,rfl⟩
  · exact Or.inr (Or.inl ⟨by simpa using hdone,by omega,by simpa using hregistered,rfl⟩)

theorem WayBack.tick (h : WayBack probe s) (hclick : probe.clickThrough = true)
    (role hotkey tray : Bool) : WayBack probe (s.tick role hotkey tray) := by
  rw [HostState.tick]
  split_ifs
  · exact ⟨h.supported,h.window⟩
  · dsimp only
    obtain ⟨-,-,-,heq⟩ | ⟨-,-,-,heq⟩ | ⟨_,-,heq⟩ := registerHotkey_cases s hotkey
    · rw [heq]
      exact ⟨fun _ => ⟨hclick,rfl⟩,fun _ => rfl⟩
    · rw [heq]
      exact ⟨h.supported,h.window⟩
    · rw [heq]
      exact ⟨h.supported,h.window⟩

theorem Tried.tick (h : Tried probe s) (hkind : probe.kind = .windows) (role hotkey tray : Bool) :
    Tried probe (s.tick role hotkey tray) := by
  rw [HostState.tick]
  split_ifs
  · exact ⟨h.unregistered,h.registered⟩
  · dsimp only
    obtain ⟨hdone,hlt,-,heq⟩ | ⟨hdone,hlt,-,heq⟩ | ⟨_,hkeeps,heq⟩ := registerHotkey_cases s hotkey
    · -- A candidate is registered: nothing was before.
      rw [heq]
      cases hbefore : s.hotkey.candidate with
      | some c => cases hdone.symm.trans ((h.registered c hbefore).2.2 hkind)
      | none =>
        obtain ⟨hall,-,hindex⟩ := h.unregistered hbefore
        refine ⟨nofun,?_⟩
        rintro c hc
        cases hc
        rw [hindex hkind] at hlt ⊢
        exact ⟨congrArg (· ++ [true]) hall,hlt,fun _ => rfl⟩
    · rw [heq]
      cases hbefore : s.hotkey.candidate with
      | some c => cases hdone.symm.trans ((h.registered c hbefore).2.2 hkind)
      | none =>
        obtain ⟨hall,-,hindex⟩ := h.unregistered hbefore
        rw [hindex hkind] at hlt
        refine ⟨fun _ => ⟨?_,?_,fun _ => ?_⟩,fun c hc => nomatch hbefore.symm.trans hc⟩
        · dsimp only
          rw [List.length_append, List.length_singleton, List.replicate_succ', ← hall]
        · rw [List.length_append, List.length_singleton]
          exact hlt
        · dsimp only
          rw [List.length_append, List.length_singleton, hindex hkind]
    · rw [heq]
      refine ⟨h.unregistered,?_⟩
      intro c hc
      obtain ⟨hall,hlt,hdone⟩ := h.registered c hc
      exact ⟨hall,hlt,fun hwin => hkeeps (hdone hwin)⟩

theorem Bounded.tick (h : Bounded s) (hrunning : s.timer.running = true) (role hotkey tray : Bool) :
    Bounded (s.tick role hotkey tray) := by
  obtain ⟨hretries,hticks⟩ := h
  rw [hrunning, if_pos rfl] at hticks
  rw [HostState.tick]
  split_ifs with hlast
  · refine ⟨hretries,?_⟩
    dsimp only
    rw [if_neg Bool.false_ne_true]
    omega
  · dsimp only
    constructor
    · dsimp only
      split_ifs <;> omega
    · dsimp only
      split_ifs <;> omega

structure Safe (probe : Probe) (s : HostState) : Prop where
  wayBack : WayBack probe s
  tried : Tried probe s
  bounded : Bounded s

theorem safe_started (probe : Probe) : Safe probe HostState.started := by
  refine ⟨⟨nofun,nofun⟩,⟨fun _ => ⟨rfl,Nat.zero_le _,fun _ => rfl⟩,?_⟩,
    ⟨Nat.zero_le _,Nat.zero_le _⟩⟩
  intro c hc
  cases hc

/-- Only the controller and the window change. -/
theorem Safe.follow (h : Safe probe s) {c : ShellController} (result : PlatformResult)
    (hsame : c.clickThroughSupported = s.controller.clickThroughSupported) :
    Safe probe (s.follow c result) :=
  ⟨h.wayBack.follow result hsame,⟨h.tried.unregistered,h.tried.registered⟩,h.bounded⟩

theorem Safe.restore (h : Safe probe s) : Safe probe { s with restored := true } :=
  ⟨⟨h.wayBack.supported,h.wayBack.window⟩,⟨h.tried.unregistered,h.tried.registered⟩,h.bounded⟩

theorem Safe.step (h : Safe probe s) {label : HostLabel} (hstep : s.step probe label = some t) :
    Safe probe t := by
  cases label with
  | listen registered =>
    rw [HostState.step] at hstep
    split_ifs at hstep with hlisten
    cases hstep
    obtain ⟨hkind,hclick,hnone⟩ := hlisten
    have hwindows : probe.kind ≠ .windows := by
      rintro hwin
      rw [hwin] at hkind
      simp at hkind
    have hfresh : s.hotkey.candidate = none := by
      cases hbefore : s.hotkey.candidate with
      | none => rfl
      | some c =>
        have hall := (h.tried.registered c hbefore).1
        rw [hnone] at hall
        simp at hall
    cases registered with
    | true =>
      refine ⟨⟨fun _ => ⟨hclick,rfl⟩,fun _ => rfl⟩,⟨nofun,?_⟩,h.bounded⟩
      rintro c hc
      cases hc
      exact ⟨rfl,by decide,fun hwin => absurd hwin hwindows⟩
    | false =>
      refine ⟨⟨h.wayBack.supported,h.wayBack.window⟩,⟨fun _ => ⟨rfl,?_,fun hwin => absurd hwin hwindows⟩,
        ?_⟩,h.bounded⟩
      · change 1 ≤ 3
        decide
      · intro c hc
        cases hfresh.symm.trans hc
  | tick role hotkey tray =>
    rw [HostState.step] at hstep
    split_ifs at hstep with htick
    cases hstep
    obtain ⟨hkind,hrunning⟩ := htick
    exact ⟨h.wayBack.tick (probe.probed hkind) role hotkey tray,h.tried.tick hkind role hotkey tray,
      h.bounded.tick hrunning role hotkey tray⟩
  | restore mode result =>
    rw [HostState.step] at hstep
    split_ifs at hstep <;> cases hstep
    · exact h.restore
    · have hfollow : Safe probe (s.follow { s.controller with mode := mode } result) :=
        h.follow result rfl
      exact hfollow.restore
  | showMode result =>
    rw [HostState.step] at hstep
    split_ifs at hstep
    cases hstep
    exact h.follow result rfl
  | hotkey result =>
    rw [HostState.step] at hstep
    split at hstep
    · cases hstep
      exact h.follow result rfl
    · cases hstep
  | escape result =>
    rw [HostState.step] at hstep
    split_ifs at hstep
    · cases hstep
      exact h.follow result rfl
    · cases hstep
      exact h
  | focused result =>
    cases hstep
    exact h.follow result rfl
  | listenerLost =>
    rw [HostState.step] at hstep
    split at hstep
    · rename_i candidate hregistered
      split_ifs at hstep with hkind
      cases hstep
      have hbefore : s.hotkey.candidate = some candidate := by rw [hregistered]; rfl
      refine ⟨⟨fun hyes => ⟨(h.wayBack.supported hyes).1,rfl⟩,h.wayBack.window⟩,
        ⟨nofun,?_⟩,h.bounded⟩
      rintro c hc
      cases hc
      exact h.tried.registered candidate hbefore
    · cases hstep

/-- The hotkey and Escape lead back. -/
def HostLabel.returns : HostLabel → Bool
  | .hotkey _ => true
  | .escape _ => true
  | _ => false

/-- The user presses the button of the other mode. -/
def HostLabel.chooses : HostLabel → Bool
  | .showMode _ => true
  | _ => false

/-- The stored layout may lead to the other mode, too. -/
def HostLabel.restores : HostLabel → Bool
  | .restore _ _ => true
  | _ => false

/-- The mode of the controller reaches the window. -/
def HostLabel.resyncs : HostLabel → Bool
  | .focused .done => true
  | .hotkey .done => true
  | _ => false

def WidgetWindow.editing : WidgetWindow := ⟨false,true⟩

theorem applyModeEffect_edit (w : WidgetWindow) {c : ShellController} {result : PlatformResult}
    (hmode : c.mode = .edit) (hw : result = .done ∨ w = WidgetWindow.editing) :
    applyModeEffect w c.currentEffect result = WidgetWindow.editing := by
  rw [ShellController.currentEffect, hmode]
  cases result with
  | done => rfl
  | failed tookEffect =>
    obtain rfl := hw.resolve_left nofun
    cases tookEffect with
    | true => rfl
    | false => rfl

theorem edit_of_returns {label : HostLabel} (hreturns : label.returns = true)
    (hstep : s.step probe label = some t) : t.controller.mode = .edit ∧
      (label.resyncs = true ∨ label = .escape .done ∧ s.controller.mode = .shown →
        t.window = WidgetWindow.editing) := by
  cases label with
  | hotkey result =>
    rw [HostState.step] at hstep
    split at hstep
    · cases hstep
      refine ⟨rfl,?_⟩
      rintro (hdone | ⟨hno,-⟩)
      · cases result with
        | done => exact applyModeEffect_edit s.window rfl (Or.inl rfl)
        | failed tookEffect => cases hdone
      · cases hno
    · cases hstep
  | escape result =>
    rw [HostState.step] at hstep
    split_ifs at hstep with hmode
    · cases hstep
      refine ⟨rfl,?_⟩
      rintro (hno | ⟨hdone,-⟩)
      · cases hno
      · cases hdone
        exact applyModeEffect_edit s.window rfl (Or.inl rfl)
    · cases hstep
      refine ⟨?_,?_⟩
      · cases hedit : s.controller.mode with
        | edit => rfl
        | shown => exact absurd hedit hmode
      · rintro (hno | ⟨-,hshown⟩)
        · cases hno
        · exact absurd hshown hmode
  | listen registered => cases hreturns
  | tick role hotkey tray => cases hreturns
  | restore mode result => cases hreturns
  | showMode result => cases hreturns
  | focused result => cases hreturns
  | listenerLost => cases hreturns

theorem registerHotkey_edit (s : HostState) (registered : Bool) :
    (s.registerHotkey registered).controller.mode = s.controller.mode ∧
      (s.registerHotkey registered).window = s.window := by
  obtain ⟨-,-,-,heq⟩ | ⟨-,-,-,heq⟩ | ⟨_,-,heq⟩ := registerHotkey_cases s registered
  · rw [heq]
    exact ⟨rfl,rfl⟩
  · rw [heq]
    exact ⟨rfl,rfl⟩
  · rw [heq]
    exact ⟨rfl,rfl⟩

/-- The layout is restored once. -/
theorem restored_kept {label : HostLabel} (hrestored : s.restored = true)
    (hstep : s.step probe label = some t) : t.restored = true := by
  cases label with
  | listen registered =>
    rw [HostState.step] at hstep
    split_ifs at hstep
    cases hstep
    cases registered <;> exact hrestored
  | tick role hotkey tray =>
    rw [HostState.step] at hstep
    split_ifs at hstep
    cases hstep
    rw [HostState.tick]
    split_ifs
    · exact hrestored
    · obtain ⟨-,-,-,heq⟩ | ⟨-,-,-,heq⟩ | ⟨_,-,heq⟩ := registerHotkey_cases s hotkey
      all_goals
        rw [heq]
        exact hrestored
  | restore mode result =>
    rw [HostState.step, if_pos hrestored] at hstep
    cases hstep
  | showMode result | escape result =>
    rw [HostState.step] at hstep
    split_ifs at hstep
    all_goals
      cases hstep
      exact hrestored
  | listenerLost =>
    rw [HostState.step] at hstep
    split at hstep
    · split_ifs at hstep
      cases hstep
      exact hrestored
    · cases hstep
  | hotkey result =>
    rw [HostState.step] at hstep
    split at hstep <;> cases hstep
    exact hrestored
  | focused result =>
    cases hstep
    exact hrestored

/-- Nothing but a choice and the restored layout leaves the edit mode, and a window that follows it
keeps doing so. -/
theorem edit_of_edit {label : HostLabel} (hmode : s.controller.mode = .edit)
    (hchooses : label.chooses = false) (hrestores : s.restored = false → label.restores = false)
    (hstep : s.step probe label = some t) :
    t.controller.mode = .edit ∧ (label.resyncs = true ∨ s.window = WidgetWindow.editing →
      t.window = WidgetWindow.editing) := by
  cases label with
  | listen registered =>
    rw [HostState.step] at hstep
    split_ifs at hstep
    cases hstep
    cases registered with
    | true => exact ⟨hmode,fun h => h.resolve_left nofun⟩
    | false => exact ⟨hmode,fun h => h.resolve_left nofun⟩
  | tick role hotkey tray =>
    rw [HostState.step] at hstep
    split_ifs at hstep
    cases hstep
    rw [HostState.tick]
    split_ifs
    · exact ⟨hmode,fun h => h.resolve_left nofun⟩
    · obtain ⟨hsame,hwindow⟩ := registerHotkey_edit s hotkey
      exact ⟨hsame.trans hmode,fun h => hwindow.trans (h.resolve_left nofun)⟩
  | restore mode result =>
    rw [HostState.step] at hstep
    cases hrestored : s.restored with
    | true =>
      rw [if_pos hrestored] at hstep
      cases hstep
    | false => cases hrestores hrestored
  | showMode result => cases hchooses
  | hotkey result =>
    rw [HostState.step] at hstep
    split at hstep
    · cases hstep
      refine ⟨rfl,?_⟩
      rintro (hdone | hbefore)
      · cases result with
        | done => exact applyModeEffect_edit s.window rfl (Or.inl rfl)
        | failed tookEffect => cases hdone
      · exact applyModeEffect_edit _ rfl (Or.inr hbefore)
    · cases hstep
  | escape result =>
    rw [HostState.step, if_neg (by rw [hmode]; nofun)] at hstep
    cases hstep
    exact ⟨hmode,fun h => h.resolve_left nofun⟩
  | focused result =>
    cases hstep
    refine ⟨hmode,?_⟩
    rintro (hdone | hbefore)
    · cases result with
      | done => exact applyModeEffect_edit s.window hmode (Or.inl rfl)
      | failed tookEffect => cases hdone
    · exact applyModeEffect_edit _ hmode (Or.inr hbefore)
  | listenerLost =>
    rw [HostState.step] at hstep
    split at hstep
    · split_ifs at hstep
      cases hstep
      exact ⟨hmode,fun h => h.resolve_left nofun⟩
    · cases hstep

theorem edit_of_run {labels : List HostLabel} (hmode : s.controller.mode = .edit)
    (hchooses : ∀ label ∈ labels, label.chooses = false)
    (hrestores : s.restored = false → ∀ label ∈ labels, label.restores = false)
    (hrun : labels.foldlM (HostState.step probe) s = some t) :
    t.controller.mode = .edit ∧
      ((∃ label ∈ labels, label.resyncs = true) ∨ s.window = WidgetWindow.editing →
        t.window = WidgetWindow.editing) := by
  induction labels generalizing s with
  | nil =>
    cases hrun
    refine ⟨hmode,?_⟩
    rintro (⟨label,hno,-⟩ | hbefore)
    · cases hno
    · exact hbefore
  | cons label labels ih =>
    rw [List.foldlM_cons, Option.bind_eq_bind, Option.bind_eq_some_iff] at hrun
    obtain ⟨u,hstep,hrest⟩ := hrun
    obtain ⟨hedit,hwindow⟩ := edit_of_edit hmode (hchooses label List.mem_cons_self)
      (fun hbefore => hrestores hbefore label List.mem_cons_self) hstep
    have hlater : u.restored = false → ∀ l ∈ labels, l.restores = false := by
      intro hnot l hl
      refine hrestores ?_ l (List.mem_cons_of_mem _ hl)
      by_contra hyes
      rw [restored_kept (by simpa using hyes) hstep] at hnot
      cases hnot
    obtain ⟨hend,hfinal⟩ := ih hedit (fun l hl => hchooses l (List.mem_cons_of_mem _ hl)) hlater
      hrest
    refine ⟨hend,?_⟩
    rintro (⟨l,hl,hsync⟩ | hbefore)
    · rcases List.mem_cons.mp hl with rfl | hl
      · exact hfinal (Or.inr (hwindow (Or.inl hsync)))
      · exact hfinal (Or.inl ⟨l,hl,hsync⟩)
    · exact hfinal (Or.inr (hwindow (Or.inr hbefore)))

end Steps

/-- Windows accepts the second candidate, and a later call of the platform fails. -/
def hiddenRun : List HostLabel :=
  [.tick true false true,.tick true true true,.showMode .done]

end Floatile.Shell.ModeControl
