import Floatile.Lib.Transition
import Floatile.Shell.WindowLayout
import Mathlib.Data.Rat.Floor

/-! Runs of the clock window: the monitors come and go, the layout is saved and restored, the host
restarts. A layout whose monitor is missing should stay as it is until the monitor is back. -/
namespace Floatile.Shell.LayoutRuns

open Floatile.Core.Capability (InstanceId PluginId)
open Floatile.Core.Layout
open Floatile.Lib
open Floatile.Lib.Transition
open Floatile.Shell.WindowLayout

structure PhysicalPosition where
  x : ℤ
  y : ℤ
  deriving DecidableEq

/-- A monitor as the platform describes it. -/
structure MonitorInfo where
  key : MonitorKey
  position : PhysicalPosition
  size : PhysicalSize
  primary : Bool
  deriving DecidableEq

def scaleFactorNew (value : ℚ) : Option ScaleFactor :=
  if h : 0 < value then some ⟨value,h⟩ else none

def logicalRect (position : PhysicalPosition) (size : PhysicalSize) (scale : ℚ) : LogicalRect where
  position := ⟨position.x / scale,position.y / scale⟩
  size := ⟨size.width / scale,size.height / scale⟩

def toMonitorLayout (scaleFactor : ScaleFactor) (info : MonitorInfo) : MonitorLayout where
  key := info.key
  bounds := logicalRect info.position info.size scaleFactor.value
  scaleFactor := scaleFactor
  primary := info.primary

/-- The window as the window system reports it; a compositor may keep the position. -/
structure Window where
  position : Option PhysicalPosition
  size : PhysicalSize
  scaleFactor : ℚ
  deriving DecidableEq

/-- The monitors that are attached, the window, the record of the clock in the database, and the
state of the running host. -/
structure Desktop where
  attached : Option (List MonitorInfo)
  wayland : Bool
  window : Window
  record : Option WidgetLayout
  opened : Bool
  monitors : List MonitorLayout
  scaleFactor : ℚ
  suppressNextMovedSave : Bool
  mode : WidgetMode
  deriving DecidableEq

/-- One use of the database. -/
structure Access where
  now : ℕ
  fails : Bool
  deriving DecidableEq

def clockInstanceId : InstanceId := ⟨1⟩

def builtinClockPlugin : PluginId := ⟨"builtin.clock"⟩

/-- Rounding to the nearest physical pixel, away from zero in the middle. -/
def roundPixel (q : ℚ) : ℤ := if 0 ≤ q then ⌊q + 1 / 2⌋ else ⌈q - 1 / 2⌉

def toI32 (n : ℤ) : ℤ := max (-2^31) (min (2^31 - 1) n)

def toU32 (n : ℤ) : ℕ := min (2^32 - 1) n.toNat

namespace Desktop

/-- The snapshot of the monitors; it is empty when they cannot be enumerated. -/
def refreshMonitors (d : Desktop) : Desktop :=
  match d.attached with
  | none => { d with monitors := [] }
  | some infos =>
    let scaleFactor := (scaleFactorNew d.scaleFactor).getD unscaled
    { d with monitors := infos.map (toMonitorLayout scaleFactor) }

/-- Moving the window, and whether it had to be moved; `none` when it cannot be. -/
def applyRestoredPosition (d : Desktop) (position : LogicalPosition) : Option (Desktop × Bool) :=
  let scale := d.window.scaleFactor
  let target : PhysicalPosition :=
    ⟨toI32 (roundPixel (position.x * scale)),toI32 (roundPixel (position.y * scale))⟩
  if d.window.position = some target then some (d,false)
  else if d.wayland then none
  else some ({ d with window := { d.window with position := some target } },true)

def resizeWindow (d : Desktop) (size : LogicalSize) : Desktop :=
  let scale := d.window.scaleFactor
  { d with window := { d.window with
    size := ⟨toU32 (roundPixel (size.width * scale)),toU32 (roundPixel (size.height * scale))⟩ } }

/-- The layout that `saveLayout` writes; `none` where it gives up. -/
def layoutToSave (d : Desktop) (access : Access) (mode : WidgetMode) : Option WidgetLayout :=
  if !d.opened then none
  else
    match d.window.position, scaleFactorNew d.window.scaleFactor with
    | some position, some scaleFactor =>
      let rect := logicalRect position d.window.size d.window.scaleFactor
      match layoutFromWindow clockInstanceId builtinClockPlugin
        ⟨rect,d.window.size,scaleFactor,mode⟩ d.monitors access.now with
      | .ok (some layout) =>
        -- the store validates once more and refuses times that SQLite has no integer for
        if layout.validate = .ok () ∧ access.now < 2^63 ∧ !access.fails then some layout else none
      | _ => none
    | _, _ => none

def saveLayout (d : Desktop) (access : Access) (mode : WidgetMode) : Desktop :=
  match d.layoutToSave access mode with
  | some layout => { d with record := some layout }
  | none => d

def restoredPlacement (d : Desktop) (access : Access) : Option (LogicalRect × WidgetMode) := do
  if !d.opened || access.fails then none
  else
    let layout ← d.record
    match layout.validate, recoverLayout layout d.monitors with
    | .ok (), .ok recovered => some (recovered.rect,layout.mode)
    | _, _ => none

/-- The window is moved and resized to the place of the record, whose mode is returned. -/
def reapply (d : Desktop) (access : Access) : Desktop × Option WidgetMode :=
  let d := { d with scaleFactor := d.window.scaleFactor }.refreshMonitors
  match d.restoredPlacement access with
  | none => (d,none)
  | some (rect,mode) =>
    match d.applyRestoredPosition rect.position with
    | none => (d,none)
    | some (d,moved) =>
      let d := d.resizeWindow rect.size
      (if moved then { d with suppressNextMovedSave := true } else d,some mode)

end Desktop

inductive DesktopEvent where
  | monitorsChanged (attached : Option (List MonitorInfo))
  | placed (window : Window)
  | restore (access : Access)
  | focused (access : Access)
  | toggleMode (access : Access)
  | hotkey (access : Access)
  | escape
  | moved (access : Access)
  | save (access : Access)
  | restart (window : Window) (opened : Bool)
  deriving DecidableEq

namespace Desktop

/-- The host starts: nothing is known of the monitors yet. -/
def started (attached : Option (List MonitorInfo)) (wayland : Bool) (window : Window)
    (record : Option WidgetLayout) (opened : Bool) : Desktop where
  attached := attached
  wayland := wayland
  window := window
  record := record
  opened := opened
  monitors := []
  scaleFactor := 1
  suppressNextMovedSave := false
  mode := .edit

/-- Events of the environment and the handlers of the host. -/
def next (d : Desktop) : DesktopEvent → Desktop
  | .monitorsChanged attached => { d with attached := attached }
  | .placed window => { d with window := window }
  | .restore access =>
    let (d,mode) := d.reapply access
    { d with mode := mode.getD d.mode }
  | .focused access => (d.reapply access).1
  | .toggleMode access =>
    let mode := d.mode.toggle
    { d with mode := mode }.saveLayout access mode
  | .hotkey access => { d with mode := .edit }.saveLayout access .edit
  | .escape => { d with mode := .edit }
  | .moved access =>
    if d.suppressNextMovedSave then { d with suppressNextMovedSave := false }
    else d.saveLayout access d.mode
  | .save access => d.saveLayout access d.mode
  | .restart window opened => started d.attached d.wayland window d.record opened

/-- The use of the database that an event makes to save. -/
def saves (d : Desktop) : DesktopEvent → Option Access
  | .toggleMode access | .hotkey access | .save access => some access
  | .moved access => if d.suppressNextMovedSave then none else some access
  | _ => none

def initial (d : Desktop) : Prop :=
  ∃ attached wayland window opened, d = started attached wayland window none opened

def system : System Desktop DesktopEvent := System.ofFunction initial next

def run (d : Desktop) (events : List DesktopEvent) : Desktop := events.foldl next d

/-- A save that is not skipped finds the window at a place of a monitor. -/
structure SavedOn (d : Desktop) (access : Access) (monitor : MonitorLayout) (rect : LogicalRect) :
    Prop where
  opened : d.opened = true
  answers : access.now < 2^63 ∧ access.fails = false
  scale : 0 < d.window.scaleFactor
  size : 0 < d.window.size.width ∧ 0 < d.window.size.height
  place : ∃ position, d.window.position = some position ∧
    rect = logicalRect position d.window.size d.window.scaleFactor
  on_monitor : monitorOf rect d.monitors = some monitor
  key_ne : monitor.key.text.isEmpty = false

theorem SavedOn.unique {d : Desktop} {access : Access} {monitor monitor' : MonitorLayout}
    {rect rect' : LogicalRect} (h : SavedOn d access monitor rect)
    (h' : SavedOn d access monitor' rect') : monitor = monitor' ∧ rect = rect' := by
  obtain ⟨position,hposition,rfl⟩ := h.place
  obtain ⟨position',hposition',rfl⟩ := h'.place
  obtain rfl := Option.some.inj (hposition.symm.trans hposition')
  exact ⟨Option.some.inj (h.on_monitor.symm.trans h'.on_monitor),rfl⟩

/-- If the event saves, then the window is where the record says. -/
def SavesInPlace (layout : WidgetLayout) (d : Desktop) (event : DesktopEvent) : Prop :=
  ∀ access monitor rect, d.saves event = some access → SavedOn d access monitor rect →
    layout.monitorKey = some monitor.key ∧ layout.rect = localRect rect monitor

/-- The record still has the monitor and the place of a layout, and is recovered there. -/
structure Kept (layout : WidgetLayout) (d : Desktop) : Prop where
  record : ∃ kept, d.record = some kept ∧ kept.monitorKey = layout.monitorKey ∧
    kept.rect = layout.rect
  recovered : ∀ kept monitors primary monitor, d.record = some kept →
    validateMonitorTopology monitors = .ok primary → monitor ∈ monitors →
    layout.monitorKey = some monitor.key →
    recoverLayout kept monitors = .ok ⟨monitor,placeOnMonitor layout.rect monitor.bounds,false⟩

theorem scaleFactorNew_eq_some {value : ℚ} {scaleFactor : ScaleFactor} :
    scaleFactorNew value = some scaleFactor ↔ scaleFactor.value = value := by
  unfold scaleFactorNew
  split_ifs with h
  · rw [Option.some.injEq]
    exact ⟨fun heq => heq ▸ rfl,fun heq => by subst heq; rfl⟩
  · simp only [false_iff]
    exact fun heq => h (heq ▸ scaleFactor.positive)

/-- The layout of a window passes its checks. -/
theorem layoutFromWindow_of_monitor (instanceId : InstanceId) (pluginId : PluginId)
    (scaleFactor : ScaleFactor) (mode : WidgetMode) (updatedAt : ℕ)
    {position : PhysicalPosition} {size : PhysicalSize} {monitors : List MonitorLayout}
    {monitor : MonitorLayout} (hsize : 0 < size.width ∧ 0 < size.height)
    (hmonitor : monitorOf (logicalRect position size scaleFactor.value) monitors = some monitor)
    (hkey : monitor.key.text.isEmpty = false) :
    ∃ layout, layoutFromWindow instanceId pluginId
        ⟨logicalRect position size scaleFactor.value,size,scaleFactor,mode⟩ monitors updatedAt =
          .ok (some layout) ∧ layout.validate = .ok () := by
  have hscale := scaleFactor.positive
  have hfits : ∀ n : ℕ, scaleFactor.fits (n / scaleFactor.value) n := by
    intro n
    rw [ScaleFactor.fits, div_mul_cancel₀ _ (ne_of_gt hscale), sub_self, abs_zero]
    exact zero_le_one
  have hwidth : (0 : ℚ) < size.width / scaleFactor.value :=
    div_pos (Nat.cast_pos.mpr hsize.1) hscale
  have hheight : (0 : ℚ) < size.height / scaleFactor.value :=
    div_pos (Nat.cast_pos.mpr hsize.2) hscale
  unfold layoutFromWindow
  simp only [hmonitor]
  refine ⟨_,Checked.check_bind_eq_ok.mpr ⟨?hvalid,rfl⟩,?hvalid⟩
  simp only [WidgetLayout.validate, Checked.check_bind_eq_ok, Checked.reject_eq_ok]
  refine ⟨by simp,by simpa using hkey,?_,?_,?_,by simp,by simp [singleWindowZ]⟩
  · exact not_or.mpr ⟨not_le.mpr hwidth,not_le.mpr hheight⟩
  · exact not_or.mpr ⟨hsize.1.ne',hsize.2.ne'⟩
  · exact not_or.mpr ⟨not_not.mpr (hfits _),not_not.mpr (hfits _)⟩

section Save

variable {d : Desktop} {access : Access} {mode : WidgetMode}

/-- What is saved is the place of the window on its monitor. -/
theorem layoutToSave_eq_some {saved : WidgetLayout}
    (h : d.layoutToSave access mode = some saved) :
    saved.validate = .ok () ∧ ∃ monitor rect, SavedOn d access monitor rect ∧
      saved.monitorKey = some monitor.key ∧ saved.rect = localRect rect monitor := by
  unfold layoutToSave at h
  split at h
  · cases h
  rename_i hopened
  split at h
  · rename_i position scaleFactor hposition hscale
    have hscale := scaleFactorNew_eq_some.mp hscale
    dsimp only at h
    split at h
    · rename_i layout hlayout
      obtain ⟨⟨hvalid,htime,hanswers⟩,heq⟩ := Option.ite_none_right_eq_some.mp h
      obtain rfl := Option.some.inj heq
      obtain ⟨-,monitor,hmonitor,hkey,hrect⟩ := layoutFromWindow_eq_ok hlayout
      have hpositive : 0 < d.window.scaleFactor := hscale ▸ scaleFactor.positive
      have hsize := size_pos_of_validate hvalid
      rw [hrect] at hsize
      refine ⟨hvalid,monitor,_,⟨by simpa using hopened,⟨htime,by simpa using hanswers⟩,hpositive,
        ⟨?_,?_⟩,⟨position,hposition,rfl⟩,hmonitor,?_⟩,hkey,hrect⟩
      · exact Nat.cast_pos.mp ((div_pos_iff_of_pos_right hpositive).mp hsize.1)
      · exact Nat.cast_pos.mp ((div_pos_iff_of_pos_right hpositive).mp hsize.2)
      · simp only [WidgetLayout.validate, Checked.check_bind_eq_ok, Checked.reject_eq_ok] at hvalid
        simpa [hkey] using hvalid.2.1
    · cases h
  · cases h

theorem layoutToSave_of_savedOn (mode : WidgetMode) {monitor : MonitorLayout} {rect : LogicalRect}
    (h : SavedOn d access monitor rect) : ∃ saved, d.layoutToSave access mode = some saved := by
  obtain ⟨position,hposition,rfl⟩ := h.place
  obtain ⟨layout,hlayout,hvalid⟩ := layoutFromWindow_of_monitor clockInstanceId builtinClockPlugin
    ⟨_,h.scale⟩ mode access.now h.size h.on_monitor h.key_ne
  have hscale : scaleFactorNew d.window.scaleFactor = some ⟨_,h.scale⟩ :=
    scaleFactorNew_eq_some.mpr rfl
  refine ⟨layout,?_⟩
  simp only [layoutToSave, h.opened, hposition, hscale, Bool.not_true, Bool.false_eq_true, if_false]
  rw [hlayout]
  exact if_pos ⟨hvalid,h.answers.1,by simp [h.answers.2]⟩

end Save

@[simp] theorem refreshMonitors_record (d : Desktop) : d.refreshMonitors.record = d.record := by
  unfold refreshMonitors
  split <;> rfl

theorem applyRestoredPosition_record {d d' : Desktop} {position : LogicalPosition} {moved : Bool}
    (h : d.applyRestoredPosition position = some (d',moved)) : d'.record = d.record := by
  unfold applyRestoredPosition at h
  dsimp only at h
  split_ifs at h <;> cases h <;> rfl

/-- A restored layout only moves the window. -/
theorem reapply_record (d : Desktop) (access : Access) :
    (d.reapply access).1.record = d.record := by
  unfold reapply
  dsimp only
  split
  · rw [refreshMonitors_record]
  · split
    · rw [refreshMonitors_record]
    · rename_i happly
      have hrecord := applyRestoredPosition_record happly
      rw [refreshMonitors_record] at hrecord
      split_ifs
      · exact hrecord
      · exact hrecord

@[simp] theorem refreshMonitors_window (d : Desktop) : d.refreshMonitors.window = d.window := by
  unfold refreshMonitors
  split <;> rfl

/-- Where nothing had to be moved, nothing was. -/
theorem applyRestoredPosition_moved {d d' : Desktop} {position : LogicalPosition} {moved : Bool}
    (h : d.applyRestoredPosition position = some (d',moved)) : moved = true ∨ d' = d := by
  unfold applyRestoredPosition at h
  dsimp only at h
  split_ifs at h <;> cases h
  · exact Or.inr rfl
  · exact Or.inl rfl

/-- A restored layout that moves the window has the next move skipped. -/
theorem suppressed_of_reapply {d : Desktop} {access : Access}
    (h : (d.reapply access).1.window.position ≠ d.window.position) :
    (d.reapply access).1.suppressNextMovedSave = true := by
  have hrefreshed := congrArg Window.position
    (refreshMonitors_window { d with scaleFactor := d.window.scaleFactor })
  unfold reapply at h ⊢
  dsimp only at h ⊢
  split at h
  · exact absurd hrefreshed h
  · split at h
    · exact absurd hrefreshed h
    · rename_i moved happly
      rcases applyRestoredPosition_moved happly with rfl | rfl
      · rw [if_pos rfl]
      · refine absurd ?_ h
        split_ifs <;> exact hrefreshed

/-- The window system tells of the move that a restored layout makes; the record is not written. -/
theorem moved_skipped {d : Desktop} {access access' : Access}
    (h : (d.next (.focused access)).window.position ≠ d.window.position) :
    (d.next (.focused access)).saves (.moved access') = none :=
  if_pos (suppressed_of_reapply h)

theorem saveLayout_record (d : Desktop) (access : Access) (mode : WidgetMode) :
    (d.saveLayout access mode).record = (d.layoutToSave access mode).or d.record := by
  unfold saveLayout
  split <;> rename_i heq <;> rw [heq] <;> rfl

/-- Only a save changes the record. -/
theorem next_record (d : Desktop) (event : DesktopEvent) : ∃ mode, (d.next event).record =
    ((d.saves event).bind (fun access => d.layoutToSave access mode)).or d.record := by
  cases event with
  | monitorsChanged attached => exact ⟨.edit,rfl⟩
  | placed window => exact ⟨.edit,rfl⟩
  | restore access => exact ⟨.edit,reapply_record d access⟩
  | focused access => exact ⟨.edit,reapply_record d access⟩
  | toggleMode access => exact ⟨d.mode.toggle,saveLayout_record _ access d.mode.toggle⟩
  | hotkey access => exact ⟨.edit,saveLayout_record _ access .edit⟩
  | escape => exact ⟨.edit,rfl⟩
  | moved access =>
    refine ⟨d.mode,?_⟩
    simp only [next, saves]
    split_ifs
    · rfl
    · exact saveLayout_record d access d.mode
  | save access => exact ⟨d.mode,saveLayout_record d access d.mode⟩
  | restart window opened => exact ⟨.edit,rfl⟩

/-- The record in the database passes the checks of layouts. -/
def RecordValid (d : Desktop) : Prop := ∀ kept, d.record = some kept → kept.validate = .ok ()

theorem RecordValid.next {d : Desktop} (h : RecordValid d) (event : DesktopEvent) :
    RecordValid (d.next event) := by
  obtain ⟨mode,hrecord⟩ := d.next_record event
  intro kept hkept
  rw [hrecord] at hkept
  rcases Option.or_eq_some_iff.mp hkept with hsaved | ⟨-,hold⟩
  · obtain ⟨access,-,hsaved⟩ := Option.bind_eq_some_iff.mp hsaved
    exact (layoutToSave_eq_some hsaved).1
  · exact h kept hold

theorem recordValid_of_reachable {d : Desktop} (h : system.Reachable d) : RecordValid d := by
  refine System.ReachableWhen.invariant RecordValid ?_ ?_ h
  · rintro _ ⟨attached,wayland,window,opened,rfl⟩ kept hkept
    cases hkept
  · rintro d event _ hvalid - rfl
    exact hvalid.next event

/-- A valid record of the place is recovered there. -/
theorem kept_iff {layout : WidgetLayout} {d : Desktop} (hvalid : RecordValid d) :
    Kept layout d ↔ ∃ kept, d.record = some kept ∧ kept.monitorKey = layout.monitorKey ∧
      kept.rect = layout.rect := by
  refine ⟨Kept.record,fun h => ⟨h,?_⟩⟩
  intro kept monitors primary monitor hrecord htopology hmem hkey
  obtain ⟨kept',hrecord',hsamekey,hrect⟩ := h
  obtain rfl := Option.some.inj (hrecord.symm.trans hrecord')
  rw [← hrect]
  exact recoverLayout_of_mem (hvalid kept hrecord) htopology hmem (hsamekey.trans hkey)

/-- One event keeps the record exactly when it does not save, or saves in place. -/
theorem kept_next_iff {layout : WidgetLayout} {d : Desktop} (event : DesktopEvent)
    (hvalid : RecordValid d) (hkept : Kept layout d) :
    Kept layout (d.next event) ↔ SavesInPlace layout d event := by
  obtain ⟨mode,hrecord⟩ := d.next_record event
  rw [kept_iff (hvalid.next event), hrecord]
  constructor
  · rintro ⟨kept,hsome,hkey,hrect⟩ access monitor rect haccess hon
    obtain ⟨saved,hsaved⟩ := layoutToSave_of_savedOn mode hon
    rw [haccess, Option.bind_some, hsaved, Option.some_or, Option.some.injEq] at hsome
    subst hsome
    obtain ⟨-,monitor',rect',hon',hkey',hrect'⟩ := layoutToSave_eq_some hsaved
    obtain ⟨rfl,rfl⟩ := hon.unique hon'
    exact ⟨hkey.symm.trans hkey',hrect.symm.trans hrect'⟩
  · intro hplace
    cases hsaves : (d.saves event).bind (fun access => d.layoutToSave access mode) with
    | none => exact hkept.record
    | some saved =>
      obtain ⟨access,haccess,hsaved⟩ := Option.bind_eq_some_iff.mp hsaves
      obtain ⟨-,monitor,rect,hon,hkey,hrect⟩ := layoutToSave_eq_some hsaved
      obtain ⟨hsamekey,hsamerect⟩ := hplace access monitor rect haccess hon
      exact ⟨saved,rfl,hkey.trans hsamekey.symm,hrect.trans hsamerect.symm⟩

theorem savesInPlace_of_none {layout : WidgetLayout} {d : Desktop} {event : DesktopEvent}
    (h : d.saves event = none) : SavesInPlace layout d event := by
  intro access monitor rect hsaves
  cases h.symm.trans hsaves

/-- A save that writes the place of the layout again is in place. -/
theorem savesInPlace_of_layoutToSave {layout : WidgetLayout} {d : Desktop} {event : DesktopEvent}
    {access : Access} (saved : WidgetLayout) (mode : WidgetMode)
    (haccess : d.saves event = some access) (hsaved : d.layoutToSave access mode = some saved)
    (hkey : saved.monitorKey = layout.monitorKey) (hrect : saved.rect = layout.rect) :
    SavesInPlace layout d event := by
  intro access' monitor rect hsaves hon
  obtain rfl := Option.some.inj (haccess.symm.trans hsaves)
  obtain ⟨-,monitor',rect',hon',hkey',hrect'⟩ := layoutToSave_eq_some hsaved
  obtain ⟨rfl,rfl⟩ := hon.unique hon'
  exact ⟨hkey.symm.trans hkey',hrect.symm.trans hrect'⟩

/-- The first step of a run and the steps of the rest. -/
theorem forall_step_cons {P : Desktop → DesktopEvent → Prop} {d : Desktop} {event : DesktopEvent}
    {events : List DesktopEvent} (h : P d event)
    (hrest : ∀ pre e, pre ++ [e] <+: events → P ((d.next event).run pre) e) :
    ∀ pre e, pre ++ [e] <+: event :: events → P (d.run pre) e := by
  intro pre e hpre
  cases pre with
  | nil =>
    obtain ⟨rfl,-⟩ := List.cons_prefix_cons.mp hpre
    exact h
  | cons e' pre =>
    obtain ⟨rfl,hpre'⟩ := List.cons_prefix_cons.mp hpre
    exact hrest pre e hpre'

/-- Once the host has seen that the monitor is missing, every save that is not skipped is out of
place. -/
theorem not_savesInPlace_of_unseen {layout : WidgetLayout} {d : Desktop} {event : DesktopEvent}
    {access : Access} {monitor : MonitorLayout} {rect : LogicalRect}
    (hunseen : ∀ m ∈ d.monitors, layout.monitorKey ≠ some m.key)
    (hsaves : d.saves event = some access) (hon : SavedOn d access monitor rect) :
    ¬SavesInPlace layout d event :=
  fun h => hunseen monitor (mem_of_monitorOf hon.on_monitor) (h access monitor rect hsaves hon).1

/-- Throughout a run the record keeps the monitor and the place of a layout, and is recovered there
when the monitor is back, exactly when every save of the run finds the window in that place. -/
theorem record_kept_iff {d : Desktop} (hd : system.Reachable d) {layout : WidgetLayout}
    (hrecord : d.record = some layout) (events : List DesktopEvent) :
    (∀ pre, pre <+: events → Kept layout (d.run pre)) ↔
      ∀ pre event, pre ++ [event] <+: events → SavesInPlace layout (d.run pre) event := by
  have hvalid := recordValid_of_reachable hd
  exact System.forall_prefix_iff (I := RecordValid) (P := Kept layout)
    (fun _ event h => h.next event) (fun _ event h hkept => kept_next_iff event h hkept) hvalid
    ((kept_iff hvalid).mpr ⟨layout,hrecord,rfl,rfl⟩) events

def laptopInfo : MonitorInfo := ⟨⟨"eDP-1"⟩,⟨0,0⟩,⟨1920,1080⟩,true⟩

def leftInfo : MonitorInfo := ⟨⟨"DP-1"⟩,⟨-1600,0⟩,⟨1600,900⟩,false⟩

def answered : Access := ⟨1700000003,false⟩

/-- The clock has been moved to the left monitor. -/
def leftClock : Desktop :=
  (started (some [laptopInfo,leftInfo]) false ⟨some ⟨-1500,200⟩,⟨260,120⟩,1⟩ none true).run
    [.restore answered,.moved answered]

theorem leftClock_reachable : system.Reachable leftClock := by
  refine System.reachable_foldl (System.ReachableWhen.of_init ?_) _
  exact ⟨_,_,_,_,rfl⟩

def leftRecord : WidgetLayout where
  instanceId := clockInstanceId
  pluginId := builtinClockPlugin
  monitorKey := some leftInfo.key
  rect := ⟨⟨100,200⟩,⟨260,120⟩⟩
  physicalSize := ⟨260,120⟩
  scaleFactor := unscaled
  lostMonitor := false
  z := singleWindowZ
  mode := .edit
  version := layoutRecordVersion
  updatedAt := 1700000003

theorem leftClock_record : leftClock.record = some leftRecord := by decide +kernel

/-- The monitor is unplugged, the window is shown on the laptop, and then on the monitor again, where
it is saved. The moves in between are those of the restored layouts. -/
theorem record_kept_unplugged :
    Kept leftRecord (leftClock.run [.monitorsChanged (some [laptopInfo]),.focused answered,
      .moved answered,.monitorsChanged (some [laptopInfo,leftInfo]),.focused answered,
      .moved answered,.save answered]) := by
  refine (record_kept_iff leftClock_reachable leftClock_record _).mpr ?_ _ (List.prefix_refl _)
  refine forall_step_cons (savesInPlace_of_none rfl) ?_
  refine forall_step_cons (savesInPlace_of_none rfl) ?_
  refine forall_step_cons (savesInPlace_of_none (moved_skipped (by decide +kernel))) ?_
  refine forall_step_cons (savesInPlace_of_none rfl) ?_
  refine forall_step_cons (savesInPlace_of_none rfl) ?_
  refine forall_step_cons (savesInPlace_of_none (moved_skipped (by decide +kernel))) ?_
  refine forall_step_cons ?_ ?_
  · exact savesInPlace_of_layoutToSave leftRecord .edit rfl (by decide +kernel) rfl rfl
  · intro pre event hpre
    have hne := List.append_ne_nil_of_right_ne_nil pre (List.cons_ne_nil event [])
    exact absurd (List.prefix_nil.mp hpre) hne

/-- The left monitor is unplugged, the window is moved to the laptop and its mode is changed: the
record now is for the laptop. -/
theorem mode_change_moves_record :
    ¬∀ d layout key events, system.Reachable d → d.record = some layout →
      layout.monitorKey = some key →
      (∀ pre, pre <+: events → pre ≠ [] →
        ∃ infos, (d.run pre).attached = some infos ∧ ∀ info ∈ infos, info.key ≠ key) →
      (∀ window, .placed window ∉ events) → Kept layout (d.run events) := by
  intro h
  have hkept := h leftClock leftRecord leftInfo.key
    [.monitorsChanged (some [laptopInfo]),.focused answered,.moved answered,.toggleMode answered]
    leftClock_reachable leftClock_record rfl ?_ (by simp)
  · obtain ⟨kept,hrecord,hkey,-⟩ := hkept.record
    have hlaptop : (leftClock.run [.monitorsChanged (some [laptopInfo]),.focused answered,
        .moved answered,.toggleMode answered]).record.bind WidgetLayout.monitorKey =
          some laptopInfo.key := by decide +kernel
    rw [hrecord, Option.bind_some, hkey] at hlaptop
    exact absurd hlaptop (by decide)
  · intro pre hpre hne
    refine ⟨[laptopInfo],?_,by decide⟩
    simp only [List.prefix_cons_iff, List.prefix_nil] at hpre
    rcases hpre with rfl | ⟨_,rfl,rfl | ⟨_,rfl,rfl | ⟨_,rfl,rfl | ⟨_,rfl,rfl⟩⟩⟩⟩
    · exact absurd rfl hne
    all_goals decide +kernel

end Desktop

end Floatile.Shell.LayoutRuns
