import Floatile.Core.Layout
import Mathlib.Tactic.Linarith

/-! The record that is saved for a window, and where a record is recovered. -/
namespace Floatile.Shell.WindowLayout

open Floatile.Core.Capability (InstanceId PluginId)
open Floatile.Core.Layout
open Floatile.Lib

def singleWindowZ : ℕ := 1

structure WindowSnapshot where
  rect : LogicalRect
  physicalSize : PhysicalSize
  scaleFactor : ScaleFactor
  mode : WidgetMode
  deriving DecidableEq

/-- The left and upper edges belong to a rectangle, the others do not. -/
def contains (bounds : LogicalRect) (point : LogicalPosition) : Prop :=
  bounds.position.x ≤ point.x ∧ point.x < bounds.position.x + bounds.size.width ∧
    bounds.position.y ≤ point.y ∧ point.y < bounds.position.y + bounds.size.height

instance (bounds : LogicalRect) (point : LogicalPosition) : Decidable (contains bounds point) :=
  inferInstanceAs (Decidable (_ ∧ _ ∧ _ ∧ _))

def center (rect : LogicalRect) : LogicalPosition where
  x := rect.position.x + rect.size.width / 2
  y := rect.position.y + rect.size.height / 2

/-- The monitor that has the centre of the window, or else the primary one. -/
def monitorOf (rect : LogicalRect) (monitors : List MonitorLayout) : Option MonitorLayout :=
  (monitors.find? (fun monitor => contains monitor.bounds (center rect))).or
    (monitors.find? MonitorLayout.primary)

theorem mem_of_monitorOf {rect : LogicalRect} {monitors : List MonitorLayout}
    {monitor : MonitorLayout} (h : monitorOf rect monitors = some monitor) : monitor ∈ monitors := by
  rcases Option.or_eq_some_iff.mp h with hfound | ⟨-,hprimary⟩
  · exact List.mem_of_find?_eq_some hfound
  · exact List.mem_of_find?_eq_some hprimary

/-- The rectangle as seen from the upper left corner of a monitor. -/
def localRect (rect : LogicalRect) (monitor : MonitorLayout) : LogicalRect where
  position := {
    x := rect.position.x - monitor.bounds.position.x
    y := rect.position.y - monitor.bounds.position.y }
  size := rect.size

def layoutFromWindow (instanceId : InstanceId) (pluginId : PluginId) (snapshot : WindowSnapshot)
    (monitors : List MonitorLayout) (updatedAt : ℕ) :
    Except LayoutValidationError (Option WidgetLayout) :=
  match monitorOf snapshot.rect monitors with
  | none => .ok none
  | some monitor => do
    let layout : WidgetLayout := {
      instanceId := instanceId
      pluginId := pluginId
      monitorKey := some monitor.key
      rect := localRect snapshot.rect monitor
      physicalSize := snapshot.physicalSize
      scaleFactor := snapshot.scaleFactor
      lostMonitor := false
      z := singleWindowZ
      mode := snapshot.mode
      version := layoutRecordVersion
      updatedAt := updatedAt }
    layout.validate
    .ok (some layout)

/-- The rectangle lies inside the bounds, up to and including all their edges. -/
def RectWithin (rect bounds : LogicalRect) : Prop :=
  bounds.position.x ≤ rect.position.x ∧
    rect.position.x + rect.size.width ≤ bounds.position.x + bounds.size.width ∧
    bounds.position.y ≤ rect.position.y ∧
    rect.position.y + rect.size.height ≤ bounds.position.y + bounds.size.height

def NonEmpty (rect : LogicalRect) : Prop := 0 < rect.size.width ∧ 0 < rect.size.height

instance (rect bounds : LogicalRect) : Decidable (RectWithin rect bounds) :=
  inferInstanceAs (Decidable (_ ∧ _ ∧ _ ∧ _))

/-- No point is on two monitors. -/
def NoOverlap (monitors : List MonitorLayout) : Prop :=
  monitors.Pairwise (fun a b => ∀ point, ¬(contains a.bounds point ∧ contains b.bounds point))

def horizontal (rect : LogicalRect) : Span ℚ := ⟨rect.position.x,rect.size.width⟩

def vertical (rect : LogicalRect) : Span ℚ := ⟨rect.position.y,rect.size.height⟩

theorem rectWithin_iff {rect bounds : LogicalRect} : RectWithin rect bounds ↔
    (horizontal rect).Within (horizontal bounds) ∧ (vertical rect).Within (vertical bounds) :=
  ⟨fun ⟨hl,hr,ht,hb⟩ => ⟨⟨hl,hr⟩,ht,hb⟩,fun ⟨⟨hl,hr⟩,ht,hb⟩ => ⟨hl,hr,ht,hb⟩⟩

/-- Placing is fitting along both axes. -/
theorem placeOnMonitor_spans (saved bounds : LogicalRect) :
    horizontal (placeOnMonitor saved bounds) = (horizontal saved).fit (horizontal bounds) ∧
      vertical (placeOnMonitor saved bounds) = (vertical saved).fit (vertical bounds) := ⟨rfl,rfl⟩

theorem placeOnMonitor_within (saved bounds : LogicalRect) :
    RectWithin (placeOnMonitor saved bounds) bounds := by
  obtain ⟨hhorizontal,hvertical⟩ := placeOnMonitor_spans saved bounds
  rw [rectWithin_iff, hhorizontal, hvertical]
  exact ⟨Span.fit_within _ _,Span.fit_within _ _⟩

theorem placeOnMonitor_nonEmpty {saved bounds : LogicalRect} (hsaved : NonEmpty saved)
    (hbounds : NonEmpty bounds) : NonEmpty (placeOnMonitor saved bounds) :=
  ⟨lt_min hsaved.1 hbounds.1,lt_min hsaved.2 hbounds.2⟩

/-- A window inside a monitor is placed where it was. -/
theorem placeOnMonitor_localRect {rect : LogicalRect} {monitor : MonitorLayout}
    (h : RectWithin rect monitor.bounds) :
    placeOnMonitor (localRect rect monitor) monitor.bounds = rect := by
  obtain ⟨hhorizontal,hvertical⟩ := rectWithin_iff.mp h
  have hx := congrArg Span.start (Span.fit_of_within hhorizontal)
  have hw := congrArg Span.length (Span.fit_of_within hhorizontal)
  have hy := congrArg Span.start (Span.fit_of_within hvertical)
  have hh := congrArg Span.length (Span.fit_of_within hvertical)
  rcases rect with ⟨⟨x,y⟩,⟨width,height⟩⟩
  simp only [placeOnMonitor, localRect, LogicalRect.mk.injEq, LogicalPosition.mk.injEq,
    LogicalSize.mk.injEq]
  exact ⟨⟨hx,hy⟩,hw,hh⟩

theorem contains_center {rect bounds : LogicalRect} (hrect : NonEmpty rect)
    (h : RectWithin rect bounds) : contains bounds (center rect) := by
  obtain ⟨hwidth,hheight⟩ := hrect
  obtain ⟨hleft,hright,htop,hbottom⟩ := h
  simp only [contains, center]
  refine ⟨?_,?_,?_,?_⟩ <;> linarith

/-- A window inside one of several monitors that do not overlap is on that monitor. -/
theorem monitorOf_of_within {rect : LogicalRect} {monitors : List MonitorLayout}
    {monitor : MonitorLayout} (hoverlap : NoOverlap monitors) (hmem : monitor ∈ monitors)
    (hrect : NonEmpty rect) (h : RectWithin rect monitor.bounds) :
    monitorOf rect monitors = some monitor := by
  have hcenter := contains_center hrect h
  have hfind : monitors.find? (fun m => contains m.bounds (center rect)) = some monitor := by
    induction monitors with
    | nil => cases hmem
    | cons first rest ih =>
      obtain ⟨hfirst,hrest⟩ := List.pairwise_cons.mp hoverlap
      rcases List.mem_cons.mp hmem with rfl | hmem
      · rw [List.find?_cons_of_pos (by simpa using hcenter)]
      · have hnot : ¬contains first.bounds (center rect) :=
          fun hc => hfirst monitor hmem _ ⟨hc,hcenter⟩
        rw [List.find?_cons_of_neg (by simpa using hnot), ih hrest hmem]
  rw [monitorOf, hfind, Option.some_or]

theorem layoutFromWindow_eq_ok {instanceId : InstanceId} {pluginId : PluginId}
    {snapshot : WindowSnapshot} {monitors : List MonitorLayout} {updatedAt : ℕ}
    {layout : WidgetLayout} (h : layoutFromWindow instanceId pluginId snapshot monitors updatedAt =
      .ok (some layout)) :
    layout.validate = .ok () ∧ ∃ monitor, monitorOf snapshot.rect monitors = some monitor ∧
      layout.monitorKey = some monitor.key ∧ layout.rect = localRect snapshot.rect monitor := by
  unfold layoutFromWindow at h
  split at h
  · cases h
  · rename_i monitor hmonitor
    obtain ⟨hvalid,h⟩ := Checked.check_bind_eq_ok.mp h
    obtain rfl := Option.some.inj (Except.ok.inj h)
    exact ⟨hvalid,monitor,hmonitor,rfl,rfl⟩

/-- A valid layout is recovered inside its monitor, if that is there, or else inside the primary
one, and a window that is saved on one monitor is recovered in its place. -/
theorem layout_recovery :
    (∀ layout monitors primary, layout.validate = .ok () →
      validateMonitorTopology monitors = .ok primary →
      ∃ recovered, recoverLayout layout monitors = .ok recovered ∧
        RectWithin recovered.rect recovered.monitor.bounds ∧ NonEmpty recovered.rect ∧
        recovered.monitor ∈ monitors ∧
        (∀ monitor ∈ monitors, layout.monitorKey = some monitor.key →
          recovered.monitor = monitor) ∧
        ((∀ monitor ∈ monitors, layout.monitorKey ≠ some monitor.key) →
          recovered.monitor = primary ∧ primary.primary = true) ∧
        (recovered.lostMonitor = true ↔ layout.monitorKey.isSome ∧
          ∀ monitor ∈ monitors, layout.monitorKey ≠ some monitor.key)) ∧
    (∀ instanceId pluginId snapshot monitors updatedAt layout primary,
      validateMonitorTopology monitors = .ok primary → NoOverlap monitors →
      (∃ monitor ∈ monitors, RectWithin snapshot.rect monitor.bounds) →
      layoutFromWindow instanceId pluginId snapshot monitors updatedAt = .ok (some layout) →
      ∃ recovered, recoverLayout layout monitors = .ok recovered ∧
        recovered.rect = snapshot.rect) := by
  refine ⟨?_,?_⟩
  · intro layout monitors primary hlayout htopology
    have hvalid := validateMonitorTopology_eq_ok htopology
    have hsize : NonEmpty layout.rect := size_pos_of_validate hlayout
    have hbounds : ∀ monitor ∈ monitors, NonEmpty monitor.bounds := hvalid.sizes_pos
    by_cases hthere : ∃ monitor ∈ monitors, layout.monitorKey = some monitor.key
    · obtain ⟨monitor,hmem,hkey⟩ := hthere
      refine ⟨_,recoverLayout_of_mem hlayout htopology hmem hkey,placeOnMonitor_within _ _,
        placeOnMonitor_nonEmpty hsize (hbounds monitor hmem),hmem,?_,?_,?_⟩
      · intro other hother hkey'
        have hsame := Option.some.inj (hkey.symm.trans hkey')
        exact List.inj_on_of_nodup_map hvalid.keys_distinct hmem hother hsame
      · exact fun hmissing => absurd hkey (hmissing monitor hmem)
      · exact iff_of_false (by simp) (fun h => h.2 monitor hmem hkey)
    · have hmissing : ∀ monitor ∈ monitors, layout.monitorKey ≠ some monitor.key :=
        fun monitor hmem hkey => hthere ⟨monitor,hmem,hkey⟩
      obtain ⟨hmem,hprimary⟩ := hvalid.primary_mem
      refine ⟨_,recoverLayout_of_missing hlayout htopology hmissing,placeOnMonitor_within _ _,
        placeOnMonitor_nonEmpty hsize (hbounds primary hmem),hmem,?_,fun _ => ⟨rfl,hprimary⟩,?_⟩
      · exact fun monitor hmonitor hkey => absurd hkey (hmissing monitor hmonitor)
      · exact ⟨fun h => ⟨h,hmissing⟩,fun h => h.1⟩
  · rintro instanceId pluginId snapshot monitors updatedAt layout primary htopology hoverlap
      ⟨monitor,hmem,hwithin⟩ hsaved
    obtain ⟨hlayout,chosen,hchosen,hkey,hrect⟩ := layoutFromWindow_eq_ok hsaved
    have hsize : NonEmpty snapshot.rect := by
      have := size_pos_of_validate hlayout
      rwa [hrect] at this
    obtain rfl := Option.some.inj
      (hchosen.symm.trans (monitorOf_of_within hoverlap hmem hsize hwithin))
    refine ⟨_,recoverLayout_of_mem hlayout htopology hmem hkey,?_⟩
    rw [hrect]
    exact placeOnMonitor_localRect hwithin

def unscaled : ScaleFactor := ⟨1,by decide⟩

def laptopMonitor : MonitorLayout := ⟨⟨"eDP-1"⟩,⟨⟨0,0⟩,⟨1920,1080⟩⟩,unscaled,true⟩

/-- A monitor to the left of the primary one. -/
def leftMonitor : MonitorLayout := ⟨⟨"DP-1"⟩,⟨⟨-1600,0⟩,⟨1600,900⟩⟩,unscaled,false⟩

def leftWindow : WindowSnapshot := ⟨⟨⟨-1500,200⟩,⟨260,120⟩⟩,⟨260,120⟩,unscaled,.edit⟩

def leftLayout : WidgetLayout where
  instanceId := ⟨1⟩
  pluginId := ⟨"dev.floatile.clock"⟩
  monitorKey := some leftMonitor.key
  rect := ⟨⟨100,200⟩,⟨260,120⟩⟩
  physicalSize := ⟨260,120⟩
  scaleFactor := unscaled
  lostMonitor := false
  z := singleWindowZ
  mode := .edit
  version := layoutRecordVersion
  updatedAt := 1700000003

/-- The window returns to the left monitor, and to the primary one when that is gone. -/
theorem layout_recovery_left :
    (∃ recovered, recoverLayout leftLayout [laptopMonitor,leftMonitor] = .ok recovered ∧
      recovered.rect = leftWindow.rect) ∧
    ∃ recovered, recoverLayout leftLayout [laptopMonitor] = .ok recovered ∧
      RectWithin recovered.rect recovered.monitor.bounds ∧ recovered.monitor ∈ [laptopMonitor] := by
  refine ⟨?_,?_⟩
  · refine layout_recovery.2 ⟨1⟩ ⟨"dev.floatile.clock"⟩ leftWindow [laptopMonitor,leftMonitor]
      1700000003 leftLayout laptopMonitor (by decide +kernel) ?_ ?_ (by decide +kernel)
    · simp only [NoOverlap, List.pairwise_cons, List.mem_singleton, forall_eq, List.not_mem_nil,
        false_implies, implies_true, List.Pairwise.nil, and_true]
      rintro point ⟨⟨hlaptop,-⟩,-,hleft,-⟩
      simp only [laptopMonitor, leftMonitor] at hlaptop hleft
      linarith
    · exact ⟨leftMonitor,by decide +kernel,by decide +kernel⟩
  · obtain ⟨recovered,hok,hwithin,-,hmem,-⟩ := layout_recovery.1 leftLayout [laptopMonitor]
      laptopMonitor (by decide +kernel) (by decide +kernel)
    exact ⟨recovered,hok,hwithin,hmem⟩

end Floatile.Shell.WindowLayout
