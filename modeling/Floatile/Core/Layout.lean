import Floatile.Core.Capability
import Floatile.Lib.Checked
import Floatile.Lib.Span
import Mathlib.Algebra.Order.Field.Rat
import Mathlib.Data.List.Nodup

/-! The layout of a widget and its recovery on the monitors that are there. Coordinates are exact:
all of them are finite, so the checks of finiteness and their errors have no counterpart. -/
namespace Floatile.Core.Layout

open Floatile.Core.Capability (InstanceId PluginId)
open Floatile.Lib
open Floatile.Lib.Checked (reject)

structure LogicalPosition where
  x : ℚ
  y : ℚ
  deriving DecidableEq

structure LogicalSize where
  width : ℚ
  height : ℚ
  deriving DecidableEq

structure LogicalRect where
  position : LogicalPosition
  size : LogicalSize
  deriving DecidableEq

structure PhysicalSize where
  width : ℕ
  height : ℕ
  deriving DecidableEq

structure MonitorKey where
  text : String
  deriving DecidableEq

/-- From logical to physical pixels. -/
structure ScaleFactor where
  value : ℚ
  positive : 0 < value
  deriving DecidableEq

inductive WidgetMode where
  | edit
  | shown
  deriving DecidableEq

def WidgetMode.toggle : WidgetMode → WidgetMode
  | .edit => .shown
  | .shown => .edit

/-- The record of a layout. Its rectangle is relative to the monitor with the key. -/
structure WidgetLayout where
  instanceId : InstanceId
  pluginId : PluginId
  monitorKey : Option MonitorKey
  rect : LogicalRect
  physicalSize : PhysicalSize
  scaleFactor : ScaleFactor
  lostMonitor : Bool
  z : ℕ
  mode : WidgetMode
  version : ℕ
  updatedAt : ℕ
  deriving DecidableEq

def layoutRecordVersion : ℕ := 1

inductive LayoutValidationError where
  | invalidVersion
  | emptyMonitorKey
  | nonPositiveSize
  | nonPositivePhysicalSize
  | inconsistentPhysicalSize
  | lostMonitorWithoutKey
  | zeroZ
  deriving DecidableEq

def LayoutValidationError.display : LayoutValidationError → String
  | .invalidVersion => s!"布局记录版本无效（应为 {layoutRecordVersion}）"
  | .emptyMonitorKey => "显示器稳定标识不得为空"
  | .nonPositiveSize => "逻辑尺寸必须为正"
  | .nonPositivePhysicalSize => "物理尺寸必须为正"
  | .inconsistentPhysicalSize => "物理尺寸与逻辑尺寸及 scale factor 不一致"
  | .lostMonitorWithoutKey => "lost_monitor 需要保留原显示器标识"
  | .zeroZ => "层级 z 必须大于 0"

/-- The physical length is that of the logical one, up to a pixel. -/
def ScaleFactor.fits (scaleFactor : ScaleFactor) (logical : ℚ) (physical : ℕ) : Prop :=
  |logical * scaleFactor.value - physical| ≤ 1

instance (scaleFactor : ScaleFactor) (logical : ℚ) (physical : ℕ) :
    Decidable (scaleFactor.fits logical physical) := inferInstanceAs (Decidable (_ ≤ _))

def WidgetLayout.validate (layout : WidgetLayout) : Except LayoutValidationError Unit := do
  reject (layout.version ≠ layoutRecordVersion) .invalidVersion
  reject (∃ key ∈ layout.monitorKey, key.text.isEmpty) .emptyMonitorKey
  let size := layout.rect.size
  reject (size.width ≤ 0 ∨ size.height ≤ 0) .nonPositiveSize
  reject (layout.physicalSize.width = 0 ∨ layout.physicalSize.height = 0) .nonPositivePhysicalSize
  reject (¬layout.scaleFactor.fits size.width layout.physicalSize.width ∨
    ¬layout.scaleFactor.fits size.height layout.physicalSize.height) .inconsistentPhysicalSize
  reject (layout.lostMonitor ∧ layout.monitorKey.isNone) .lostMonitorWithoutKey
  reject (layout.z = 0) .zeroZ

/-- An active monitor with its place on the virtual desktop. -/
structure MonitorLayout where
  key : MonitorKey
  bounds : LogicalRect
  scaleFactor : ScaleFactor
  primary : Bool
  deriving DecidableEq

structure RecoveredLayout where
  monitor : MonitorLayout
  rect : LogicalRect
  lostMonitor : Bool
  deriving DecidableEq

inductive LayoutRecoveryError where
  | invalidLayout (error : LayoutValidationError)
  | noMonitors
  | emptyMonitorKey (key : String)
  | nonPositiveMonitorSize (key : String)
  | missingPrimary
  | multiplePrimary
  | duplicateMonitorKey (key : String)
  deriving DecidableEq

def LayoutRecoveryError.display : LayoutRecoveryError → String
  | .invalidLayout error => s!"持久化布局无效: {error.display}"
  | .noMonitors => "活动显示器列表为空"
  | .emptyMonitorKey key => s!"显示器 `{key}` 的稳定标识为空"
  | .nonPositiveMonitorSize key => s!"显示器 `{key}` 的逻辑尺寸必须为正"
  | .missingPrimary => "活动显示器列表没有主屏"
  | .multiplePrimary => "活动显示器列表包含多个主屏"
  | .duplicateMonitorKey key => s!"活动显示器列表包含重复标识 `{key}`"

/-- One monitor after those before it; the primary one is remembered. -/
def checkMonitor (before : List MonitorLayout) (primary : Option MonitorLayout)
    (monitor : MonitorLayout) : Except LayoutRecoveryError (Option MonitorLayout) := do
  let key := monitor.key.text
  reject key.isEmpty (.emptyMonitorKey key)
  let size := monitor.bounds.size
  reject (size.width ≤ 0 ∨ size.height ≤ 0) (.nonPositiveMonitorSize key)
  reject (∃ existing ∈ before, existing.key = monitor.key) (.duplicateMonitorKey key)
  if monitor.primary then do
    reject primary.isSome .multiplePrimary
    .ok (some monitor)
  else .ok primary

def checkMonitors (before : List MonitorLayout) (primary : Option MonitorLayout) :
    List MonitorLayout → Except LayoutRecoveryError (Option MonitorLayout)
  | [] => .ok primary
  | monitor :: rest => do
    let primary ← checkMonitor before primary monitor
    checkMonitors (before ++ [monitor]) primary rest

def validateMonitorTopology (monitors : List MonitorLayout) :
    Except LayoutRecoveryError MonitorLayout := do
  reject monitors.isEmpty .noMonitors
  match ← checkMonitors [] none monitors with
  | some primary => .ok primary
  | none => .error .missingPrimary

def placeOnMonitor (saved monitorBounds : LogicalRect) : LogicalRect :=
  let size : LogicalSize := {
    width := min saved.size.width monitorBounds.size.width
    height := min saved.size.height monitorBounds.size.height }
  let desired : LogicalPosition := {
    x := monitorBounds.position.x + saved.position.x
    y := monitorBounds.position.y + saved.position.y }
  let max : LogicalPosition := {
    x := monitorBounds.position.x + monitorBounds.size.width - size.width
    y := monitorBounds.position.y + monitorBounds.size.height - size.height }
  { position := {
      x := Span.clamp desired.x monitorBounds.position.x max.x
      y := Span.clamp desired.y monitorBounds.position.y max.y }
    size := size }

def recoverLayout (layout : WidgetLayout) (monitors : List MonitorLayout) :
    Except LayoutRecoveryError RecoveredLayout := do
  layout.validate.mapError .invalidLayout
  let primary ← validateMonitorTopology monitors
  let requested := layout.monitorKey.bind
    (fun key => monitors.find? (fun monitor => monitor.key = key))
  let lostMonitor := layout.monitorKey.isSome && requested.isNone
  let monitor := requested.getD primary
  .ok ⟨monitor,placeOnMonitor layout.rect monitor.bounds,lostMonitor⟩

/-- What an accepted list of monitors is like. -/
structure Topology (monitors : List MonitorLayout) (primary : MonitorLayout) : Prop where
  keys_ne : ∀ monitor ∈ monitors, monitor.key.text.isEmpty = false
  sizes_pos : ∀ monitor ∈ monitors, 0 < monitor.bounds.size.width ∧ 0 < monitor.bounds.size.height
  keys_distinct : (monitors.map MonitorLayout.key).Nodup
  one_primary : monitors.filter MonitorLayout.primary = [primary]

theorem checkMonitor_eq_ok {before : List MonitorLayout} {primary result : Option MonitorLayout}
    {monitor : MonitorLayout} (h : checkMonitor before primary monitor = .ok result) :
    monitor.key.text.isEmpty = false ∧
      (0 < monitor.bounds.size.width ∧ 0 < monitor.bounds.size.height) ∧
      (∀ existing ∈ before, existing.key ≠ monitor.key) ∧
      result.toList = primary.toList ++ [monitor].filter MonitorLayout.primary := by
  simp only [checkMonitor, Checked.check_bind_eq_ok, Checked.reject_eq_ok, Bool.not_eq_true,
    not_or, not_le, not_exists, not_and] at h
  obtain ⟨hkey,hsize,hbefore,h⟩ := h
  refine ⟨hkey,hsize,hbefore,?_⟩
  cases hmonitor : monitor.primary with
  | false =>
    simp only [hmonitor, Bool.false_eq_true, if_false, Except.ok.injEq] at h
    simp [h, hmonitor]
  | true =>
    simp only [hmonitor, if_true, Checked.check_bind_eq_ok, Checked.reject_eq_ok,
      Except.ok.injEq, Bool.not_eq_true, Option.isSome_eq_false_iff, Option.isNone_iff_eq_none] at h
    simp [← h.2, h.1, hmonitor]

theorem checkMonitors_eq_ok {before monitors : List MonitorLayout}
    {primary result : Option MonitorLayout}
    (h : checkMonitors before primary monitors = .ok result) :
    (∀ monitor ∈ monitors, monitor.key.text.isEmpty = false) ∧
      (∀ monitor ∈ monitors,
        0 < monitor.bounds.size.width ∧ 0 < monitor.bounds.size.height) ∧
      (∀ monitor ∈ monitors, ∀ existing ∈ before, existing.key ≠ monitor.key) ∧
      monitors.Pairwise (fun a b => a.key ≠ b.key) ∧
      result.toList = primary.toList ++ monitors.filter MonitorLayout.primary := by
  induction monitors generalizing before primary with
  | nil =>
    obtain rfl := Except.ok.inj h
    simp
  | cons monitor rest ih =>
    obtain ⟨next,hmonitor,hrest⟩ := Checked.bind_eq_ok.mp h
    obtain ⟨hkey,hsize,hbefore,hnext⟩ := checkMonitor_eq_ok hmonitor
    obtain ⟨hkeys,hsizes,hdistinct,hpairwise,hresult⟩ := ih hrest
    refine ⟨List.forall_mem_cons.mpr ⟨hkey,hkeys⟩,List.forall_mem_cons.mpr ⟨hsize,hsizes⟩,
      List.forall_mem_cons.mpr ⟨hbefore,?_⟩,List.pairwise_cons.mpr ⟨?_,hpairwise⟩,?_⟩
    · exact fun m hm existing he => hdistinct m hm existing (List.mem_append_left _ he)
    · exact fun m hm => hdistinct m hm monitor (List.mem_append_right _ (List.mem_singleton_self _))
    · rw [hresult, hnext, List.append_assoc, ← List.filter_append, List.singleton_append]

theorem validateMonitorTopology_eq_ok {monitors : List MonitorLayout} {primary : MonitorLayout}
    (h : validateMonitorTopology monitors = .ok primary) : Topology monitors primary := by
  obtain ⟨-,h⟩ := Checked.check_bind_eq_ok.mp h
  obtain ⟨found,hfound,h⟩ := Checked.bind_eq_ok.mp h
  obtain ⟨hkeys,hsizes,-,hdistinct,hprimary⟩ := checkMonitors_eq_ok hfound
  cases found with
  | none => cases h
  | some monitor =>
    obtain rfl := Except.ok.inj h
    exact ⟨hkeys,hsizes,List.pairwise_map.mpr hdistinct,by simpa using hprimary.symm⟩

namespace Topology

variable {monitors : List MonitorLayout} {primary : MonitorLayout}

theorem primary_mem (h : Topology monitors primary) :
    primary ∈ monitors ∧ primary.primary = true := by
  have hmem : primary ∈ monitors.filter MonitorLayout.primary := by simp [h.one_primary]
  exact List.mem_filter.mp hmem

theorem find_key (h : Topology monitors primary) {monitor : MonitorLayout}
    (hmem : monitor ∈ monitors) : monitors.find? (fun m => m.key = monitor.key) = some monitor := by
  cases hfind : monitors.find? (fun m => m.key = monitor.key) with
  | none => simpa using List.find?_eq_none.mp hfind monitor hmem
  | some m =>
    have hkey : m.key = monitor.key := by simpa using List.find?_some hfind
    rw [List.inj_on_of_nodup_map h.keys_distinct (List.mem_of_find?_eq_some hfind) hmem hkey]

end Topology

section Recovery

variable {layout : WidgetLayout} {monitors : List MonitorLayout} {primary monitor : MonitorLayout}

theorem recoverLayout_of_mem (hlayout : layout.validate = .ok ())
    (htopology : validateMonitorTopology monitors = .ok primary) (hmem : monitor ∈ monitors)
    (hkey : layout.monitorKey = some monitor.key) :
    recoverLayout layout monitors =
      .ok ⟨monitor,placeOnMonitor layout.rect monitor.bounds,false⟩ := by
  have hfind := (validateMonitorTopology_eq_ok htopology).find_key hmem
  simp [recoverLayout, hlayout, htopology, hkey, hfind]

/-- A layout whose monitor is missing, or that has none, goes to the primary monitor. -/
theorem recoverLayout_of_missing (hlayout : layout.validate = .ok ())
    (htopology : validateMonitorTopology monitors = .ok primary)
    (hmissing : ∀ m ∈ monitors, layout.monitorKey ≠ some m.key) :
    recoverLayout layout monitors =
      .ok ⟨primary,placeOnMonitor layout.rect primary.bounds,layout.monitorKey.isSome⟩ := by
  have hfind : layout.monitorKey.bind
      (fun key => monitors.find? (fun m => m.key = key)) = none := by
    cases hkey : layout.monitorKey with
    | none => rfl
    | some key =>
      refine List.find?_eq_none.mpr fun m hm => ?_
      have hne := hmissing m hm
      rw [hkey] at hne
      simpa [eq_comm] using hne
  simp [recoverLayout, hlayout, htopology, hfind]

theorem size_pos_of_validate (h : layout.validate = .ok ()) :
    0 < layout.rect.size.width ∧ 0 < layout.rect.size.height := by
  simp only [WidgetLayout.validate, Checked.check_bind_eq_ok, Checked.reject_eq_ok, not_or,
    not_le] at h
  exact h.2.2.1

end Recovery

end Floatile.Core.Layout
