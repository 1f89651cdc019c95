import Floatile.Core.Layout
import Floatile.Lib.Transition
import Floatile.Store.Connection
import Mathlib.Data.Rat.Floor

/-! The table of layouts: its rows, the migrations that have changed them, and the operations on
them. Coordinates are exact, as in the model of layouts. -/
namespace Floatile.Store

open Floatile.Core.Capability (InstanceId PluginId)
open Floatile.Core.Layout
open Floatile.Lib
open Floatile.Lib.Checked (reject bind_eq_ok check_bind_eq_ok reject_eq_ok mapError_eq_ok)
open Floatile.Lib.Transition

/-- A row of the table as the first version of the schema has it. -/
structure LayoutRowV1 where
  pluginId : String
  monitorKey : Option String
  x : ℚ
  y : ℚ
  w : ℚ
  h : ℚ
  z : ℤ
  mode : String
  version : ℤ
  updatedAt : ℤ

structure LayoutRow extends LayoutRowV1 where
  physicalW : ℤ
  physicalH : ℤ
  scaleFactor : ℚ
  lostMonitor : ℤ

/-- `ROUND` rounds halves away from zero. -/
def sqlRound (r : ℚ) : ℤ := if r < 0 then -⌊-r + 1 / 2⌋ else ⌊r + 1 / 2⌋

/-- `CAST(r AS INTEGER)` of a whole number. -/
def castInteger (r : ℤ) : ℤ := max (-2^63) (min (2^63 - 1) r)

/-- The columns of the second version, with their defaults and the `UPDATE`. -/
def LayoutRowV1.upgrade (row : LayoutRowV1) : LayoutRow :=
  { row with
    physicalW := max 1 (castInteger (sqlRound row.w))
    physicalH := max 1 (castInteger (sqlRound row.h))
    scaleFactor := 1
    lostMonitor := 0 }

def readU32 (value : ℤ) (field : String) : Except StoreError ℕ :=
  if 0 ≤ value ∧ value < 2^32 then .ok value.toNat
  else .error (.corrupt s!"{field} 超出 u32 范围: {value}")

def readU64 (value : ℤ) (field : String) : Except StoreError ℕ :=
  if 0 ≤ value then .ok value.toNat
  else .error (.corrupt s!"{field} 不得为负数: {value}")

def readScaleFactor (value : ℚ) : Except StoreError ScaleFactor :=
  if h : 0 < value then .ok ⟨value,h⟩
  else .error (.corrupt "缩放系数必须为有限正数")

def modeText : WidgetMode → String
  | .edit => "edit"
  | .shown => "show"

def readMode (mode : String) : Except StoreError WidgetMode :=
  if mode = "edit" then .ok .edit
  else if mode = "show" then .ok .shown
  else .error (.corrupt s!"未知 mode: {mode}")

def readLostMonitor (value : ℤ) : Except StoreError Bool :=
  if value = 0 then .ok false
  else if value = 1 then .ok true
  else .error (.corrupt s!"lost_monitor 必须为 0 或 1，实际为 {value}")

def rowToLayout (id : ℕ) (row : LayoutRow) : Except StoreError WidgetLayout := do
  let mode ← readMode row.mode
  let scaleFactor ← readScaleFactor row.scaleFactor
  let lostMonitor ← readLostMonitor row.lostMonitor
  let physicalW ← readU32 row.physicalW "physical_w"
  let physicalH ← readU32 row.physicalH "physical_h"
  let z ← readU32 row.z "z"
  let version ← readU32 row.version "version"
  let updatedAt ← readU64 row.updatedAt "updated_at"
  let layout : WidgetLayout := {
    instanceId := ⟨id⟩
    pluginId := ⟨row.pluginId⟩
    monitorKey := row.monitorKey.map MonitorKey.mk
    rect := ⟨⟨row.x,row.y⟩,⟨row.w,row.h⟩⟩
    physicalSize := ⟨physicalW,physicalH⟩
    scaleFactor := scaleFactor
    lostMonitor := lostMonitor
    z := z
    mode := mode
    version := version
    updatedAt := updatedAt }
  layout.validate.mapError (fun e => StoreError.corrupt e.display)
  .ok layout

def layoutToRow (layout : WidgetLayout) : LayoutRow where
  pluginId := layout.pluginId.text
  monitorKey := layout.monitorKey.map MonitorKey.text
  x := layout.rect.position.x
  y := layout.rect.position.y
  w := layout.rect.size.width
  h := layout.rect.size.height
  z := layout.z
  mode := modeText layout.mode
  version := layout.version
  updatedAt := layout.updatedAt
  physicalW := layout.physicalSize.width
  physicalH := layout.physicalSize.height
  scaleFactor := layout.scaleFactor.value
  lostMonitor := if layout.lostMonitor then 1 else 0

/-- A layout whose counters are of the types of the record. -/
structure LayoutRecord where
  layout : WidgetLayout
  width_lt : layout.physicalSize.width < 2^32
  height_lt : layout.physicalSize.height < 2^32
  z_lt : layout.z < 2^32
  version_lt : layout.version < 2^32

/-- The rows behind a handle, by the ids of the instances. -/
abbrev LayoutStore := OrdMap ℕ LayoutRow

namespace LayoutStore

def save (store : LayoutStore) (layout : WidgetLayout) : Except StoreError LayoutStore := do
  layout.validate.mapError (fun e => StoreError.corrupt e.display)
  let id ← sqliteI64 layout.instanceId.value "instance_id"
  let _ ← sqliteI64 layout.updatedAt "updated_at"
  .ok (store.insert id (layoutToRow layout))

def get (store : LayoutStore) (instanceId : ℕ) : Except StoreError (Option WidgetLayout) := do
  let id ← sqliteI64 instanceId "instance_id"
  match OrdMap.get store id with
  | none => .ok none
  | some row => do
    let layout ← rowToLayout id row
    .ok (some layout)

/-- All layouts in the order of their `z`. -/
def list (store : LayoutStore) : Except StoreError (List WidgetLayout) :=
  (store.entries.mergeSort (fun e e' => e.2.z ≤ e'.2.z)).mapM (fun e => rowToLayout e.1 e.2)

def delete (store : LayoutStore) (instanceId : ℕ) : Except StoreError LayoutStore := do
  let id ← sqliteI64 instanceId "instance_id"
  .ok (store.erase id)

end LayoutStore

inductive LayoutTable where
  | absent
  | v1 (rows : OrdMap ℕ LayoutRowV1)
  | v2 (rows : LayoutStore)

structure LayoutFile where
  userVersion : ℕ
  table : LayoutTable

namespace LayoutFile

def migrationV1 (file : LayoutFile) : Except StoreError LayoutFile :=
  match file.table with
  | .absent => .ok ⟨1,.v1 OrdMap.empty⟩
  | table => .ok ⟨1,table⟩

def migrationV2 (file : LayoutFile) : Except StoreError LayoutFile :=
  match file.table with
  | .v1 rows => .ok ⟨2,.v2 (rows.mapValues LayoutRowV1.upgrade)⟩
  | .absent => .error (.migration "v2 增加 DPI/恢复状态失败: no such table: layout")
  | .v2 _ => .error (.migration "v2 增加 DPI/恢复状态失败: duplicate column name: scale_factor")

/-- Later migrations leave the layouts alone. -/
def migration (version : ℕ) (file : LayoutFile) : Except StoreError LayoutFile :=
  match version with
  | 1 => file.migrationV1
  | 2 => file.migrationV2
  | _ => .ok { file with userVersion := version }

def migrations : List (ℕ × (LayoutFile → Except StoreError LayoutFile)) :=
  (List.range' 1 schemaVersion).map fun version => (version,migration version)

def open_ (file : LayoutFile) (failing : Option ℕ) : LayoutFile × Except StoreError Unit :=
  migrateFile userVersion migrations file schemaVersion failing

end LayoutFile

section RoundTrip

@[simp] theorem readMode_modeText (mode : WidgetMode) : readMode (modeText mode) = .ok mode := by
  cases mode <;> rfl

@[simp] theorem readScaleFactor_value (scaleFactor : ScaleFactor) :
    readScaleFactor scaleFactor.value = .ok scaleFactor := by
  rw [readScaleFactor, dif_pos scaleFactor.positive]

@[simp] theorem readLostMonitor_ite (lost : Bool) :
    readLostMonitor (if lost then 1 else 0) = .ok lost := by
  cases lost <;> rfl

theorem readU32_natCast {n : ℕ} (h : n < 2^32) (field : String) : readU32 n field = .ok n := by
  rw [readU32, if_pos ⟨Int.natCast_nonneg n,by exact_mod_cast h⟩, Int.toNat_natCast]

theorem readU64_natCast (n : ℕ) (field : String) : readU64 n field = .ok n := by
  rw [readU64, if_pos (Int.natCast_nonneg n), Int.toNat_natCast]

/-- A valid layout is read back from its row. -/
theorem rowToLayout_layoutToRow (record : LayoutRecord) (h : record.layout.validate = .ok ()) :
    rowToLayout record.layout.instanceId.value (layoutToRow record.layout) =
      .ok record.layout := by
  obtain ⟨layout,hwidth,hheight,hz,hversion⟩ := record
  have hkey : (layout.monitorKey.map MonitorKey.text).map MonitorKey.mk = layout.monitorKey := by
    cases layout.monitorKey <;> rfl
  simp only [rowToLayout, layoutToRow, readMode_modeText, readScaleFactor_value,
    readLostMonitor_ite, readU32_natCast hwidth, readU32_natCast hheight, readU32_natCast hz,
    readU32_natCast hversion, readU64_natCast, Checked.ok_bind, hkey]
  rw [h]
  rfl

end RoundTrip

/-- What holds of a row that a host of the first version has saved. -/
structure LayoutRowV1.Valid (row : LayoutRowV1) : Prop where
  key : ∀ key ∈ row.monitorKey, key.isEmpty = false
  width_pos : 0 < row.w
  height_pos : 0 < row.h
  width_lt : row.w < 2^32 - 1
  height_lt : row.h < 2^32 - 1
  z_pos : 0 < row.z
  z_lt : row.z < 2^32
  mode : row.mode = "edit" ∨ row.mode = "show"
  version : row.version = 1
  updatedAt : 0 ≤ row.updatedAt

/-- The nearest number of pixels, at least one. -/
def wholePixels (length : ℚ) : ℕ := (max 1 ⌊length + 1 / 2⌋).toNat

/-- The layout that a row of the first version stands for: it was saved at scale one, on a monitor
that was there. -/
def LayoutRowV1.layout (id : ℕ) (row : LayoutRowV1) : WidgetLayout where
  instanceId := ⟨id⟩
  pluginId := ⟨row.pluginId⟩
  monitorKey := row.monitorKey.map MonitorKey.mk
  rect := ⟨⟨row.x,row.y⟩,⟨row.w,row.h⟩⟩
  physicalSize := ⟨wholePixels row.w,wholePixels row.h⟩
  scaleFactor := ⟨1,one_pos⟩
  lostMonitor := false
  z := row.z.toNat
  mode := if row.mode = "edit" then .edit else .shown
  version := row.version.toNat
  updatedAt := row.updatedAt.toNat

section Upgrade

variable {length : ℚ}

theorem wholePixels_pos (length : ℚ) : 0 < wholePixels length := by
  have hpos : (0 : ℤ) < max 1 ⌊length + 1 / 2⌋ := lt_max_of_lt_left one_pos
  exact Int.lt_toNat.mpr hpos

theorem cast_wholePixels (length : ℚ) : (wholePixels length : ℤ) = max 1 ⌊length + 1 / 2⌋ :=
  Int.toNat_of_nonneg (le_max_of_le_left zero_le_one)

/-- The pixels differ by less than one from the length. -/
theorem abs_sub_wholePixels_le (h : 0 < length) : |length - wholePixels length| ≤ 1 := by
  have hcast : (wholePixels length : ℚ) = ((max 1 ⌊length + 1 / 2⌋ : ℤ) : ℚ) := by
    exact_mod_cast cast_wholePixels length
  have hfloor := Int.floor_le (length + 1 / 2)
  have hlt := Int.lt_floor_add_one (length + 1 / 2)
  rw [hcast, abs_le]
  rcases le_or_gt 1 ⌊length + 1 / 2⌋ with hone | hzero
  · rw [max_eq_right hone]
    constructor <;> linarith
  · have hle : (⌊length + 1 / 2⌋ : ℚ) ≤ 0 := by
      exact_mod_cast Int.lt_add_one_iff.mp (by simpa using hzero)
    rw [max_eq_left (le_of_lt hzero), Int.cast_one]
    constructor <;> linarith

theorem wholePixels_lt (h : length < 2^32 - 1) : wholePixels length < 2^32 := by
  have hfloor : ⌊length + 1 / 2⌋ < (2^32 : ℤ) := by
    rw [Int.floor_lt]
    push_cast
    linarith
  have hint : (wholePixels length : ℤ) < 2^32 := by
    rw [cast_wholePixels]
    exact max_lt (by norm_num) hfloor
  exact_mod_cast hint

theorem castInteger_of_lt {n : ℤ} (hnonneg : 0 ≤ n) (hlt : n < 2^32) : castInteger n = n := by
  unfold castInteger
  omega

/-- The `UPDATE` of the migration writes the number of pixels. -/
theorem migrated_pixels (hpos : 0 < length) (hlt : length < 2^32 - 1) :
    max 1 (castInteger (sqlRound length)) = (wholePixels length : ℤ) := by
  have hround : sqlRound length = ⌊length + 1 / 2⌋ := if_neg (not_lt.mpr hpos.le)
  have hnonneg : 0 ≤ ⌊length + 1 / 2⌋ := Int.floor_nonneg.mpr (by linarith)
  have hfloor : ⌊length + 1 / 2⌋ < (2^32 : ℤ) := by
    rw [Int.floor_lt]
    push_cast
    linarith
  rw [cast_wholePixels, hround, castInteger_of_lt hnonneg hfloor]

theorem LayoutRowV1.validate_layout {row : LayoutRowV1} (h : row.Valid) (id : ℕ) :
    (row.layout id).validate = .ok () := by
  have hversion : (row.layout id).version = 1 := by
    change row.version.toNat = 1
    rw [h.version]
    rfl
  have hkey : ¬∃ key ∈ (row.layout id).monitorKey, key.text.isEmpty = true := by
    rintro ⟨key,hkey,hempty⟩
    obtain ⟨text,htext,rfl⟩ := Option.mem_map.mp hkey
    rw [h.key text htext] at hempty
    cases hempty
  have hz : (row.layout id).z ≠ 0 := by
    change row.z.toNat ≠ 0
    have hpos := h.z_pos
    omega
  have hwidth := abs_sub_wholePixels_le h.width_pos
  have hheight := abs_sub_wholePixels_le h.height_pos
  have hwpos := wholePixels_pos row.w
  have hhpos := wholePixels_pos row.h
  simp only [WidgetLayout.validate, check_bind_eq_ok, reject_eq_ok]
  refine ⟨not_not.mpr hversion,hkey,not_or.mpr ⟨not_le.mpr h.width_pos,not_le.mpr h.height_pos⟩,
    not_or.mpr ⟨hwpos.ne',hhpos.ne'⟩,?_,by simp [LayoutRowV1.layout],hz⟩
  simp only [not_or, not_not, ScaleFactor.fits, LayoutRowV1.layout, mul_one]
  exact ⟨hwidth,hheight⟩

/-- The migrated row is read as the layout that it stood for. -/
theorem rowToLayout_upgrade {row : LayoutRowV1} (h : row.Valid) (id : ℕ) :
    rowToLayout id row.upgrade = .ok (row.layout id) := by
  have hmode : readMode row.mode = .ok (if row.mode = "edit" then .edit else .shown) := by
    rcases h.mode with hmode | hmode <;> rw [hmode] <;> rfl
  have hz : readU32 row.z "z" = .ok row.z.toNat := if_pos ⟨h.z_pos.le,h.z_lt⟩
  have hversion : readU32 row.version "version" = .ok row.version.toNat := by
    rw [h.version]
    rfl
  have hupdated : readU64 row.updatedAt "updated_at" = .ok row.updatedAt.toNat :=
    if_pos h.updatedAt
  have hwidth := readU32_natCast (wholePixels_lt h.width_lt) "physical_w"
  have hheight := readU32_natCast (wholePixels_lt h.height_lt) "physical_h"
  have hscale : readScaleFactor 1 = .ok ⟨1,one_pos⟩ := dif_pos one_pos
  have hlost : readLostMonitor 0 = .ok false := rfl
  have hvalid := LayoutRowV1.validate_layout h id
  simp only [rowToLayout, LayoutRowV1.upgrade, hmode, hscale, hlost, hz, hversion, hupdated,
    migrated_pixels h.width_pos h.width_lt, migrated_pixels h.height_pos h.height_lt, hwidth,
    hheight, Checked.ok_bind]
  rw [LayoutRowV1.layout] at hvalid ⊢
  rw [hvalid]
  rfl

end Upgrade

/-- A file with the layouts that its users have saved, and whether this host has it open. -/
structure LayoutState where
  file : LayoutFile
  opened : Bool
  contents : ℕ → Option WidgetLayout

/-- The file is opened, by this host or after a restart, or an operation goes through the handle. -/
inductive LayoutLabel where
  | open_ (failing : Option ℕ)
  | save (record : LayoutRecord)
  | delete (instanceId : ℕ)

namespace LayoutState

/-- An operation on the rows behind the handle. -/
def write (s : LayoutState) (op : LayoutStore → Except StoreError LayoutStore)
    (contents : ℕ → Option WidgetLayout) : LayoutState :=
  match s.opened, s.file.table with
  | true, .v2 rows =>
    match op rows with
    | .ok rows' => { s with file := { s.file with table := .v2 rows' }, contents := contents }
    | .error _ => s
  | _, _ => s

def next (s : LayoutState) : LayoutLabel → LayoutState
  | .open_ failing =>
    let (file,result) := s.file.open_ failing
    { s with file := file, opened := result.toOption.isSome }
  | .save record => s.write (fun rows => rows.save record.layout) fun id =>
      if id = record.layout.instanceId.value then some record.layout else s.contents id
  | .delete instanceId => s.write (fun rows => rows.delete instanceId) fun id =>
      if id = instanceId then none else s.contents id

/-- The file is new, or a host of the first version has left it. -/
def Initial (s : LayoutState) : Prop :=
  s.opened = false ∧ ((s.file = ⟨0,.absent⟩ ∧ s.contents = fun _ => none) ∨
    ∃ rows : OrdMap ℕ LayoutRowV1, s.file = ⟨1,.v1 rows⟩ ∧ (∀ e ∈ rows.entries, e.2.Valid) ∧
      s.contents = fun id => (rows.get id).map (LayoutRowV1.layout id))

end LayoutState

def layoutSystem : System LayoutState LayoutLabel :=
  System.ofFunction LayoutState.Initial LayoutState.next

/-- Every row is read as the layout that was saved last. -/
def LayoutStore.Holds (store : LayoutStore) (contents : ℕ → Option WidgetLayout) : Prop :=
  ∀ id, (OrdMap.get store id).map (rowToLayout id) = (contents id).map Except.ok

/-- The table has the columns of its version and holds the layouts. -/
def LayoutFile.Holds (file : LayoutFile) (contents : ℕ → Option WidgetLayout) : Prop :=
  match file.table with
  | .absent => file.userVersion = 0 ∧ ∀ id, contents id = none
  | .v1 rows => file.userVersion = 1 ∧ (∀ e ∈ rows.entries, e.2.Valid) ∧
      ∀ id, contents id = (rows.get id).map (LayoutRowV1.layout id)
  | .v2 rows => 2 ≤ file.userVersion ∧ rows.Holds contents

section Runs

variable {s s' : LayoutState} {file : LayoutFile} {contents : ℕ → Option WidgetLayout}
  {store store' : LayoutStore}

/-- A migration whose turn it is keeps the layouts. -/
theorem LayoutFile.Holds.migration (h : file.Holds contents) : ∃ file',
    LayoutFile.migration (file.userVersion + 1) file = .ok file' ∧
      file'.userVersion = file.userVersion + 1 ∧ file'.Holds contents := by
  obtain ⟨userVersion,table⟩ := file
  cases table with
  | absent =>
    obtain ⟨rfl,hnone⟩ : userVersion = 0 ∧ _ := h
    refine ⟨_,rfl,rfl,rfl,?_,hnone⟩
    intro e he
    cases he
  | v1 rows =>
    obtain ⟨rfl,hvalid,hcontents⟩ : userVersion = 1 ∧ _ := h
    refine ⟨_,rfl,rfl,le_refl _,fun id => ?_⟩
    change (SortedMap.find id (SortedMap.mapValues LayoutRowV1.upgrade rows.entries)).map _ = _
    rw [hcontents, SortedMap.find_mapValues, OrdMap.get]
    cases hfind : SortedMap.find id rows.entries with
    | none => rfl
    | some row =>
      have hrow := hvalid _ (SortedMap.mem_of_find hfind)
      exact congrArg some (rowToLayout_upgrade hrow id)
  | v2 rows =>
    obtain ⟨htwo,hrows⟩ : 2 ≤ userVersion ∧ _ := h
    obtain ⟨k,rfl⟩ := Nat.exists_eq_add_of_le' htwo
    exact ⟨⟨k + 2 + 1,.v2 rows⟩,rfl,rfl,Nat.le_succ_of_le htwo,hrows⟩

/-- A file of a version from which the table has its last columns. -/
theorem LayoutFile.Holds.latest (h : file.Holds contents) (hversion : 2 ≤ file.userVersion) :
    ∃ rows, file.table = .v2 rows := by
  cases htable : file.table with
  | absent =>
    rw [LayoutFile.Holds, htable] at h
    have hzero := h.1
    omega
  | v1 rows =>
    rw [LayoutFile.Holds, htable] at h
    have hone := h.1
    omega
  | v2 rows => exact ⟨rows,rfl⟩

theorem LayoutFile.Holds.open_ (h : file.Holds contents) (failing : Option ℕ) :
    (file.open_ failing).1.Holds contents ∧
      ((file.open_ failing).2 = .ok () → ∃ rows, (file.open_ failing).1.table = .v2 rows) := by
  unfold LayoutFile.open_ migrateFile
  split_ifs with hnewer
  · exact ⟨h,by intro hok; cases hok⟩
  · have hstep : ∀ k (file : LayoutFile), file.userVersion = k ∧ file.Holds contents →
        ∃ file', LayoutFile.migration (k + 1) file = .ok file' ∧
          file'.userVersion = k + 1 ∧ file'.Holds contents := by
      rintro _ file ⟨rfl,hfile⟩
      exact hfile.migration
    obtain ⟨⟨_,-,hholds⟩,hok⟩ := Migration.run_numbered
      (fun version => StoreError.migration s!"v{version} 提交失败") failing hstep 0 schemaVersion
      ⟨(Nat.max_eq_left (Nat.zero_le _)).symm,h⟩
    refine ⟨hholds,fun hresult => ?_⟩
    obtain ⟨hversion,hlatest⟩ := hok hresult
    refine hlatest.latest ?_
    rw [hversion]
    exact le_max_of_le_right (by decide)

theorem LayoutStore.save_eq_ok {layout : WidgetLayout} : store.save layout = .ok store' ↔
    (layout.validate = .ok () ∧ layout.instanceId.value < 2^63 ∧ layout.updatedAt < 2^63) ∧
      store' = store.insert layout.instanceId.value (layoutToRow layout) := by
  rw [LayoutStore.save, check_bind_eq_ok, mapError_eq_ok]
  simp only [bind_eq_ok, sqliteI64_eq_ok, Except.ok.injEq]
  constructor
  · rintro ⟨hvalid,id,⟨hid,rfl⟩,at_,⟨hat,-⟩,rfl⟩
    exact ⟨⟨hvalid,hid,hat⟩,rfl⟩
  · rintro ⟨⟨hvalid,hid,hat⟩,rfl⟩
    exact ⟨hvalid,_,⟨hid,rfl⟩,_,⟨hat,rfl⟩,rfl⟩

theorem LayoutStore.delete_eq_ok {instanceId : ℕ} : store.delete instanceId = .ok store' ↔
    instanceId < 2^63 ∧ store' = store.erase instanceId := by
  simp only [LayoutStore.delete, bind_eq_ok, sqliteI64_eq_ok, Except.ok.injEq]
  constructor
  · rintro ⟨id,⟨hid,rfl⟩,rfl⟩
    exact ⟨hid,rfl⟩
  · rintro ⟨hid,rfl⟩
    exact ⟨_,⟨hid,rfl⟩,rfl⟩

theorem LayoutStore.Holds.insert (h : store.Holds contents) (record : LayoutRecord)
    (hvalid : record.layout.validate = .ok ()) :
    LayoutStore.Holds (store.insert record.layout.instanceId.value (layoutToRow record.layout))
      fun id => if id = record.layout.instanceId.value then some record.layout else contents id := by
  intro id
  dsimp only
  rw [OrdMap.get_insert]
  split_ifs with heq
  · rw [heq]
    exact congrArg some (rowToLayout_layoutToRow record hvalid)
  · exact h id

theorem LayoutStore.Holds.erase (h : store.Holds contents) (instanceId : ℕ) :
    LayoutStore.Holds (store.erase instanceId) fun id =>
      if id = instanceId then none else contents id := by
  intro id
  dsimp only
  rw [OrdMap.get_erase]
  split_ifs with heq
  · rfl
  · exact h id

theorem LayoutStore.Holds.get (h : store.Holds contents) {instanceId : ℕ}
    (hid : instanceId < 2^63) : LayoutStore.get store instanceId = .ok (contents instanceId) := by
  have hrow := h instanceId
  rw [LayoutStore.get, sqliteI64_eq_ok.mpr ⟨hid,rfl⟩, Checked.ok_bind]
  cases hget : OrdMap.get store instanceId with
  | none =>
    rw [hget, Option.map_none, eq_comm, Option.map_eq_none_iff] at hrow
    rw [hrow]
  | some row =>
    rw [hget, Option.map_some, eq_comm, Option.map_eq_some_iff] at hrow
    obtain ⟨layout,hcontents,hlayout⟩ := hrow
    dsimp only
    rw [hcontents, ← hlayout]
    rfl

theorem rowToLayout_eq_ok {id : ℕ} {row : LayoutRow} {layout : WidgetLayout}
    (h : rowToLayout id row = .ok layout) :
    layout.instanceId.value = id ∧ (layout.z : ℤ) = row.z := by
  simp only [rowToLayout, bind_eq_ok, Except.ok.injEq] at h
  obtain ⟨mode,-,scaleFactor,-,lostMonitor,-,width,-,height,-,z,hz,version,-,updatedAt,-,-,-,rfl⟩ := h
  refine ⟨rfl,?_⟩
  unfold readU32 at hz
  split_ifs at hz with hrange
  obtain rfl := Except.ok.inj hz
  exact Int.toNat_of_nonneg hrange.1

theorem map_eq_of_forall₂ {α β γ : Type} {R : α → β → Prop} {f : α → γ} {g : β → γ} {xs : List α}
    {ys : List β} (h : List.Forall₂ R xs ys) (hR : ∀ x y, R x y → f x = g y) :
    xs.map f = ys.map g := by
  induction h with
  | nil => rfl
  | cons hxy _ ih => rw [List.map_cons, List.map_cons, hR _ _ hxy, ih]

/-- The layouts are listed in the order of `z`, each instance once. -/
theorem LayoutStore.Holds.list (h : store.Holds contents) :
    ∃ layouts, store.list = .ok layouts ∧ layouts.Pairwise (fun l l' => l.z ≤ l'.z) ∧
      (layouts.map fun l => l.instanceId.value).Nodup ∧
      ∀ layout, layout ∈ layouts ↔ contents layout.instanceId.value = some layout := by
  have hentry {id : ℕ} {row : LayoutRow} {layout : WidgetLayout} :
      (id,row) ∈ store.entries ∧ rowToLayout id row = .ok layout → contents id = some layout := by
    rintro ⟨hmem,hlayout⟩
    have hrow := h id
    rw [(OrdMap.mem_entries_iff store id row).mp hmem, Option.map_some, hlayout, eq_comm,
      Option.map_eq_some_iff] at hrow
    obtain ⟨layout',hcontents,hok⟩ := hrow
    rw [hcontents, Except.ok.inj hok]
  have hreadable : ∀ e ∈ store.entries.mergeSort (fun e e' => e.2.z ≤ e'.2.z),
      ∃ layout, rowToLayout e.1 e.2 = .ok layout := by
    intro e he
    have hrow := h e.1
    rw [(OrdMap.mem_entries_iff store e.1 e.2).mp (List.mem_mergeSort.mp he), Option.map_some,
      eq_comm, Option.map_eq_some_iff] at hrow
    obtain ⟨layout,-,hok⟩ := hrow
    exact ⟨layout,hok.symm⟩
  have hlist := Checked.mapM_eq_ok_of_forall hreadable
  refine ⟨_,hlist,?_,?_,fun layout => ⟨fun hmem => ?_,fun hcontents => ?_⟩⟩
  · have hz := map_eq_of_forall₂ ((Checked.mapM_eq_ok_iff _ _ _).mp hlist)
      (f := fun e => e.2.z) (g := fun l => (l.z : ℤ)) fun e l hl => (rowToLayout_eq_ok hl).2.symm
    have hsorted : (store.entries.mergeSort (fun e e' => e.2.z ≤ e'.2.z)).Pairwise
        (fun e e' => e.2.z ≤ e'.2.z) := by
      have hpairwise : (store.entries.mergeSort (fun e e' => e.2.z ≤ e'.2.z)).Pairwise
          (fun e e' => decide (e.2.z ≤ e'.2.z) = true) := by
        refine List.pairwise_mergeSort ?_ ?_ store.entries
        · intro a b c hab hbc
          rw [decide_eq_true_eq] at hab hbc ⊢
          exact hab.trans hbc
        · intro a b
          simpa using le_total a.2.z b.2.z
      simpa using hpairwise
    have hlayouts := List.pairwise_map.mp (hz ▸ List.pairwise_map.mpr hsorted)
    exact hlayouts.imp fun hle => by exact_mod_cast hle
  · have hids := map_eq_of_forall₂ ((Checked.mapM_eq_ok_iff _ _ _).mp hlist)
      (f := fun e => e.1) (g := fun l => l.instanceId.value)
      fun e l hl => (rowToLayout_eq_ok hl).1.symm
    rw [← hids, ((List.mergeSort_perm store.entries _).map _).nodup_iff]
    exact (List.pairwise_map.mpr store.ordered).imp ne_of_lt
  · obtain ⟨e,he,hlayout⟩ := Checked.exists_of_mem_mapM hlist hmem
    rw [(rowToLayout_eq_ok hlayout).1]
    exact hentry ⟨List.mem_mergeSort.mp he,hlayout⟩
  · have hrow := h layout.instanceId.value
    rw [hcontents, Option.map_some, Option.map_eq_some_iff] at hrow
    obtain ⟨row,hget,hlayout⟩ := hrow
    obtain ⟨layout',hmem,hok⟩ := Checked.exists_mem_of_mapM hlist
      (List.mem_mergeSort.mpr ((OrdMap.mem_entries_iff store _ row).mpr hget))
    rwa [← Except.ok.inj (hok.symm.trans hlayout)]

/-- The file holds the layouts, and a handle has the table of the last version behind it. -/
theorem holds_of_reachable (h : layoutSystem.Reachable s) : s.file.Holds s.contents ∧
    (s.opened = true → ∃ rows, s.file.table = .v2 rows) := by
  refine h.invariant (fun s => s.file.Holds s.contents ∧
    (s.opened = true → ∃ rows, s.file.table = .v2 rows)) ?_ ?_
  · rintro ⟨file,opened,contents⟩ ⟨rfl,⟨rfl,rfl⟩ | ⟨rows,rfl,hvalid,rfl⟩⟩
    · exact ⟨⟨rfl,fun _ => rfl⟩,by intro hopen; cases hopen⟩
    · exact ⟨⟨rfl,hvalid,fun _ => rfl⟩,by intro hopen; cases hopen⟩
  · rintro s label s' ⟨hholds,hopened⟩ - rfl
    have hwrite {op : LayoutStore → Except StoreError LayoutStore} {contents' : ℕ → Option WidgetLayout}
        (hop : ∀ rows rows' : LayoutStore, rows.Holds s.contents → op rows = .ok rows' →
          rows'.Holds contents') :
        (s.write op contents').file.Holds (s.write op contents').contents ∧
          ((s.write op contents').opened = true →
            ∃ rows, (s.write op contents').file.table = .v2 rows) := by
      unfold LayoutState.write
      split
      · rename_i rows hopen htable
        rw [LayoutFile.Holds, htable] at hholds
        split
        · rename_i rows' hok
          exact ⟨⟨hholds.1,hop rows rows' hholds.2 hok⟩,fun _ => ⟨rows',rfl⟩⟩
        · exact ⟨by rw [LayoutFile.Holds, htable]; exact hholds,hopened⟩
      · exact ⟨hholds,hopened⟩
    cases label with
    | open_ failing =>
      obtain ⟨hafter,hlatest⟩ := hholds.open_ failing
      refine ⟨hafter,fun hopen => hlatest ?_⟩
      obtain ⟨u,hu⟩ := Option.isSome_iff_exists.mp hopen
      exact Checked.toOption_eq_some.mp hu
    | save record =>
      refine hwrite fun rows rows' hrows hok => ?_
      obtain ⟨⟨hvalid,-⟩,rfl⟩ := LayoutStore.save_eq_ok.mp hok
      exact hrows.insert record hvalid
    | delete instanceId =>
      refine hwrite fun rows rows' hrows hok => ?_
      obtain ⟨-,rfl⟩ := LayoutStore.delete_eq_ok.mp hok
      exact hrows.erase instanceId

end Runs

/-- Whatever was saved, deleted and migrated, also over restarts and failed migrations: once the
file is open, every instance has the layout that was saved last, and the list has them all in the
order of `z`. A save is refused only when the layout is not valid or an integer does not fit. -/
theorem layouts_read_back {s : LayoutState} (h : layoutSystem.Reachable s) (hopen : s.opened = true) :
    ∃ rows, s.file.table = .v2 rows ∧
      (∀ id < 2^63, rows.get id = .ok (s.contents id)) ∧
      (∃ layouts, rows.list = .ok layouts ∧ layouts.Pairwise (fun l l' => l.z ≤ l'.z) ∧
        (layouts.map fun l => l.instanceId.value).Nodup ∧
        ∀ layout, layout ∈ layouts ↔ s.contents layout.instanceId.value = some layout) ∧
      ∀ record : LayoutRecord, (∃ rows', rows.save record.layout = .ok rows') ↔
        record.layout.validate = .ok () ∧ record.layout.instanceId.value < 2^63 ∧
          record.layout.updatedAt < 2^63 := by
  obtain ⟨hholds,hopened⟩ := holds_of_reachable h
  obtain ⟨rows,htable⟩ := hopened hopen
  rw [LayoutFile.Holds, htable] at hholds
  refine ⟨rows,htable,fun id hid => hholds.2.get hid,hholds.2.list,fun record => ?_⟩
  constructor
  · rintro ⟨rows',hok⟩
    exact (LayoutStore.save_eq_ok.mp hok).1
  · exact fun hvalid => ⟨_,LayoutStore.save_eq_ok.mpr ⟨hvalid,rfl⟩⟩

/-- A clock that was placed before the file had physical sizes. -/
def clockRowV1 : LayoutRowV1 where
  pluginId := "dev.floatile.clock"
  monitorKey := some "edid-abc123"
  x := 120
  y := 80
  w := 261 / 2
  h := 120
  z := 1
  mode := "show"
  version := 1
  updatedAt := 7

theorem clockRowV1_valid : clockRowV1.Valid where
  key := by rintro _ ⟨⟩; rfl
  width_pos := by norm_num [clockRowV1]
  height_pos := by norm_num [clockRowV1]
  width_lt := by norm_num [clockRowV1]
  height_lt := by norm_num [clockRowV1]
  z_pos := by norm_num [clockRowV1]
  z_lt := by norm_num [clockRowV1]
  mode := Or.inr rfl
  version := rfl
  updatedAt := by norm_num [clockRowV1]

/-- The file of a host of the first version. -/
def clockFileV1 : LayoutState :=
  ⟨⟨1,.v1 (OrdMap.empty.insert 3 clockRowV1)⟩,false,
    fun id => ((OrdMap.empty.insert 3 clockRowV1).get id).map (LayoutRowV1.layout id)⟩

theorem layouts_read_back_migrated : ∃ s, layoutSystem.Reachable s ∧ ∃ rows,
    s.file.table = .v2 rows ∧ rows.get 3 = .ok (some (clockRowV1.layout 3)) := by
  have hinit : clockFileV1.Initial := by
    refine ⟨rfl,Or.inr ⟨_,rfl,?_,rfl⟩⟩
    intro e he
    obtain rfl := List.mem_singleton.mp he
    exact clockRowV1_valid
  have hreach : layoutSystem.Reachable (clockFileV1.next (.open_ none)) :=
    (System.ReachableWhen.of_init hinit).apply trivial
  obtain ⟨rows,htable,hget,-⟩ := layouts_read_back hreach rfl
  exact ⟨_,hreach,rows,htable,hget 3 (by norm_num)⟩

end Floatile.Store
