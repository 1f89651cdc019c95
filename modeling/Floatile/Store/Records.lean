import Floatile.Store.Instance

/-! The updates of the row of an instance. Each carries a timestamp and repeats the guard that the
row must not be newer. -/
namespace Floatile.Store

open Floatile.Core
open Floatile.Lib

inductive InstanceUpdate where
  | updateConfig (id : ℕ) (config : InstanceConfig) (updatedAt : ℕ)
  | setDesiredState (id : ℕ) (desiredState : InstanceDesiredState) (updatedAt : ℕ)
  | rollbackInstallation (id : ℕ) (current target : InstallationRef) (reason : String)
      (updatedAt : ℕ)
  | advanceGeneration (id updatedAt : ℕ)

/-- What a caller is told. -/
inductive UpdateReport where
  | changed (changed : Bool)
  | generation (generation : Option ℕ)
  deriving DecidableEq

def UpdateReport.done : UpdateReport → Bool
  | .changed done => done
  | .generation next => next.isSome

namespace InstanceUpdate

def instanceId : InstanceUpdate → ℕ
  | .updateConfig id _ _ | .setDesiredState id _ _ | .rollbackInstallation id _ _ _ _
  | .advanceGeneration id _ => id

def updatedAt : InstanceUpdate → ℕ
  | .updateConfig _ _ updatedAt | .setDesiredState _ _ updatedAt
  | .rollbackInstallation _ _ _ _ updatedAt | .advanceGeneration _ updatedAt => updatedAt

/-- The columns that an update is meant to change. -/
def write (row : PluginInstance) : InstanceUpdate → PluginInstance
  | .updateConfig _ config updatedAt => { row with config := config, updatedAt := updatedAt }
  | .setDesiredState _ desiredState updatedAt =>
    { row with desiredState := desiredState, updatedAt := updatedAt }
  | .rollbackInstallation _ _ target _ updatedAt => { row with
      installation := { row.installation with version := target.version, digest := target.digest }
      updatedAt := updatedAt }
  | .advanceGeneration _ updatedAt =>
    { row with generation := row.generation + 1, updatedAt := updatedAt }

/-- The record that a rollback leaves behind. -/
def audit : InstanceUpdate → List RollbackRow
  | .rollbackInstallation id current target reason updatedAt =>
    [⟨id,current.plugin.text,current.version,current.digest,target.version,target.digest,reason,
      updatedAt⟩]
  | .updateConfig _ _ _ | .setDesiredState _ _ _ | .advanceGeneration _ _ => []

/-- What the caller is told of an update that changes the row. -/
def success (row : PluginInstance) : InstanceUpdate → UpdateReport
  | .updateConfig _ _ _ | .setDesiredState _ _ _ | .rollbackInstallation _ _ _ _ _ => .changed true
  | .advanceGeneration _ _ => .generation (some (row.generation + 1))

@[simp] theorem updatedAt_write (row : PluginInstance) (u : InstanceUpdate) :
    (u.write row).updatedAt = u.updatedAt := by
  cases u <;> rfl

@[simp] theorem createdAt_write (row : PluginInstance) (u : InstanceUpdate) :
    (u.write row).createdAt = row.createdAt := by
  cases u <;> rfl

@[simp] theorem plugin_write (row : PluginInstance) (u : InstanceUpdate) :
    (u.write row).installation.plugin = row.installation.plugin := by
  cases u <;> rfl

@[simp] theorem done_success (row : PluginInstance) (u : InstanceUpdate) :
    (u.success row).done = true := by
  cases u <;> rfl

variable {Version : Type} (lib : InstallLib Version)

def apply (t : InstanceTables) :
    InstanceUpdate → Except StoreError (UpdateReport × InstanceTables)
  | .updateConfig id config updatedAt =>
    (t.updateConfig id config updatedAt).map (Prod.map .changed (fun t => t))
  | .setDesiredState id desiredState updatedAt =>
    (t.setDesiredState id desiredState updatedAt).map (Prod.map .changed (fun t => t))
  | .rollbackInstallation id current target reason updatedAt =>
    (t.rollbackInstallation lib id current target reason updatedAt).map
      (Prod.map .changed (fun t => t))
  | .advanceGeneration id updatedAt =>
    (t.advanceGeneration id updatedAt).map (Prod.map .generation (fun t => t))

/-- The tables after an update; one that fails is rolled back. -/
def next (t : InstanceTables) (u : InstanceUpdate) : InstanceTables :=
  match u.apply lib t with
  | .ok (_,t') => t'
  | .error _ => t

/-- The tables after an update that changes the row. -/
def written (t : InstanceTables) (u : InstanceUpdate) (row : PluginInstance) : InstanceTables :=
  { t.put u.instanceId (u.write row) with rollbacks := t.rollbacks ++ u.audit }

/-- The row is there and not newer than the update, and its generation is not exhausted. -/
structure Writes (t : InstanceTables) (u : InstanceUpdate) (row : PluginInstance) : Prop where
  found : t.instances.get u.instanceId = some row
  notNewer : row.updatedAt ≤ u.updatedAt
  generation : (u.write row).generation < 2^63 ∨ (u.write row).generation = row.generation

end InstanceUpdate

theorem InstanceTables.matching_eq_some {t : InstanceTables} {id updatedAt : ℕ}
    {row : PluginInstance} (h : t.matching id updatedAt = .ok (some row)) :
    t.instances.get id = some row ∧ row.updatedAt ≤ updatedAt := by
  simp only [matching, sqliteI64, Checked.bind_eq_ok] at h
  obtain ⟨i,hi,at',hat,hfilter⟩ := h
  split_ifs at hi hat
  cases hi
  cases hat
  simpa only [Except.ok.injEq, Option.filter_eq_some_iff, decide_eq_true_eq] using hfilter

namespace InstanceUpdate

variable {Version : Type} {lib : InstallLib Version} {t t' : InstanceTables}

/-- All that an update can do. -/
theorem apply_cases {u : InstanceUpdate} {report : UpdateReport}
    (h : u.apply lib t = .ok (report,t')) :
    (report.done = false ∧ t' = t) ∨
      ∃ row, Writes t u row ∧ report = u.success row ∧ t' = u.written t row := by
  cases u with
  | updateConfig id config updatedAt =>
    simp only [apply, InstanceTables.updateConfig, Checked.map_eq_ok, Checked.bind_eq_ok] at h
    obtain ⟨⟨changed,s⟩,⟨found,hmatching,hs⟩,hreport⟩ := h
    cases hreport
    cases found with
    | none =>
      cases hs
      exact Or.inl ⟨rfl,rfl⟩
    | some row =>
      cases hs
      obtain ⟨hfound,hle⟩ := InstanceTables.matching_eq_some hmatching
      exact Or.inr ⟨row,⟨hfound,hle,Or.inr rfl⟩,rfl,by simp [written, audit, write, instanceId,
        InstanceTables.put]⟩
  | setDesiredState id desiredState updatedAt =>
    simp only [apply, InstanceTables.setDesiredState, Checked.map_eq_ok, Checked.bind_eq_ok] at h
    obtain ⟨⟨changed,s⟩,⟨found,hmatching,hs⟩,hreport⟩ := h
    cases hreport
    cases found with
    | none =>
      cases hs
      exact Or.inl ⟨rfl,rfl⟩
    | some row =>
      cases hs
      obtain ⟨hfound,hle⟩ := InstanceTables.matching_eq_some hmatching
      exact Or.inr ⟨row,⟨hfound,hle,Or.inr rfl⟩,rfl,by simp [written, audit, write, instanceId,
        InstanceTables.put]⟩
  | rollbackInstallation id current target reason updatedAt =>
    simp only [apply, InstanceTables.rollbackInstallation, Checked.map_eq_ok, Checked.bind_eq_ok] at h
    obtain ⟨⟨changed,s⟩,⟨found,hmatching,hs⟩,hreport⟩ := h
    cases hreport
    cases found with
    | none =>
      cases hs
      exact Or.inl ⟨rfl,rfl⟩
    | some row =>
      cases hs
      simp only [InstanceTables.rollbackMatching, Checked.bind_eq_ok, Except.ok.injEq] at hmatching
      obtain ⟨-,-,-,-,-,-,found,hfound,-,-,hfilter⟩ := hmatching
      obtain ⟨rfl,hrow⟩ := Option.filter_eq_some_iff.mp hfilter
      obtain ⟨hcurrent,-⟩ := of_decide_eq_true hrow
      obtain ⟨hget,hle⟩ := InstanceTables.matching_eq_some hfound
      refine Or.inr ⟨row,⟨hget,hle,Or.inr rfl⟩,rfl,?_⟩
      simp [written, audit, write, instanceId, InstanceTables.repinned, hcurrent]
  | advanceGeneration id updatedAt =>
    simp only [apply, InstanceTables.advanceGeneration, Checked.map_eq_ok, Checked.bind_eq_ok] at h
    obtain ⟨⟨generation,s⟩,⟨found,hmatching,hs⟩,hreport⟩ := h
    cases hreport
    cases hrow : found.filter (fun row => row.generation < 2^63 - 1) with
    | none =>
      rw [hrow] at hs
      cases hs
      exact Or.inl ⟨rfl,rfl⟩
    | some row =>
      rw [hrow] at hs
      cases hs
      obtain ⟨rfl,hlimit⟩ := Option.filter_eq_some_iff.mp hrow
      obtain ⟨hget,hle⟩ := InstanceTables.matching_eq_some hmatching
      have hbound : row.generation + 1 < 2^63 := by
        have hlt : row.generation < 2^63 - 1 := of_decide_eq_true hlimit
        omega
      exact Or.inr ⟨row,⟨hget,hle,Or.inl hbound⟩,rfl,by simp [written, audit, write, instanceId,
        InstanceTables.put]⟩

variable (lib) in
theorem next_cases (t : InstanceTables) (u : InstanceUpdate) :
    u.next lib t = t ∨ ∃ row, Writes t u row ∧ u.next lib t = u.written t row := by
  unfold next
  cases h : u.apply lib t with
  | error e => exact Or.inl rfl
  | ok out =>
    obtain ⟨report,t'⟩ := out
    rcases apply_cases h with ⟨-,rfl⟩ | ⟨row,hwrites,-,rfl⟩
    · exact Or.inl rfl
    · exact Or.inr ⟨row,hwrites,rfl⟩

/-- The caller is told the next generation of this instance. -/
def advances (lib : InstallLib Version) (t : InstanceTables) (id : ℕ) (u : InstanceUpdate) : Bool :=
  match u.apply lib t with
  | .ok (.generation (some _),_) => u.instanceId = id
  | .ok (.generation none,_) | .ok (.changed _,_) | .error _ => false

/-- The tables after a sequence of updates. -/
def run (lib : InstallLib Version) (t : InstanceTables) (us : List InstanceUpdate) :
    InstanceTables := us.foldl (next lib) t

/-- How often a sequence of updates advances the generation of an instance. -/
def advanced (lib : InstallLib Version) (id : ℕ) : InstanceTables → List InstanceUpdate → ℕ
  | _, [] => 0
  | t, u :: us => (u.advances lib t id).toNat + advanced lib id (u.next lib t) us

/-- A later state of the row of an instance, after some advances of its generation. -/
structure Later (row row' : PluginInstance) (n : ℕ) : Prop where
  updatedAt : row.updatedAt ≤ row'.updatedAt
  generation : row'.generation = row.generation + n
  bounded : row.generation < 2^63 → row'.generation < 2^63
  createdAt : row'.createdAt = row.createdAt
  plugin : row'.installation.plugin = row.installation.plugin

theorem Later.refl (row : PluginInstance) : Later row row 0 :=
  ⟨le_refl _,rfl,fun h => h,rfl,rfl⟩

theorem Later.trans {row row' row'' : PluginInstance} {m n : ℕ} (h : Later row row' m)
    (h' : Later row' row'' n) : Later row row'' (m + n) where
  updatedAt := h.updatedAt.trans h'.updatedAt
  generation := by rw [h'.generation,h.generation,Nat.add_assoc]
  bounded := fun hlt => h'.bounded (h.bounded hlt)
  createdAt := h'.createdAt.trans h.createdAt
  plugin := h'.plugin.trans h.plugin

theorem get_written (u : InstanceUpdate) (row : PluginInstance) (id : ℕ) :
    (u.written t row).instances.get id =
      if id = u.instanceId then some (u.write row) else t.instances.get id :=
  OrdMap.get_insert _ _ _ _

theorem Writes.later {u : InstanceUpdate} {row : PluginInstance} (h : Writes t u row)
    {n : ℕ} (hgeneration : (u.write row).generation = row.generation + n) :
    Later row (u.write row) n where
  updatedAt := by
    rw [updatedAt_write]
    exact h.notNewer
  generation := hgeneration
  bounded := by
    intro hlt
    rcases h.generation with hbound | hsame
    · exact hbound
    · rwa [hsame]
  createdAt := createdAt_write row u
  plugin := plugin_write row u

/-- The generation goes up by one where the caller is told so, and stays otherwise. -/
theorem generation_write {u : InstanceUpdate} {row : PluginInstance}
    (h : u.apply lib t = .ok (u.success row,t')) :
    (u.write row).generation = row.generation + (u.advances lib t u.instanceId).toNat := by
  cases u with
  | advanceGeneration id updatedAt => simp [advances, h, success, write]
  | updateConfig | setDesiredState | rollbackInstallation => simp [advances, h, success, write]

theorem advances_of_ne {u : InstanceUpdate} {id : ℕ} (h : u.instanceId ≠ id) :
    u.advances lib t id = false := by
  unfold advances
  split
  · simp [h]
  · rfl
  · rfl
  · rfl

theorem not_advances_of_done {u : InstanceUpdate} {report : UpdateReport} {id : ℕ}
    (h : u.apply lib t = .ok (report,t')) (hdone : report.done = false) :
    u.advances lib t id = false := by
  cases report with
  | changed done => simp [advances, h]
  | generation next =>
    cases next with
    | none => simp [advances, h]
    | some generation => cases hdone

/-- One update takes the row of every instance to a later state. -/
theorem next_later (u : InstanceUpdate) {id : ℕ} {row : PluginInstance}
    (hrow : t.instances.get id = some row) :
    ∃ row', (u.next lib t).instances.get id = some row' ∧
      Later row row' (u.advances lib t id).toNat := by
  unfold next
  cases h : u.apply lib t with
  | error e =>
    have hnot : u.advances lib t id = false := by simp [advances, h]
    exact ⟨row,hrow,hnot ▸ Later.refl row⟩
  | ok out =>
    obtain ⟨report,t'⟩ := out
    rcases apply_cases h with ⟨hdone,rfl⟩ | ⟨old,hwrites,rfl,rfl⟩
    · have hnot : u.advances lib t' id = false := not_advances_of_done h hdone
      exact ⟨row,hrow,hnot ▸ Later.refl row⟩
    · by_cases hid : id = u.instanceId
      · subst hid
        obtain rfl : old = row := Option.some.inj (hwrites.found.symm.trans hrow)
        refine ⟨u.write old,?_,hwrites.later (generation_write h)⟩
        rw [get_written,if_pos rfl]
      · have hnot : u.advances lib t id = false := advances_of_ne (Ne.symm hid)
        refine ⟨row,?_,hnot ▸ Later.refl row⟩
        rw [get_written,if_neg hid,hrow]

/-- Induction over the updates: so does every sequence of them. -/
theorem run_later (us : List InstanceUpdate) (t : InstanceTables) {id : ℕ} {row : PluginInstance}
    (hrow : t.instances.get id = some row) :
    ∃ row', (run lib t us).instances.get id = some row' ∧ Later row row' (advanced lib id t us) := by
  induction us generalizing t row with
  | nil => exact ⟨row,hrow,Later.refl row⟩
  | cons u us ih =>
    obtain ⟨mid,hmid,hfirst⟩ := next_later u hrow
    obtain ⟨row',hrow',hrest⟩ := ih _ hmid
    exact ⟨row',hrow',hfirst.trans hrest⟩

end InstanceUpdate

open InstanceUpdate

/-- What one update may do to the tables. -/
structure UpdateSound {Version : Type} (lib : InstallLib Version) (t : InstanceTables)
    (u : InstanceUpdate) : Prop where
  /-- One that is older than the row changes nothing and says so. -/
  stale : ∀ row, t.instances.get u.instanceId = some row → u.updatedAt < row.updatedAt →
    u.next lib t = t ∧ ∀ report t', u.apply lib t = .ok (report,t') → report.done = false
  /-- One that reports no change makes none. -/
  unchanged : ∀ report t', u.apply lib t = .ok (report,t') → report.done = false → t' = t
  /-- One that reports a change writes the columns it is meant to write. -/
  changed : ∀ report t', u.apply lib t = .ok (report,t') → report.done = true →
    ∃ row, t.instances.get u.instanceId = some row ∧
      t'.instances.get u.instanceId = some (u.write row) ∧ report = u.success row ∧
      t'.rollbacks = t.rollbacks ++ u.audit
  /-- The rows of the other instances and the other tables stay. -/
  others : (∀ i, i ≠ u.instanceId → (u.next lib t).instances.get i = t.instances.get i) ∧
    (u.next lib t).nextId = t.nextId ∧ (u.next lib t).connections = t.connections ∧
    (u.next lib t).layouts = t.layouts

theorem updateSound {Version : Type} (lib : InstallLib Version) (t : InstanceTables)
    (u : InstanceUpdate) : UpdateSound lib t u where
  stale := by
    intro row hrow hstale
    have hnone : ∀ old, ¬Writes t u old := by
      intro old hwrites
      obtain rfl := Option.some.inj (hwrites.found.symm.trans hrow)
      exact absurd hwrites.notNewer (Nat.not_le.mpr hstale)
    constructor
    · rcases next_cases lib t u with hsame | ⟨old,hwrites,-⟩
      · exact hsame
      · exact absurd hwrites (hnone old)
    · intro report t' happly
      rcases apply_cases happly with ⟨hdone,-⟩ | ⟨old,hwrites,-,-⟩
      · exact hdone
      · exact absurd hwrites (hnone old)
  unchanged := by
    intro report t' happly hdone
    rcases apply_cases happly with ⟨-,rfl⟩ | ⟨old,-,rfl,-⟩
    · rfl
    · rw [done_success] at hdone
      cases hdone
  changed := by
    intro report t' happly hdone
    rcases apply_cases happly with ⟨hnot,-⟩ | ⟨row,hwrites,rfl,rfl⟩
    · rw [hnot] at hdone
      cases hdone
    · refine ⟨row,hwrites.found,?_,rfl,rfl⟩
      rw [get_written,if_pos rfl]
  others := by
    rcases next_cases lib t u with hsame | ⟨row,-,hnext⟩
    · rw [hsame]
      exact ⟨fun i hi => rfl,rfl,rfl,rfl⟩
    · rw [hnext]
      refine ⟨?_,rfl,rfl,rfl⟩
      intro i hi
      rw [get_written,if_neg hi]

/-- Over every sequence of updates the timestamp and the generation of a record never go back,
and each update does to the tables what it says and no more. -/
theorem records_monotone {Version : Type} (lib : InstallLib Version) (t : InstanceTables)
    (us : List InstanceUpdate) :
    (∀ id row, t.instances.get id = some row →
      ∃ row', (run lib t us).instances.get id = some row' ∧
        Later row row' (advanced lib id t us)) ∧
    ∀ u, UpdateSound lib (run lib t us) u :=
  ⟨fun _ _ hrow => run_later us t hrow,fun u => updateSound lib _ u⟩

end Floatile.Store
