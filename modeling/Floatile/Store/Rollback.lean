import Floatile.Store.Instance
import Floatile.Store.Watermark

/-! A rollback as the transaction that it is: the update of the row and the audit row are there
together or not at all, but the update compares and writes different columns. -/
namespace Floatile.Store

open Floatile.Core
open Floatile.Lib
open Floatile.Lib.Checked (reject)

/-- The statements of a rollback. -/
inductive RollbackStatement where
  | begin
  | update
  | audit
  | commit
  deriving DecidableEq

/-- What an audit row says the instance was pinned to; it has one column for the plugin. -/
def RollbackRow.fromInstallation (row : RollbackRow) : InstallationRef :=
  ⟨⟨row.pluginId⟩,row.fromVersion,row.fromDigest⟩

def RollbackRow.toInstallation (row : RollbackRow) : InstallationRef :=
  ⟨⟨row.pluginId⟩,row.targetVersion,row.targetDigest⟩

section Transaction

variable {Version : Type} (lib : InstallLib Version) (failing : Option RollbackStatement)

/-- A statement runs, unless it is the one at which the database fails. -/
def RollbackStatement.execute (statement : RollbackStatement) : Except StoreError Unit :=
  reject (failing = some statement) (.open .io)

namespace InstanceTables

variable (t : InstanceTables) (id : ℕ) (current target : InstallationRef) (reason : String)
  (updatedAt : ℕ)

/-- What is checked before the transaction begins. -/
def rollbackArguments : Except StoreError (ℕ × ℕ) := do
  reject (reason.isEmpty ∨ maxRollbackReasonBytes < Text.byteLen reason)
    (.corrupt "rollback reason 必须为 1..=512 字节")
  (current.validate lib).mapError (fun e => StoreError.corrupt e.display)
  (target.validate lib).mapError (fun e => StoreError.corrupt e.display)
  let idSql ← sqliteI64 id "instance_id"
  let updatedAtSql ← sqliteI64 updatedAt "updated_at"
  .ok (idSql,updatedAtSql)

/-- The row that the update changes. -/
def rollbackUpdate (idSql updatedAtSql : ℕ) : Option PluginInstance :=
  (t.instances.get idSql).filter (fun row => row.installation = current ∧
    row.desiredState = .stopped ∧ row.updatedAt ≤ updatedAtSql)

def rollbackStatements : Except StoreError (Bool × InstanceTables) := do
  let (idSql,updatedAtSql) ← rollbackArguments lib id current target reason updatedAt
  RollbackStatement.begin.execute failing
  RollbackStatement.update.execute failing
  match t.rollbackUpdate current idSql updatedAtSql with
  | none =>
    RollbackStatement.commit.execute failing
    .ok (false,t)
  | some row =>
    let t := t.put idSql
      { row with installation := repinned current target, updatedAt := updatedAtSql }
    RollbackStatement.audit.execute failing
    reject (¬RollbackRow.reasonFits reason) (.open (.constraint "installation_rollbacks"))
    let rollback : RollbackRow := ⟨idSql,current.plugin.text,current.version,current.digest,
      target.version,target.digest,reason,updatedAtSql⟩
    let t := { t with rollbacks := t.rollbacks ++ [rollback] }
    RollbackStatement.commit.execute failing
    .ok (true,t)

/-- A transaction that is not committed leaves the tables as they were. -/
def rollbackTransaction : Except StoreError Bool × InstanceTables :=
  match t.rollbackStatements lib failing id current target reason updatedAt with
  | .ok (changed,t') => (.ok changed,t')
  | .error e => (.error e,t)

end InstanceTables

/-- The caller is told that the instance is pinned to the target only if it is and one audit row
says so; otherwise both tables are as before. -/
def ReboundExactly (t : InstanceTables) (id : ℕ) (current target : InstallationRef)
    (outcome : Except StoreError Bool × InstanceTables) : Prop :=
  match outcome.1 with
  | .ok true =>
    (∃ row, outcome.2.instances.get id = some row ∧ row.installation = target) ∧
    ∃ rollback : RollbackRow, outcome.2.rollbacks = t.rollbacks ++ [rollback] ∧
      rollback.instanceId = id ∧ rollback.fromInstallation = current ∧
      rollback.toInstallation = target
  | .ok false | .error _ =>
    outcome.2.instances = t.instances ∧ outcome.2.rollbacks = t.rollbacks

/-- The arguments are valid and the row of the instance is stopped, pinned to the current
installation and not newer than the rollback. -/
structure Rebinds (t : InstanceTables) (id : ℕ) (current target : InstallationRef)
    (reason : String) (updatedAt : ℕ) : Prop where
  reason_ne : reason.isEmpty = false
  reason_le : Text.byteLen reason ≤ maxRollbackReasonBytes
  reason_fits : RollbackRow.reasonFits reason
  current_valid : current.validate lib = .ok ()
  target_valid : target.validate lib = .ok ()
  id_lt : id < 2^63
  updatedAt_lt : updatedAt < 2^63
  found : ∃ row, t.instances.get id = some row ∧ row.installation = current ∧
    row.desiredState = .stopped ∧ row.updatedAt ≤ updatedAt

end Transaction

section Exactness

variable {Version : Type} {lib : InstallLib Version} {failing : Option RollbackStatement}
  {t t' : InstanceTables} {id : ℕ} {current target : InstallationRef} {reason : String}
  {updatedAt : ℕ}

theorem execute_eq_ok {statement : RollbackStatement} :
    statement.execute failing = .ok () ↔ failing ≠ some statement := by
  simp [RollbackStatement.execute, Checked.reject_eq_ok]

/-- The tables after a rollback that goes through. -/
def reboundTables (t : InstanceTables) (id : ℕ) (current target : InstallationRef)
    (reason : String) (updatedAt : ℕ) (row : PluginInstance) : InstanceTables :=
  { t.put id { row with
      installation := InstanceTables.repinned current target, updatedAt := updatedAt } with
    rollbacks := t.rollbacks ++ [⟨id,current.plugin.text,current.version,current.digest,
      target.version,target.digest,reason,updatedAt⟩] }

theorem rollbackArguments_eq_ok {args : ℕ × ℕ} :
    InstanceTables.rollbackArguments lib id current target reason updatedAt = .ok args ↔
      reason.isEmpty = false ∧ Text.byteLen reason ≤ maxRollbackReasonBytes ∧
      current.validate lib = .ok () ∧ target.validate lib = .ok () ∧
      id < 2^63 ∧ updatedAt < 2^63 ∧ args = (id,updatedAt) := by
  have hreason : ¬(reason.isEmpty = true ∨ maxRollbackReasonBytes < Text.byteLen reason) ↔
      reason.isEmpty = false ∧ Text.byteLen reason ≤ maxRollbackReasonBytes := by
    rw [not_or, not_lt, Bool.not_eq_true]
  rw [InstanceTables.rollbackArguments, Checked.check_bind_eq_ok, Checked.check_bind_eq_ok,
    Checked.check_bind_eq_ok, Checked.reject_eq_ok, Checked.mapError_eq_ok,
    Checked.mapError_eq_ok, hreason, and_assoc]
  refine and_congr_right fun _ => and_congr_right fun _ => and_congr_right fun _ =>
    and_congr_right fun _ => ?_
  simp only [Checked.bind_eq_ok, sqliteI64_eq_ok, Except.ok.injEq]
  constructor
  · rintro ⟨_,⟨hid,rfl⟩,_,⟨hat,rfl⟩,rfl⟩
    exact ⟨hid,hat,rfl⟩
  · rintro ⟨hid,hat,rfl⟩
    exact ⟨id,⟨hid,rfl⟩,updatedAt,⟨hat,rfl⟩,rfl⟩

theorem rollbackUpdate_eq_some {row : PluginInstance} :
    t.rollbackUpdate current id updatedAt = some row ↔
      t.instances.get id = some row ∧ row.installation = current ∧
        row.desiredState = .stopped ∧ row.updatedAt ≤ updatedAt := by
  rw [InstanceTables.rollbackUpdate, Option.filter_eq_some_iff, decide_eq_true_iff]

/-- The statements say that a row has changed exactly when they all run on a row that matches. -/
theorem rollbackStatements_eq_ok_true :
    t.rollbackStatements lib failing id current target reason updatedAt = .ok (true,t') ↔
      failing = none ∧ Rebinds lib t id current target reason updatedAt ∧
      ∃ row, t.instances.get id = some row ∧
        t' = reboundTables t id current target reason updatedAt row := by
  constructor
  · intro h
    simp only [InstanceTables.rollbackStatements, Checked.bind_eq_ok] at h
    obtain ⟨args,hargs,_,hbegin,_,hupdate,h⟩ := h
    obtain ⟨hne,hle,hcurrent,htarget,hid,hat,rfl⟩ := rollbackArguments_eq_ok.mp hargs
    cases hrow : t.rollbackUpdate current id updatedAt with
    | none =>
      simp only [hrow, Checked.check_bind_eq_ok] at h
      simp at h
    | some row =>
      simp only [hrow, Checked.check_bind_eq_ok, Checked.reject_eq_ok, not_not] at h
      obtain ⟨haudit,hfits,hcommit,h⟩ := h
      have hfound := rollbackUpdate_eq_some.mp hrow
      refine ⟨?_,⟨hne,hle,hfits,hcurrent,htarget,hid,hat,row,hfound⟩,row,hfound.1,?_⟩
      · rcases failing with _ | _ | _ | _ | _
        · rfl
        · exact absurd rfl (execute_eq_ok.mp hbegin)
        · exact absurd rfl (execute_eq_ok.mp hupdate)
        · exact absurd rfl (execute_eq_ok.mp haudit)
        · exact absurd rfl (execute_eq_ok.mp hcommit)
      · exact (congrArg Prod.snd (Except.ok.inj h)).symm
  · rintro ⟨rfl,h,row,hrow,rfl⟩
    obtain ⟨row',hfound⟩ := h.found
    obtain rfl := Option.some.inj (hrow.symm.trans hfound.1)
    have hargs := rollbackArguments_eq_ok.mpr ⟨h.reason_ne,h.reason_le,h.current_valid,
      h.target_valid,h.id_lt,h.updatedAt_lt,rfl⟩
    have hexecute : ∀ statement : RollbackStatement, statement.execute none = .ok () :=
      fun statement => execute_eq_ok.mpr (by simp)
    have hfits := (Checked.reject_eq_ok (¬RollbackRow.reasonFits reason)
      (StoreError.open (.constraint "installation_rollbacks")) ()).mpr (not_not.mpr h.reason_fits)
    simp only [InstanceTables.rollbackStatements, hargs, hexecute, Checked.ok_bind,
      rollbackUpdate_eq_some.mpr hfound, hfits]
    rfl

theorem rollbackStatements_eq_ok_false
    (h : t.rollbackStatements lib failing id current target reason updatedAt = .ok (false,t')) :
    t' = t := by
  simp only [InstanceTables.rollbackStatements, Checked.bind_eq_ok] at h
  obtain ⟨args,-,_,-,_,-,h⟩ := h
  cases hrow : t.rollbackUpdate current args.1 args.2 with
  | none =>
    simp only [hrow, Checked.check_bind_eq_ok] at h
    exact (congrArg Prod.snd (Except.ok.inj h.2)).symm
  | some row =>
    simp only [hrow, Checked.check_bind_eq_ok] at h
    cases h.2.2.2

/-- Without a failure of the database the statements are the operation on the tables. -/
theorem rollbackStatements_none :
    t.rollbackStatements lib none id current target reason updatedAt =
      t.rollbackInstallation lib id current target reason updatedAt := by
  have hexecute : ∀ statement : RollbackStatement, statement.execute none = .ok () :=
    fun statement => execute_eq_ok.mpr (by simp)
  have hupdate : ∀ idSql updatedAtSql, t.rollbackUpdate current idSql updatedAtSql =
      ((t.instances.get idSql).filter (fun row => row.updatedAt ≤ updatedAtSql)).filter
        (fun row => row.installation = current ∧ row.desiredState = .stopped) := by
    intro idSql updatedAtSql
    rw [InstanceTables.rollbackUpdate, Option.filter_filter]
    refine congrArg (fun p => Option.filter p _) (funext fun row => ?_)
    rw [← Bool.decide_and]
    exact decide_eq_decide.mpr (by tauto)
  unfold InstanceTables.rollbackStatements InstanceTables.rollbackInstallation
    InstanceTables.rollbackArguments InstanceTables.rollbackMatching InstanceTables.matching
  simp only [hexecute, hupdate, bind_assoc, Checked.ok_bind]
  -- the checks come in the same order; after them there is a row to change or there is none
  refine congrArg _ (funext fun _ => congrArg _ (funext fun _ => congrArg _ (funext fun _ => ?_)))
  rcases hid : sqliteI64 id "instance_id" with e | idSql
  · rfl
  obtain rfl := (sqliteI64_eq_ok.mp hid).2
  rcases hat : sqliteI64 updatedAt "updated_at" with e | updatedAtSql
  · rfl
  obtain rfl := (sqliteI64_eq_ok.mp hat).2
  simp only [Checked.ok_bind]
  generalize ((t.instances.get idSql).filter (fun row => row.updatedAt ≤ updatedAtSql)).filter
    (fun row => row.installation = current ∧ row.desiredState = .stopped) = found
  cases found with
  | none => simp [reject]
  | some row => simp only [Option.isSome_some, true_and]; rfl

/-- A rollback that goes through pins the instance to a mixture of the two installations. -/
theorem reboundExactly_rebound {row : PluginInstance} :
    ReboundExactly t id current target
        (.ok true,reboundTables t id current target reason updatedAt row) ↔
      target.plugin = current.plugin := by
  have hmixed : InstanceTables.repinned current target = target ↔
      target.plugin = current.plugin := by
    rcases current with ⟨_,_,_⟩
    rcases target with ⟨_,_,_⟩
    simp [InstanceTables.repinned, eq_comm]
  have hget : (reboundTables t id current target reason updatedAt row).instances.get id =
      some { row with
        installation := InstanceTables.repinned current target, updatedAt := updatedAt } :=
    OrdMap.get_insert_self _ _ _
  constructor
  · rintro ⟨⟨row',hrow',htarget⟩,-⟩
    obtain rfl := Option.some.inj (hget.symm.trans hrow')
    exact hmixed.mp htarget
  · intro h
    exact ⟨⟨_,hget,hmixed.mpr h⟩,_,rfl,rfl,rfl,hmixed.mpr h⟩

/-- A rollback is exact if and only if the target is an installation of the same plugin, unless
nothing is changed anyway. -/
theorem rollback_exact_iff (lib : InstallLib Version) (failing : Option RollbackStatement)
    (t : InstanceTables) (id : ℕ) (current target : InstallationRef) (reason : String)
    (updatedAt : ℕ) :
    ReboundExactly t id current target
        (t.rollbackTransaction lib failing id current target reason updatedAt) ↔
      (failing = none → Rebinds lib t id current target reason updatedAt →
        target.plugin = current.plugin) := by
  unfold InstanceTables.rollbackTransaction
  rcases h : t.rollbackStatements lib failing id current target reason updatedAt with
    e | ⟨_ | _,t'⟩
  · refine iff_of_true ⟨rfl,rfl⟩ ?_
    intro hfailing hrebinds
    obtain ⟨row,hfound⟩ := hrebinds.found
    have hok := rollbackStatements_eq_ok_true.mpr ⟨hfailing,hrebinds,row,hfound.1,rfl⟩
    cases h.symm.trans hok
  · obtain rfl := rollbackStatements_eq_ok_false h
    refine iff_of_true ⟨rfl,rfl⟩ ?_
    intro hfailing hrebinds
    obtain ⟨row,hfound⟩ := hrebinds.found
    have hok := rollbackStatements_eq_ok_true.mpr ⟨hfailing,hrebinds,row,hfound.1,rfl⟩
    cases h.symm.trans hok
  · obtain ⟨hfailing,hrebinds,row,-,rfl⟩ := rollbackStatements_eq_ok_true.mp h
    exact reboundExactly_rebound.trans ⟨fun hplugin _ _ => hplugin,fun h => h hfailing hrebinds⟩

end Exactness

def releasedClock : InstallationRef := ⟨⟨"org.example.clock"⟩,"2.0.0",zeroBytes⟩

/-- An installation of another plugin. -/
def releasedWeather : InstallationRef := ⟨⟨"org.example.weather"⟩,"1.9.0",zeroBytes⟩

/-- A rollback reads the versions only. -/
def rollbackLib : InstallLib (Fin 3) where
  signature := {
    sha256 := fun _ => zeroBytes
    parseEnvelope := fun _ => none
    base64Decode := fun _ => none
    base64Encode := fun _ => ""
    verifyingKey := fun _ => false
    verifyStrict := fun _ _ _ => false }
  versions := threeReleases
  parseManifest := fun _ => .error "expected value"
  encodeMeta := fun _ => []
  decodeMeta := fun _ => .error "expected value"

def pinnedClock : InstanceTables := { InstanceTables.empty with
  instances := OrdMap.ofList [(2,⟨releasedClock,.empty,.stopped,0,100,100⟩)]
  nextId := 3 }

/-- The caller is told of success while the clock is pinned to the version of another plugin. -/
theorem rollback_mixes_plugins :
    ¬ReboundExactly pinnedClock 2 releasedClock releasedWeather
      (pinnedClock.rollbackTransaction rollbackLib none 2 releasedClock releasedWeather
        "regression" 101) := by
  have hrebinds : Rebinds rollbackLib pinnedClock 2 releasedClock releasedWeather
      "regression" 101 :=
    { reason_ne := by decide
      reason_le := by decide
      reason_fits := by decide
      current_valid := by decide
      target_valid := by decide
      id_lt := by decide
      updatedAt_lt := by decide
      found := ⟨_,rfl,rfl,rfl,by decide⟩ }
  have hstatements := rollbackStatements_eq_ok_true.mpr ⟨rfl,hrebinds,_,rfl,rfl⟩
  rw [InstanceTables.rollbackTransaction, hstatements, reboundExactly_rebound]
  decide

end Floatile.Store
