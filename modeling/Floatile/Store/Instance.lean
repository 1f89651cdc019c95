import Floatile.Core.Distribution
import Floatile.Store.Connection
import Floatile.Store.Installation

/-! The table of instances, and the contract that the configuration of an instance has to meet:
the schema in the installation the instance is pinned to. -/
namespace Floatile.Store

open Floatile.Core
open Floatile.Lib
open Floatile.Lib.Checked (reject)

/-- A row of the table of instances; its key is the id of the instance. -/
structure PluginInstance where
  installation : InstallationRef
  config : InstanceConfig
  desiredState : InstanceDesiredState
  generation : ℕ
  createdAt : ℕ
  updatedAt : ℕ

structure RollbackRow where
  instanceId : ℕ
  pluginId : String
  fromVersion : String
  fromDigest : Bytes32
  targetVersion : String
  targetDigest : Bytes32
  reason : String
  rolledBackAt : ℕ
  deriving DecidableEq

/-- The tables that the operations on instances touch; `layouts` lists the instances that have a
stored layout. -/
structure InstanceTables where
  instances : OrdMap ℕ PluginInstance
  nextId : ℕ
  rollbacks : List RollbackRow
  connections : ConnectionTables
  layouts : List ℕ

/-- The first instance id is taken by the built-in clock. -/
def InstanceTables.empty : InstanceTables := ⟨OrdMap.empty,2,[],ConnectionTables.empty,[]⟩

inductive ConfigValidationError where
  | notDeclared
  | schemaMissing
  | schemaInvalid
  | config (error : InstanceModelError)
  deriving DecidableEq

/-- The configuration conforms to the schema file of the installation, if it has one. -/
def InstalledInstallation.validateConfig (configLib : ConfigLib)
    (installed : InstalledInstallation) (config : InstanceConfig) :
    Except ConfigValidationError Unit :=
  match installed.manifest.config with
  | none => if config.fields.isEmpty then .ok () else .error .notDeclared
  | some configRef =>
    match installed.file configRef.schema.text with
    | none => .error .schemaMissing
    | some bytes =>
      match configLib.fromSlice bytes with
      | none => .error .schemaInvalid
      | some schema => (config.validateSchema configLib schema).mapError .config

def maxRollbackReasonBytes : ℕ := 512

/-- The length of a text as SQLite counts it: the characters before the first NUL. -/
def sqliteLength (text : String) : ℕ := (text.toList.takeWhile (fun c => c ≠ '\x00')).length

/-- The check on the reasons in the table. -/
def RollbackRow.reasonFits (reason : String) : Prop :=
  1 ≤ sqliteLength reason ∧ sqliteLength reason ≤ 512

instance (reason : String) : Decidable (RollbackRow.reasonFits reason) :=
  inferInstanceAs (Decidable (_ ∧ _))

section Operations

variable {Version : Type} (lib : InstallLib Version)

def InstallationRef.validate (reference : InstallationRef) : Except InstanceModelError Unit := do
  (Core.validatePluginId reference.plugin.text).mapError
    (fun _ => InstanceModelError.invalidPluginId reference.plugin.text)
  let _ ← (lib.versions.parse reference.version).mapError
    (fun _ => InstanceModelError.invalidVersion reference.version)
  .ok ()

def InstalledInstallation.reference (installed : InstalledInstallation) :
    Except InstallationCatalogError InstallationRef :=
  (InstallationRef.fromInstallMeta lib installed.metadata).mapError .invalidIdentity

/-- The installation that a reference names, and no other version or content. -/
def loadReference (dirs : Dirs) (reference : InstallationRef) :
    Except InstallationCatalogError (Option InstalledInstallation) := do
  match ← loadExact lib dirs reference.plugin.text reference.version with
  | none => .ok none
  | some installed => do
    let found ← installed.reference lib
    reject (found ≠ reference) .metadataMismatch
    .ok (some installed)

namespace InstanceTables

variable (t : InstanceTables)

/-- A new instance under an id that is never used again. -/
def create (installation : InstallationRef) (config : InstanceConfig)
    (desiredState : InstanceDesiredState) (createdAt : ℕ) :
    Except StoreError (ℕ × InstanceTables) := do
  (installation.validate lib).mapError (fun e => StoreError.corrupt e.display)
  let createdAt ← sqliteI64 createdAt "created_at"
  let id ← allocateId t.nextId
  reject (t.instances.get id).isSome (.open (.constraint "plugin_instances"))
  .ok (id,{ t with
    nextId := t.nextId + 1
    instances := t.instances.insert id
      ⟨installation,config,desiredState,0,createdAt,createdAt⟩ })

def get (id : ℕ) : Except StoreError (Option PluginInstance) := do
  let id ← sqliteI64 id "instance_id"
  .ok (t.instances.get id)

/-- The row that an update with this timestamp changes. -/
def matching (id updatedAt : ℕ) : Except StoreError (Option PluginInstance) := do
  let id ← sqliteI64 id "instance_id"
  let updatedAt ← sqliteI64 updatedAt "updated_at"
  .ok ((t.instances.get id).filter (fun row => row.updatedAt ≤ updatedAt))

/-- The record replaces the row of the instance. -/
def put (id : ℕ) (row : PluginInstance) : InstanceTables :=
  { t with instances := t.instances.insert id row }

def updateConfig (id : ℕ) (config : InstanceConfig) (updatedAt : ℕ) :
    Except StoreError (Bool × InstanceTables) := do
  match ← t.matching id updatedAt with
  | none => .ok (false,t)
  | some row => .ok (true,t.put id { row with config := config, updatedAt := updatedAt })

def setDesiredState (id : ℕ) (desiredState : InstanceDesiredState) (updatedAt : ℕ) :
    Except StoreError (Bool × InstanceTables) := do
  match ← t.matching id updatedAt with
  | none => .ok (false,t)
  | some row =>
    .ok (true,t.put id { row with desiredState := desiredState, updatedAt := updatedAt })

/-- The row that a rollback changes: it is stopped and pinned to the current installation. The
table of rollbacks checks the reason once more. -/
def rollbackMatching (id : ℕ) (current target : InstallationRef) (reason : String)
    (updatedAt : ℕ) : Except StoreError (Option PluginInstance) := do
  reject (reason.isEmpty ∨ maxRollbackReasonBytes < Text.byteLen reason)
    (.corrupt "rollback reason 必须为 1..=512 字节")
  (current.validate lib).mapError (fun e => StoreError.corrupt e.display)
  (target.validate lib).mapError (fun e => StoreError.corrupt e.display)
  let row ← t.matching id updatedAt
  let row := row.filter (fun row => row.installation = current ∧ row.desiredState = .stopped)
  reject (row.isSome ∧ ¬RollbackRow.reasonFits reason)
    (.open (.constraint "installation_rollbacks"))
  .ok row

/-- A reference to another version of the same plugin. -/
def repinned (current target : InstallationRef) : InstallationRef :=
  { current with version := target.version, digest := target.digest }

def rollbackInstallation (id : ℕ) (current target : InstallationRef) (reason : String)
    (updatedAt : ℕ) : Except StoreError (Bool × InstanceTables) := do
  match ← t.rollbackMatching lib id current target reason updatedAt with
  | none => .ok (false,t)
  | some row =>
    let rollback : RollbackRow := ⟨id,current.plugin.text,current.version,current.digest,
      target.version,target.digest,reason,updatedAt⟩
    let row := { row with installation := repinned current target, updatedAt := updatedAt }
    .ok (true,{ t.put id row with rollbacks := t.rollbacks ++ [rollback] })

/-- The generation goes up by one when an instance is started, and the new one is returned. -/
def advanceGeneration (id updatedAt : ℕ) : Except StoreError (Option ℕ × InstanceTables) := do
  let row ← t.matching id updatedAt
  match row.filter (fun row => row.generation < 2^63 - 1) with
  | none => .ok (none,t)
  | some row => .ok (some (row.generation + 1),
      t.put id { row with generation := row.generation + 1, updatedAt := updatedAt })

/-- Grants go first; the layout goes with the row. -/
def delete (id : ℕ) : Except StoreError (Bool × InstanceTables) := do
  let id ← sqliteI64 id "instance_id"
  let t := { t with connections := t.connections.revokeInstance id }
  if (t.instances.get id).isSome then
    .ok (true,{ t with
      instances := t.instances.erase id
      layouts := t.layouts.filter (fun layout => layout ≠ id) })
  else .ok (false,t)

end InstanceTables

end Operations

section References

variable {Version : Type} {lib : InstallLib Version} {dirs : Dirs}
  {reference : InstallationRef} {installed : InstalledInstallation}

/-- The reference of an installation says what its metadata say. -/
theorem reference_eq_ok (h : installed.reference lib = .ok reference) :
    (hexDecode installed.metadata.digest).bind Bytes32.ofList = some reference.digest ∧
    reference.plugin.text = installed.metadata.id ∧
    reference.version = installed.metadata.version := by
  simp only [InstalledInstallation.reference, Checked.mapError_eq_ok,
    InstallationRef.fromInstallMeta] at h
  cases hdigest : (hexDecode installed.metadata.digest).bind Bytes32.ofList with
  | none => simp [hdigest] at h
  | some digest =>
    simp only [hdigest, Checked.ok_bind, Checked.bind_eq_ok] at h
    obtain ⟨_,-,_,-,h⟩ := h
    obtain rfl := Except.ok.inj h
    exact ⟨rfl,rfl,rfl⟩

theorem loadReference_eq_ok
    (h : loadReference lib dirs reference = .ok (some installed)) :
    loadExact lib dirs reference.plugin.text reference.version = .ok (some installed) ∧
      installed.reference lib = .ok reference := by
  unfold loadReference at h
  rcases hload : loadExact lib dirs reference.plugin.text reference.version with e | _ | i
  · simp [hload] at h
  · simp [hload] at h
  · simp only [hload, Checked.ok_bind, Checked.bind_eq_ok, Checked.reject_eq_ok] at h
    obtain ⟨found,hfound,_,hsame,h⟩ := h
    obtain rfl := Option.some.inj (Except.ok.inj h)
    exact ⟨rfl,not_not.mp hsame ▸ hfound⟩

/-- The digest that a reference pins is that of the files. -/
theorem Loaded.reference_digest {dir : Files} (h : Loaded lib dir installed)
    (hreference : installed.reference lib = .ok reference) :
    contentDigest lib.signature.sha256 installed.files = reference.digest := by
  have hdigest := (reference_eq_ok hreference).1
  rw [← h.digest, hexDecode_hexEncode, Option.bind_some, Bytes32.ofList,
    dif_pos (contentDigest lib.signature.sha256 installed.files).length_eq] at hdigest
  exact Option.some.inj hdigest

end References

end Floatile.Store
