import Floatile.Cli.Install
import Floatile.Lib.Transition
import Floatile.Store.Instance

/-! The commands that manage instances. Every command but `create` reads the instance and checks
it, and writes in a later statement; the commands of several processes interleave between the
two. Reading the record back for the output afterwards is left out. -/
namespace Floatile.Cli

open Floatile.Core
open Floatile.Core.Distribution (RollbackPlanError planRollback)
open Floatile.Core.Signature
open Floatile.Lib
open Floatile.Lib.Checked (reject)
open Floatile.Lib.Transition
open Floatile.Store

inductive InstanceCommandError (Version : Type) where
  | invalidArguments (detail : String)
  | installationMissing (id version : String)
  | installation (error : InstallationCatalogError)
  | config (error : InstanceModelError)
  | configNotDeclared
  | configSchemaMissing
  | configSchemaInvalid
  | store (error : StoreError)
  | notFound (id : ℕ)
  | mustBeStopped (id : ℕ)
  | concurrentUpdate (id : ℕ)
  | rollback (error : RollbackPlanError)
  | trust (error : InstallError Version)

/-- The commands that work on an instance. -/
inductive InstanceCommand where
  | configure (id : ℕ) (config : InstanceConfig) (unixTs : ℕ)
  | setDesiredState (id : ℕ) (desiredState : InstanceDesiredState) (unixTs : ℕ)
  | delete (id : ℕ)
  | rollback (id : ℕ) (targetVersion reason : String) (unixTs : ℕ)

/-- What a command writes once its checks have passed. -/
inductive InstanceWrite where
  | updateConfig (id : ℕ) (config : InstanceConfig) (updatedAt : ℕ)
  | setDesiredState (id : ℕ) (desiredState : InstanceDesiredState) (updatedAt : ℕ)
  | delete (id : ℕ)
  | rollbackInstallation (id : ℕ) (current target : InstallationRef) (reason : String)
      (updatedAt : ℕ)

/-- A command between its checks and its write, with the row that the checks read. -/
structure PendingWrite where
  read : PluginInstance
  write : InstanceWrite

section Commands

variable {Version : Type} (lib : InstallLib Version) (configLib : ConfigLib) (dirs : Dirs)

def validateConfig (installed : InstalledInstallation) (config : InstanceConfig) :
    Except (InstanceCommandError Version) Unit :=
  (installed.validateConfig configLib config).mapError fun
    | .notDeclared => .configNotDeclared
    | .schemaMissing => .configSchemaMissing
    | .schemaInvalid => .configSchemaInvalid
    | .config e => .config e

def requireInstance (t : InstanceTables) (id : ℕ) :
    Except (InstanceCommandError Version) PluginInstance := do
  match ← (t.get id).mapError InstanceCommandError.store with
  | none => .error (.notFound id)
  | some row => .ok row

def requireStopped (id : ℕ) (row : PluginInstance) :
    Except (InstanceCommandError Version) Unit :=
  if row.desiredState = .stopped then .ok () else .error (.mustBeStopped id)

def requireInstalled (id version : String)
    (found : Except InstallationCatalogError (Option InstalledInstallation)) :
    Except (InstanceCommandError Version) InstalledInstallation := do
  match ← found.mapError InstanceCommandError.installation with
  | none => .error (.installationMissing id version)
  | some installed => .ok installed

/-- The installation that an instance is pinned to. -/
def pinnedInstallation (row : PluginInstance) :
    Except (InstanceCommandError Version) InstalledInstallation :=
  requireInstalled row.installation.plugin.text row.installation.version
    (loadReference lib dirs row.installation)

def createInstance (t : InstanceTables) (pluginId version : String) (config : InstanceConfig)
    (desiredState : InstanceDesiredState) (unixTs : ℕ) :
    Except (InstanceCommandError Version) (ℕ × InstanceTables) := do
  let installed ← requireInstalled pluginId version (loadExact lib dirs pluginId version)
  validateConfig configLib installed config
  let reference ← (installed.reference lib).mapError InstanceCommandError.installation
  (t.create lib reference config desiredState unixTs).mapError InstanceCommandError.store

/-- A configuration changes only while the instance is stopped. -/
def configureInstance (t : InstanceTables) (id : ℕ) (config : InstanceConfig) (unixTs : ℕ) :
    Except (InstanceCommandError Version) PendingWrite := do
  let row ← requireInstance t id
  requireStopped id row
  let installed ← pinnedInstallation lib dirs row
  validateConfig configLib installed config
  .ok ⟨row,.updateConfig id config (max unixTs row.updatedAt)⟩

def setInstanceDesiredState (t : InstanceTables) (id : ℕ) (desiredState : InstanceDesiredState)
    (unixTs : ℕ) : Except (InstanceCommandError Version) PendingWrite := do
  let row ← requireInstance t id
  .ok ⟨row,.setDesiredState id desiredState (max unixTs row.updatedAt)⟩

def deleteInstance (t : InstanceTables) (id : ℕ) :
    Except (InstanceCommandError Version) PendingWrite := do
  let row ← requireInstance t id
  requireStopped id row
  .ok ⟨row,.delete id⟩

/-- A write that changes no row has lost a race. -/
def requireChanged (t : InstanceTables) (id : ℕ) :
    Except StoreError (Bool × InstanceTables) →
      Except (InstanceCommandError Version) Unit × InstanceTables
  | .error e => (.error (.store e),t)
  | .ok (false,t) => (.error (.concurrentUpdate id),t)
  | .ok (true,t) => (.ok (),t)

/-- The row that the statement of a write selects. -/
def InstanceWrite.selected (t : InstanceTables) :
    InstanceWrite → Except StoreError (Option PluginInstance)
  | .updateConfig id _ updatedAt => t.matching id updatedAt
  | .setDesiredState id _ updatedAt => t.matching id updatedAt
  | .delete id => t.get id
  | .rollbackInstallation id current target reason updatedAt =>
    t.rollbackMatching lib id current target reason updatedAt

/-- The result of a command and the database after its write. -/
def InstanceWrite.run (t : InstanceTables) :
    InstanceWrite → Except (InstanceCommandError Version) Unit × InstanceTables
  | .updateConfig id config updatedAt => requireChanged t id (t.updateConfig id config updatedAt)
  | .setDesiredState id desiredState updatedAt =>
    requireChanged t id (t.setDesiredState id desiredState updatedAt)
  | .delete id => requireChanged t id (t.delete id)
  | .rollbackInstallation id current target reason updatedAt =>
    requireChanged t id (t.rollbackInstallation lib id current target reason updatedAt)

variable [LinearOrder Version] (trust : TrustTables)

/-- The files named by the metadata are signed by a publisher that is trusted. -/
def verifyTrustedInstallation (installed : InstalledInstallation) :
    Except (InstallError Version) Unit := do
  let publisherId := installed.manifest.publisher.id
  let record ← trustOf lib trust publisherId
  let entries ← installed.metadata.files.entries.mapM fun e =>
    match installed.file e.1 with
    | none => .error (.commit s!"installed file missing: {e.1}")
    | some bytes => .ok (e.1,bytes)
  let files : Files := OrdMap.ofList entries
  let envelope ← envelopeOf files
  (verifySignatureEnvelope lib.signature envelope files publisherId
    record.verifierBinding).mapError InstallError.signature

/-- The instance goes back to an older installation that accepts its configuration. -/
def rollbackInstance (t : InstanceTables) (id : ℕ) (targetVersion reason : String)
    (unixTs : ℕ) : Except (InstanceCommandError Version) PendingWrite := do
  reject (reason.isEmpty ∨ maxRollbackReasonBytes < Text.byteLen reason)
    (.invalidArguments "rollback 需要 1..=512 字节的 --reason")
  let row ← requireInstance t id
  requireStopped id row
  let current ← pinnedInstallation lib dirs row
  let plugin := row.installation.plugin.text
  let target ← requireInstalled plugin targetVersion (loadExact lib dirs plugin targetVersion)
  let _ ← (planRollback lib.versions.parse current.manifest target.manifest).mapError
    InstanceCommandError.rollback
  validateConfig configLib target row.config
  (verifyTrustedInstallation lib trust target).mapError InstanceCommandError.trust
  let targetRef ← (target.reference lib).mapError InstanceCommandError.installation
  .ok ⟨row,.rollbackInstallation id row.installation targetRef reason
    (max unixTs row.updatedAt)⟩

/-- What a command does before its write. -/
def InstanceCommand.check (t : InstanceTables) :
    InstanceCommand → Except (InstanceCommandError Version) PendingWrite
  | .configure id config unixTs => configureInstance lib configLib dirs t id config unixTs
  | .setDesiredState id desiredState unixTs => setInstanceDesiredState t id desiredState unixTs
  | .delete id => deleteInstance t id
  | .rollback id targetVersion reason unixTs =>
    rollbackInstance lib configLib dirs trust t id targetVersion reason unixTs

/-- The database and the commands that are about to write, by process. -/
structure InstanceSite where
  tables : InstanceTables
  running : OrdMap ℕ PendingWrite

def InstanceSite.empty : InstanceSite := ⟨InstanceTables.empty,OrdMap.empty⟩

/-- A process may be killed, or its statement may fail, before it has written. -/
inductive InstanceStep where
  | create (pluginId version : String) (config : InstanceConfig)
      (desiredState : InstanceDesiredState) (unixTs : ℕ)
  | check (process : ℕ) (command : InstanceCommand)
  | write (process : ℕ)
  | abandon (process : ℕ)

namespace InstanceSite

variable (s : InstanceSite)

def next : InstanceStep → InstanceSite
  | .create pluginId version config desiredState unixTs =>
    match createInstance lib configLib dirs s.tables pluginId version config desiredState
      unixTs with
    | .error _ => s
    | .ok (_,t) => { s with tables := t }
  | .check process command =>
    match s.running.get process with
    | some _ => s
    | none =>
      match command.check lib configLib dirs trust s.tables with
      | .error _ => s
      | .ok pending => { s with running := s.running.insert process pending }
  | .write process =>
    match s.running.get process with
    | none => s
    | some pending => ⟨(pending.write.run lib s.tables).2,s.running.erase process⟩
  | .abandon process => { s with running := s.running.erase process }

end InstanceSite

def instanceSystem : System InstanceSite InstanceStep :=
  System.ofFunction (fun s => s = InstanceSite.empty)
    (InstanceSite.next lib configLib dirs trust)

end Commands

end Floatile.Cli
