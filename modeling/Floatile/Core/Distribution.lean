import Floatile.Core.Manifest

/-! Plans for upgrades and rollbacks of an installed plugin. The type of parsed versions and its
order come from the external version library. -/
namespace Floatile.Core.Distribution

open Floatile.Lib
open Floatile.Core.Capability
open Floatile.Lib.Checked (reject)

inductive PermissionChangeKind where
  | added
  | removed
  | expanded
  | reduced
  | unchanged
  deriving DecidableEq, Repr

structure PermissionChange where
  capability : CapabilityId
  kind : PermissionChangeKind
  deriving DecidableEq, Repr

structure UpgradePlan (Version : Type) where
  currentVersion : Version
  candidateVersion : Version
  permissions : List PermissionChange
  requiresConfirmation : Bool

structure RollbackPlan (Version : Type) where
  currentVersion : Version
  targetVersion : Version
  permissions : List PermissionChange

inductive UpgradePlanError where
  | pluginMismatch
  | publisherMismatch
  | versionNotNewer
  | storageMigrationRollback
  | invalidPermission (detail : String)
  deriving DecidableEq

def UpgradePlanError.display : UpgradePlanError → String
  | .pluginMismatch => "upgrade candidate changes plugin id"
  | .publisherMismatch => "upgrade candidate changes publisher"
  | .versionNotNewer => "upgrade candidate version must be newer"
  | .storageMigrationRollback => "upgrade candidate decreases storage migration version"
  | .invalidPermission detail => s!"upgrade manifest contains invalid permission: {detail}"

inductive RollbackPlanError where
  | pluginMismatch
  | publisherMismatch
  | versionNotOlder
  | storageMigrationIncompatible
  | permissionExpansion
  | invalidPermission (detail : String)
  deriving DecidableEq

def keyScopeWithin (candidate current : List String) : Bool :=
  if current.isEmpty then true
  else !candidate.isEmpty && candidate.all current.contains

def paramsWithin (candidate current : Option CapabilityParams) : Bool :=
  match candidate, current with
  | none, none => true
  | some (.storage ck cb), some (.storage keys maxBytes) =>
    keyScopeWithin ck keys && cb ≤ maxBytes
  | some (.timer cp ca), some (.timer maxPerMinute maxActive) =>
    cp ≤ maxPerMinute && ca ≤ maxActive
  | some (.metrics cr), some (.metrics sampleRateHz) => cr ≤ sampleRateHz
  | some (.network co cr cb ct), some (.network origins maxRequests maxBytes maxTimeout) =>
    co.all origins.contains && cr ≤ maxRequests && cb ≤ maxBytes && ct ≤ maxTimeout
  | _, _ => false

def parsedPermission (permission : PermissionDecl) :
    Except UpgradePlanError (CapabilityId × Option CapabilityParams) :=
  match CapabilityId.fromName permission.capability with
  | none => .error (.invalidPermission permission.capability)
  | some c =>
    match parseCapabilityParams c permission.params with
    | .error e => .error (.invalidPermission e.display)
    | .ok params => .ok (c,params)

/-- The map from capabilities to parameters; the last entry of a capability stays. -/
def parsedPermissions (manifest : Manifest) :
    Except UpgradePlanError (List (CapabilityId × Option CapabilityParams)) := do
  let entries ← manifest.permissions.mapM parsedPermission
  .ok (SortedMap.ofList entries)

/-- The change of one capability, `none` when neither side declares it. -/
def changeKind (current candidate : Option (Option CapabilityParams)) :
    Option PermissionChangeKind :=
  match current, candidate with
  | none, some _ => some .added
  | some _, none => some .removed
  | some current, some candidate =>
    if current = candidate then some .unchanged
    else if paramsWithin candidate current then some .reduced
    else some .expanded
  | none, none => none

/-- The keys of both maps in increasing order, each once. -/
def changedCapabilities (current candidate : List (CapabilityId × Option CapabilityParams)) :
    List CapabilityId :=
  (SortedMap.ofList ((current ++ candidate).map (fun e => (e.1,())))).map Prod.fst

def permissionChanges (current candidate : Manifest) : Except String (List PermissionChange) :=
  match parsedPermissions current with
  | .error e => .error e.display
  | .ok currentPermissions =>
    match parsedPermissions candidate with
    | .error e => .error e.display
    | .ok candidatePermissions =>
      .ok ((changedCapabilities currentPermissions candidatePermissions).filterMap fun c =>
        (changeKind (SortedMap.find c currentPermissions)
          (SortedMap.find c candidatePermissions)).map (fun kind => ⟨c,kind⟩))

def PermissionChange.expands (change : PermissionChange) : Bool :=
  change.kind = .added || change.kind = .expanded

def migrationVersion (manifest : Manifest) : ℕ :=
  match manifest.storage with
  | some storage => storage.migrationVersion
  | none => 0

variable {Version : Type} [LinearOrder Version] (parseVersion : String → Except String Version)

/-- Permission and compatibility plan of an upgrade in place. -/
def planUpgrade (current candidate : Manifest) :
    Except UpgradePlanError (UpgradePlan Version) := do
  reject (current.id ≠ candidate.id) .pluginMismatch
  reject (current.publisher.id ≠ candidate.publisher.id) .publisherMismatch
  let currentVersion ← (parseVersion current.version).mapError UpgradePlanError.invalidPermission
  let candidateVersion ←
    (parseVersion candidate.version).mapError UpgradePlanError.invalidPermission
  reject (candidateVersion ≤ currentVersion) .versionNotNewer
  reject (migrationVersion candidate < migrationVersion current) .storageMigrationRollback
  let permissions ←
    (permissionChanges current candidate).mapError UpgradePlanError.invalidPermission
  .ok ⟨currentVersion,candidateVersion,permissions,permissions.any PermissionChange.expands⟩

/-- Plan of an explicit rollback, which must not restore authority. -/
def planRollback (current target : Manifest) :
    Except RollbackPlanError (RollbackPlan Version) := do
  reject (current.id ≠ target.id) .pluginMismatch
  reject (current.publisher.id ≠ target.publisher.id) .publisherMismatch
  let currentVersion ← (parseVersion current.version).mapError RollbackPlanError.invalidPermission
  let targetVersion ← (parseVersion target.version).mapError RollbackPlanError.invalidPermission
  reject (currentVersion ≤ targetVersion) .versionNotOlder
  reject (migrationVersion target ≠ migrationVersion current) .storageMigrationIncompatible
  let permissions ←
    (permissionChanges current target).mapError RollbackPlanError.invalidPermission
  reject (permissions.any PermissionChange.expands) .permissionExpansion
  .ok ⟨currentVersion,targetVersion,permissions⟩

end Floatile.Core.Distribution
