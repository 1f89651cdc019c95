import Floatile.Cli.Recovery
import Floatile.Lib.Transition

/-! The installer as its callers see it: whole calls on the plugin store and the database, the
operations between them, and their runs. -/
namespace Floatile.Cli

open Floatile.Core
open Floatile.Core.Distribution (UpgradePlan)
open Floatile.Lib Floatile.Lib.Transition
open Floatile.Lib.Checked (reject)
open Floatile.Store

/-- A path is a directory of another one. -/
def isDirOf (path name : String) : Bool := Text.startsWith name (path ++ "/")

/-- Two paths that cannot both be files of one directory. -/
def conflict (path name : String) : Bool := isDirOf path name || isDirOf name path

/-- The file is created with the directories that it needs, or overwritten. A file on the way to
it or a directory in its place is an error. -/
def createFile (dir : Files) (name : String) (bytes : List UInt8) : Option Files :=
  if dir.entries.any (fun e => conflict e.1 name) then none else some (dir.insert name bytes)

/-- The files are written in their order; `fault` is the one that cannot be written for another
reason, if there is one. The first error names its file and ends the loop. -/
def writeEntries (fault : Option ℕ) :
    List (String × List UInt8) → ℕ → Files → Except String Unit × Files
  | [], _, dir => (.ok (),dir)
  | (name,bytes) :: rest, index, dir =>
    if fault = some index then (.error name,dir)
    else
      match createFile dir name bytes with
      | none => (.error name,dir)
      | some dir => writeEntries fault rest (index + 1) dir

/-- The operations of a call that fail: the creation of the plugin's directory, a write to the
staging directory, its removal, the rename, and writes to the database. -/
structure Faults where
  storeRoot : Bool
  staging : Option ℕ
  cleanup : Bool
  rename : Bool
  prepare : Option ℕ
  finalize : Option ℕ
  abort : Option ℕ
  deriving DecidableEq

def Faults.none : Faults := ⟨false,.none,false,false,.none,.none,.none⟩

/-- The arguments of a call, with the name and the time that it takes from the system. -/
structure InstallCall where
  bytes : List UInt8
  limits : PackageLimits
  source : String
  transaction : TransactionId
  installedAt : UnixSeconds
  faults : Faults

section Calls

variable {Version : Type} [LinearOrder Version] (lib : InstallLib Version) (plib : PackageLib)

structure InstalledPackage (Version : Type) where
  dir : String
  manifest : Manifest
  metadata : InstallMeta
  upgrade : Option (UpgradePlan Version)

/-- The metadata of an installation with the given trust. -/
def ValidatedPackage.metadataFor {lib : InstallLib Version} (package : ValidatedPackage lib)
    (source : String) (installedAt : UnixSeconds) (trust : InstallationTrust) : InstallMeta :=
  { package.metadata source installedAt with trust := trust }

def ValidatedPackage.finalDir {lib : InstallLib Version} (package : ValidatedPackage lib) :
    String := installDir package.manifest.id.text package.manifest.version

/-- The staging directory is removed, unless that fails. -/
def discard (faults : Faults) (dirs : Dirs) (staging : String) : Dirs :=
  if faults.cleanup then dirs else OrdMap.erase dirs staging

/-- The files of the package and the metadata in a staging directory; after an error it is
removed. -/
def writeStaging (call : InstallCall) (package : ValidatedPackage lib) (metadata : InstallMeta)
    (dirs : Dirs) : Except (InstallError Version) Files × Dirs :=
  let staging := stagingDir call.transaction.text
  let before := (OrdMap.get dirs staging).getD OrdMap.empty
  match writeEntries call.faults.staging
      (package.files.entries ++ [("install.json",lib.encodeMeta metadata)]) 0 before with
  | (.error name,dir) =>
    (.error (.stagingWrite name),discard call.faults (OrdMap.insert dirs staging dir) staging)
  | (.ok (),dir) => (.ok dir,OrdMap.insert dirs staging dir)

/-- The staging directory becomes the final directory. -/
def renameStaging (dirs : Dirs) (staging final : String) (dir : Files) : Dirs :=
  OrdMap.insert (OrdMap.erase dirs staging) final dir

/-- Installation without a signature. -/
def installValidated (call : InstallCall) (package : ValidatedPackage lib) (dirs : Dirs) :
    Except (InstallError Version) (InstalledPackage Version) × Dirs :=
  let manifest := package.manifest
  let staging := stagingDir call.transaction.text
  if dirs.has package.finalDir then
    (.error (.alreadyInstalled manifest.id.text manifest.version),dirs)
  else if call.faults.storeRoot then (.error (.storeUnavailable package.finalDir),dirs)
  else
    let metadata := package.metadataFor call.source call.installedAt .unsigned
    match writeStaging lib call package metadata dirs with
    | (.error e,dirs) => (.error e,dirs)
    | (.ok dir,dirs) =>
      if call.faults.rename then
        (.error (.commit package.finalDir),discard call.faults dirs staging)
      else
        (.ok ⟨package.finalDir,manifest,metadata,none⟩,
          renameStaging dirs staging package.finalDir dir)

def installPackage (call : InstallCall) (dirs : Dirs) :
    Except (InstallError Version) (InstalledPackage Version) × Dirs :=
  match validatePackage plib call.limits lib call.bytes with
  | .error e => (.error (.package e),dirs)
  | .ok package => installValidated lib call package dirs

/-- The part of a trusted installation that follows its checks. -/
def commitTrusted (call : InstallCall) (package : ValidatedPackage lib)
    (upgrade : Option (UpgradePlan Version)) (disk : Disk) :
    Except (InstallError Version) (InstalledPackage Version) × Disk :=
  let manifest := package.manifest
  let transactionId := call.transaction.text
  let staging := stagingDir transactionId
  if call.faults.storeRoot then (.error (.storeUnavailable package.finalDir),disk)
  else
    let metadata := package.metadataFor call.source call.installedAt .trusted
    match writeStaging lib call package metadata disk.dirs with
    | (.error e,dirs) => (.error e,⟨dirs,disk.tables⟩)
    | (.ok dir,dirs) =>
      match lib.versions.parse manifest.version with
      | .error e => (.error (.commit s!"validated version: {e}"),⟨dirs,disk.tables⟩)
      | .ok version =>
        let pending := package.pending transactionId version call.installedAt
        match prepareInstall lib.versions (keyId lib) call.faults.prepare disk.tables pending with
        | (.error e,tables) =>
          (.error (.trustPolicy e),⟨discard call.faults dirs staging,tables⟩)
        | (.ok _,tables) =>
          if call.faults.rename then
            (.error (.commit package.finalDir),⟨discard call.faults dirs staging,
              (abortInstall call.faults.abort tables transactionId).2⟩)
          else
            let dirs := renameStaging dirs staging package.finalDir dir
            match finalizeInstall lib.versions call.faults.finalize tables transactionId
                call.installedAt.value with
            | (.error _,tables) => (.error (.recoveryRequired transactionId),⟨dirs,tables⟩)
            | (.ok _,tables) =>
              (.ok ⟨package.finalDir,manifest,metadata,upgrade⟩,⟨dirs,tables⟩)

/-- Installation of a package whose signature verifies against the trust of the host. -/
def installTrustedPackage (call : InstallCall) (acceptPermissionExpansion : Bool) (disk : Disk) :
    Except (InstallError Version) (InstalledPackage Version) × Disk :=
  match validatePackage plib call.limits lib call.bytes with
  | .error e => (.error (.package e),disk)
  | .ok package =>
    match checkInstall lib disk.dirs disk.tables package acceptPermissionExpansion with
    | .error e => (.error e,disk)
    | .ok upgrade => commitTrusted lib call package upgrade disk

/-- What is done to one plugin store and its database. -/
inductive InstallerLabel where
  | upsertKey (publisherId : String) (publicKey : Bytes32) (state : TrustState) (updatedAt : ℕ)
      (fault : Option ℕ)
  | setPublisherState (publisherId : String) (state : TrustState) (updatedAt : ℕ)
      (fault : Option ℕ)
  | installPackage (call : InstallCall)
  | installTrustedPackage (call : InstallCall) (acceptPermissionExpansion : Bool)
  | recover (now : UnixSeconds)

def Disk.empty : Disk := ⟨OrdMap.empty,TrustTables.empty⟩

def Disk.next (disk : Disk) : InstallerLabel → Disk
  | .upsertKey publisherId publicKey state updatedAt fault => { disk with
      tables := (upsertKey (keyId lib) fault disk.tables publisherId publicKey state updatedAt).2 }
  | .setPublisherState publisherId state updatedAt fault => { disk with
      tables := (setPublisherState fault disk.tables publisherId state updatedAt).2 }
  | .installPackage call => { disk with dirs := (installPackage lib plib call disk.dirs).2 }
  | .installTrustedPackage call accept => (installTrustedPackage lib plib call accept disk).2
  | .recover now => (recoverTrustedInstalls lib now disk).2

def installer : System Disk InstallerLabel :=
  System.ofFunction (fun disk => disk = Disk.empty) (Disk.next lib plib)

end Calls

end Floatile.Cli
