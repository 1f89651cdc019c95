import Floatile.Cli.Package
import Floatile.Core.Distribution

/-! Trusted installation: a package is written to a staging directory, announced in the database,
renamed to its final directory and accepted. The steps are those between which the process can
stop, and the recovery afterwards works through the announced installations. -/
namespace Floatile.Cli

open Floatile.Core
open Floatile.Core.Distribution (UpgradePlan UpgradePlanError planUpgrade)
open Floatile.Core.Signature
open Floatile.Lib
open Floatile.Lib.Checked (reject)
open Floatile.Store

inductive InstallError (Version : Type) where
  | package (error : PackageError)
  | storeUnavailable (detail : String)
  | alreadyInstalled (id version : String)
  | stagingWrite (path : String)
  | commit (detail : String)
  | missingSignature
  | unknownPublisher
  | signature (error : SignatureVerificationError)
  | trustPolicy (error : TrustPolicyError Version)
  | recoveryRequired (transactionId : String)
  | recovery (detail : String)
  | recoveryRead (error : InstallationCatalogError)
  | upgrade (error : UpgradePlanError)
  | permissionConfirmationRequired (plan : UpgradePlan Version)
  | installationCatalog (error : InstallationCatalogError)

/-- Seconds since the epoch; the system clock counts them in 63 bits. -/
structure UnixSeconds where
  value : ℕ
  bounded : value < 2^63

/-- The name of a transaction, made of the process id and the time in nanoseconds. -/
structure TransactionId where
  text : String
  valid : validateTransactionId text = .ok ()

def stagingDir (transactionId : String) : String := s!".staging-{transactionId}"

section Install

variable {Version : Type} [LinearOrder Version] (lib : InstallLib Version)

abbrev keyId : Bytes32 → String := publisherKeyId lib.signature

def trustOf (tables : TrustTables) (publisherId : String) :
    Except (InstallError Version) PublisherTrustRecord :=
  match Store.get (keyId lib) tables publisherId with
  | .error e => .error (.trustPolicy (.store e))
  | .ok none => .error .unknownPublisher
  | .ok (some record) => .ok record

def envelopeOf (files : Files) : Except (InstallError Version) (List UInt8) :=
  match files.get signatureFile with
  | none => .error .missingSignature
  | some envelope => .ok envelope

/-- The checks of `install_trusted_package` before it writes anything. -/
def checkInstall (dirs : Dirs) (tables : TrustTables) (package : ValidatedPackage lib)
    (acceptPermissionExpansion : Bool) :
    Except (InstallError Version) (Option (UpgradePlan Version)) := do
  let manifest := package.manifest
  let trust ← trustOf lib tables manifest.publisher.id
  let envelope ← envelopeOf package.files
  (verifySignatureEnvelope lib.signature envelope package.files manifest.publisher.id
    trust.verifierBinding).mapError InstallError.signature
  reject (dirs.has (installDir manifest.id.text manifest.version))
    (.alreadyInstalled manifest.id.text manifest.version)
  let highest ← (loadHighest lib dirs manifest.id.text).mapError InstallError.installationCatalog
  match highest with
  | none => .ok none
  | some current => do
    let candidateVersion ← (lib.versions.parse manifest.version).mapError
      (fun e => InstallError.commit s!"validated version: {e}")
    let currentVersion ← (lib.versions.parse current.manifest.version).mapError
      (fun e => InstallError.commit s!"installed version passed validation: {e}")
    if currentVersion < candidateVersion then do
      let plan ← (planUpgrade lib.versions.parse current.manifest manifest).mapError
        InstallError.upgrade
      reject (plan.requiresConfirmation ∧ acceptPermissionExpansion = false)
        (.permissionConfirmationRequired plan)
      .ok (some plan)
    else .ok none

/-- The metadata that `write_staging` writes. -/
def ValidatedPackage.metadata {lib : InstallLib Version} (package : ValidatedPackage lib)
    (source : String) (installedAt : UnixSeconds) : InstallMeta where
  manifestVersion := package.manifest.manifestVersion
  id := package.manifest.id.text
  version := package.manifest.version
  engineApiVersion := package.manifest.engineApiVersion
  uiApiVersion := package.manifest.uiApiVersion
  installedAt := installedAt.value
  source := source
  trust := .trusted
  files := OrdMap.ofList (package.files.entries.map
    (fun e => (e.1,hexEncode (fileDigest lib.signature.sha256 e.2).bytes)))
  digest := hexEncode (contentDigest lib.signature.sha256 package.files).bytes

def ValidatedPackage.pending {lib : InstallLib Version} (package : ValidatedPackage lib)
    (transactionId : String) (version : Version) (installedAt : UnixSeconds) :
    PendingInstallation Version where
  transactionId := transactionId
  publisherId := package.manifest.publisher.id
  pluginId := package.manifest.id.text
  version := version
  signedDigest := signableContentDigest lib.signature package.files
  installDigest := contentDigest lib.signature.sha256 package.files
  stagingName := stagingDir transactionId
  finalRelative := installDir package.manifest.id.text package.manifest.version
  createdAt := installedAt.value

/-- How far an installation has come. -/
inductive InstallPhase (Version : Type) where
  | making
  | writing (rest : List (String × List UInt8))
  | staged
  | prepared (pending : PendingInstallation Version)
  | renamed (pending : PendingInstallation Version)
  | discarding (abort : Bool)
  | aborting

structure Install where
  package : ValidatedPackage lib
  source : String
  installedAt : UnixSeconds
  phase : InstallPhase Version

/-- The plugin store, the database and the processes that are installing, by transaction. -/
structure Site where
  dirs : Dirs
  tables : TrustTables
  running : OrdMap String (Install lib)

def Site.empty : Site lib := ⟨OrdMap.empty,TrustTables.empty,OrdMap.empty⟩

namespace Site

variable {lib} (s : Site lib)

def withPhase (transactionId : String) (i : Install lib) (phase : InstallPhase Version) :
    Site lib :=
  { s with running := s.running.insert transactionId { i with phase := phase } }

def finish (transactionId : String) : Site lib :=
  { s with running := s.running.erase transactionId }

/-- The staging directory with one more file. -/
def writeFile (path name : String) (bytes : List UInt8) : Site lib :=
  let dir := (OrdMap.get s.dirs path).getD OrdMap.empty
  { s with dirs := OrdMap.insert s.dirs path (dir.insert name bytes) }

def removeDir (path : String) : Site lib := { s with dirs := OrdMap.erase s.dirs path }

/-- The checks and the creation of the plugin's directory; nothing else is written yet. -/
def start (transactionId : String) (package : ValidatedPackage lib) (source : String)
    (installedAt : UnixSeconds) (acceptPermissionExpansion : Bool) : Site lib :=
  match s.running.get transactionId with
  | some _ => s
  | none =>
    match checkInstall lib s.dirs s.tables package acceptPermissionExpansion with
    | .error _ => s
    | .ok _ => { s with
        running := s.running.insert transactionId ⟨package,source,installedAt,.making⟩ }

/-- The next step of an installation; `fault` is the write of the step that fails, if one does. -/
def advance (transactionId : String) (fault : Option ℕ) : Site lib :=
  let staging := stagingDir transactionId
  match s.running.get transactionId with
  | none => s
  | some i =>
    match i.phase with
    | .making =>
      if fault.isSome then s.withPhase transactionId i (.discarding false)
      else
        let dir := (OrdMap.get s.dirs staging).getD OrdMap.empty
        { s with dirs := OrdMap.insert s.dirs staging dir }.withPhase transactionId i
          (.writing i.package.files.entries)
    | .writing ((name,bytes) :: rest) =>
      if fault.isSome then s.withPhase transactionId i (.discarding false)
      else (s.writeFile staging name bytes).withPhase transactionId i (.writing rest)
    | .writing [] =>
      -- the file is created in the directory, which has to be there
      if fault.isSome || !s.dirs.has staging then s.withPhase transactionId i (.discarding false)
      else (s.writeFile staging "install.json" (lib.encodeMeta (i.package.metadata i.source
        i.installedAt))).withPhase transactionId i .staged
    | .staged =>
      match lib.versions.parse i.package.manifest.version with
      | .error _ => s.finish transactionId
      | .ok version =>
        let pending := i.package.pending transactionId version i.installedAt
        match prepareInstall lib.versions (keyId lib) fault s.tables pending with
        | (.error _,tables) =>
          { s with tables := tables }.withPhase transactionId i (.discarding false)
        | (.ok _,tables) =>
          { s with tables := tables }.withPhase transactionId i (.prepared pending)
    | .prepared pending =>
      match OrdMap.get s.dirs staging with
      | none => s.withPhase transactionId i (.discarding true)
      | some dir =>
        if fault.isSome || s.dirs.has pending.finalRelative then
          s.withPhase transactionId i (.discarding true)
        else
          { s.removeDir staging with
            dirs := OrdMap.insert (OrdMap.erase s.dirs staging) pending.finalRelative dir
            }.withPhase transactionId i (.renamed pending)
    | .renamed _ =>
      let (_,tables) := finalizeInstall lib.versions fault s.tables transactionId i.installedAt.value
      { s with tables := tables }.finish transactionId
    | .discarding abort =>
      let cleaned := if fault.isSome then s else s.removeDir staging
      if abort then cleaned.withPhase transactionId i .aborting else cleaned.finish transactionId
    | .aborting =>
      let (_,tables) := abortInstall fault s.tables transactionId
      { s with tables := tables }.finish transactionId

end Site

structure RecoveryReport where
  finalized : ℕ
  aborted : ℕ
  deriving DecidableEq, Repr

/-- What recovery works on. -/
structure Disk where
  dirs : Dirs
  tables : TrustTables

def installedFiles (installed : InstalledInstallation) :
    Except (InstallError Version) (List (String × List UInt8)) :=
  installed.metadata.files.entries.mapM fun e =>
    match installed.file e.1 with
    | none => .error (.recovery s!"安装文件缺失: {e.1}")
    | some bytes => .ok (e.1,bytes)

/-- The checks on a final directory before its installation is accepted. -/
def verifyFinal (disk : Disk) (pending : PendingInstallation Version) :
    Except (InstallError Version) Unit := do
  let found ← (loadExact lib disk.dirs pending.pluginId
    (lib.versions.toText pending.version)).mapError InstallError.recoveryRead
  let installed ← match found with
    | none => .error (.recovery "final installation 消失")
    | some installed => .ok installed
  let entries ← installedFiles installed
  let files : Files := OrdMap.ofList entries
  reject (contentDigest lib.signature.sha256 files ≠ pending.installDigest ∨
      signableContentDigest lib.signature files ≠ pending.signedDigest)
    (.recovery "恢复安装摘要与 journal 不一致")
  let trust ← trustOf lib disk.tables pending.publisherId
  let envelope ← envelopeOf files
  (verifySignatureEnvelope lib.signature envelope files installed.manifest.publisher.id
    trust.verifierBinding).mapError InstallError.signature

/-- One turn of the recovery loop; `true` stands for a finalized installation. -/
def recoverRow (now : UnixSeconds) (disk : Disk) (pending : PendingInstallation Version) :
    Except (InstallError Version) Bool × Disk :=
  match disk.dirs.has pending.stagingName, disk.dirs.has pending.finalRelative with
  | true, true =>
    (.error (.recovery s!"transaction {pending.transactionId} 同时存在 staging 与 final"),disk)
  | staged, false =>
    let dirs := if staged then OrdMap.erase disk.dirs pending.stagingName else disk.dirs
    match abortInstall none disk.tables pending.transactionId with
    | (.error e,tables) => (.error (.trustPolicy (.store e)),⟨dirs,tables⟩)
    | (.ok _,tables) => (.ok false,⟨dirs,tables⟩)
  | false, true =>
    match verifyFinal lib disk pending with
    | .error e => (.error e,disk)
    | .ok () =>
      match finalizeInstall lib.versions none disk.tables pending.transactionId now.value with
      | (.error e,tables) => (.error (.trustPolicy e),⟨disk.dirs,tables⟩)
      | (.ok _,tables) => (.ok true,⟨disk.dirs,tables⟩)

def RecoveryReport.count (report : RecoveryReport) (finalized : Bool) : RecoveryReport :=
  if finalized then { report with finalized := report.finalized + 1 }
  else { report with aborted := report.aborted + 1 }

/-- The recovery loop; the first error ends it. -/
def recoverRows (now : UnixSeconds) : List (PendingInstallation Version) → RecoveryReport →
    Disk → Except (InstallError Version) RecoveryReport × Disk
  | [], report, disk => (.ok report,disk)
  | pending :: rest, report, disk =>
    match recoverRow lib now disk pending with
    | (.error e,disk) => (.error e,disk)
    | (.ok finalized,disk) => recoverRows now rest (report.count finalized) disk

def recoverTrustedInstalls (now : UnixSeconds) (disk : Disk) :
    Except (InstallError Version) RecoveryReport × Disk :=
  match pendingInstalls lib.versions disk.tables with
  | .error e => (.error (.trustPolicy (.store e)),disk)
  | .ok pending => recoverRows lib now pending ⟨0,0⟩ disk

/-- What can happen to the plugin store and the database. -/
inductive SiteLabel where
  | upsertKey (publisherId : String) (publicKey : Bytes32) (state : TrustState) (updatedAt : ℕ)
      (fault : Option ℕ)
  | setPublisherState (publisherId : String) (state : TrustState) (updatedAt : ℕ)
      (fault : Option ℕ)
  | start (transactionId : TransactionId) (package : ValidatedPackage lib) (source : String)
      (installedAt : UnixSeconds) (acceptPermissionExpansion : Bool)
  | advance (transactionId : String) (fault : Option ℕ)
  | crash (transactionId : String)
  | recover (now : UnixSeconds)

variable {lib}

def Site.disk (s : Site lib) : Disk := ⟨s.dirs,s.tables⟩

def Site.next (s : Site lib) : SiteLabel lib → Site lib
  | .upsertKey publisherId publicKey state updatedAt fault => { s with
      tables := (upsertKey (keyId lib) fault s.tables publisherId publicKey state updatedAt).2 }
  | .setPublisherState publisherId state updatedAt fault => { s with
      tables := (setPublisherState fault s.tables publisherId state updatedAt).2 }
  | .start transactionId package source installedAt accept =>
    s.start transactionId.text package source installedAt accept
  | .advance transactionId fault => s.advance transactionId fault
  | .crash transactionId => s.finish transactionId
  | .recover now =>
    let disk := (recoverTrustedInstalls lib now s.disk).2
    { s with dirs := disk.dirs, tables := disk.tables }

/-- The state after a run. -/
def Site.run (labels : List (SiteLabel lib)) : Site lib :=
  labels.foldl Site.next (Site.empty lib)

end Install

end Floatile.Cli
