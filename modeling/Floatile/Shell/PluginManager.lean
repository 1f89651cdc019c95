import Floatile.Store.Instance

/-! The loading of installed plugins by the host. An installation is read back for the reference
that an instance pins and checked against the configuration of the instance; one that is marked
as trusted is checked against the keys that the host trusts now. -/
namespace Floatile.Shell.PluginManager

open Floatile.Core
open Floatile.Core.Signature
open Floatile.Lib
open Floatile.Store

inductive LoadError where
  | read (detail : String)
  | invalidMeta (detail : String)
  | digestMismatch (id file : String)
  | installationMismatch (id version : String)
  | missingManifest
  | missingEntrypoint (path : String)
  | invalidManifest (error : ManifestError)
  | invalidConfig (error : ConfigValidationError)
  | missingSignature
  | unknownPublisher
  | signature (error : SignatureVerificationError)
  | trustStore (error : StoreError)
  deriving DecidableEq

def mapCatalogError : InstallationCatalogError → LoadError
  | .read detail => .read detail
  | .invalidMeta detail => .invalidMeta detail
  | .digestMismatch id file => .digestMismatch id file
  | .metadataMismatch => .invalidMeta "安装元数据与 manifest 身份不一致"
  | .invalidIdentity error => .invalidMeta error.display
  | .invalidManifest error => .invalidManifest error

/-- A directory that does not match the reference is reported with what was asked for. -/
def mapReferenceError (reference : InstallationRef) : InstallationCatalogError → LoadError
  | .metadataMismatch => .installationMismatch reference.plugin.text reference.version
  | other => mapCatalogError other

structure InstalledPlugin where
  manifest : Manifest
  metadata : InstallMeta
  wasm : List UInt8
  uiBytes : List UInt8

structure RunnableInstance where
  inst : PluginInstance
  plugin : InstalledPlugin

def entrypoint (installed : InstalledInstallation) (path : String) :
    Except LoadError (List UInt8) :=
  match installed.file path with
  | none => .error (.missingEntrypoint path)
  | some bytes => .ok bytes

def installedPlugin (installed : InstalledInstallation) : Except LoadError InstalledPlugin := do
  let wasm ← entrypoint installed installed.manifest.entrypoints.logic.text
  let uiBytes ← entrypoint installed installed.manifest.entrypoints.ui.text
  .ok ⟨installed.manifest,installed.metadata,wasm,uiBytes⟩

section Loading

variable {Version : Type} (lib : InstallLib Version) (configLib : ConfigLib)

/-- The files that the metadata list, as they were read. -/
def listedFiles (installed : InstalledInstallation) : Except LoadError Files := do
  let entries ← installed.metadata.files.entries.mapM fun e =>
    match installed.file e.1 with
    | none => .error (.read s!"安装文件缺失: {e.1}")
    | some bytes => .ok (e.1,bytes)
  .ok (OrdMap.ofList entries)

/-- Only an installation that its own metadata mark as trusted is verified. -/
def verifyRuntimeTrust (trust : TrustTables) (installed : InstalledInstallation) :
    Except LoadError Unit :=
  if installed.metadata.trust = .unsigned then .ok ()
  else do
    let publisherId := installed.manifest.publisher.id
    let found ← (Store.get (publisherKeyId lib.signature) trust publisherId).mapError
      LoadError.trustStore
    let record ← match found with
      | none => .error .unknownPublisher
      | some record => .ok record
    let files ← listedFiles installed
    let envelope ← match files.get signatureFile with
      | none => .error .missingSignature
      | some envelope => .ok envelope
    (verifySignatureEnvelope lib.signature envelope files publisherId
      record.verifierBinding).mapError LoadError.signature

/-- Both loaders; they differ in the last check only. -/
def loadRunnableWith (verify : InstalledInstallation → Except LoadError Unit) (dirs : Dirs)
    (inst : PluginInstance) : Except LoadError (Option RunnableInstance) := do
  let reference := inst.installation
  match ← (loadReference lib dirs reference).mapError (mapReferenceError reference) with
  | none => .ok none
  | some installed => do
    (installed.validateConfig configLib inst.config).mapError LoadError.invalidConfig
    verify installed
    let plugin ← installedPlugin installed
    .ok (some ⟨inst,plugin⟩)

def loadRunnableInstance : Dirs → PluginInstance → Except LoadError (Option RunnableInstance) :=
  loadRunnableWith lib configLib (fun _ => .ok ())

def loadRunnableInstanceWithTrust (trust : TrustTables) :
    Dirs → PluginInstance → Except LoadError (Option RunnableInstance) :=
  loadRunnableWith lib configLib (verifyRuntimeTrust lib trust)

variable {lib configLib}

theorem entrypoint_eq_ok_iff {installed : InstalledInstallation} {path : String}
    {bytes : List UInt8} :
    entrypoint installed path = .ok bytes ↔ installed.file path = some bytes := by
  unfold entrypoint
  split <;> simp_all

theorem installedPlugin_eq_ok_iff {installed : InstalledInstallation} {plugin : InstalledPlugin} :
    installedPlugin installed = .ok plugin ↔
      plugin.manifest = installed.manifest ∧ plugin.metadata = installed.metadata ∧
      installed.file installed.manifest.entrypoints.logic.text = some plugin.wasm ∧
      installed.file installed.manifest.entrypoints.ui.text = some plugin.uiBytes := by
  simp only [installedPlugin, Checked.bind_eq_ok, entrypoint_eq_ok_iff, Except.ok.injEq]
  constructor
  · rintro ⟨wasm,hwasm,uiBytes,hui,rfl⟩
    exact ⟨rfl,rfl,hwasm,hui⟩
  · obtain ⟨manifest,metadata,wasm,uiBytes⟩ := plugin
    rintro ⟨rfl,rfl,hwasm,hui⟩
    exact ⟨wasm,hwasm,uiBytes,hui,rfl⟩

/-- What has been read, checked and verified when a loader hands out a runnable. -/
theorem loadRunnableWith_eq_ok_iff {verify : InstalledInstallation → Except LoadError Unit}
    {dirs : Dirs} {inst : PluginInstance} {runnable : RunnableInstance} :
    loadRunnableWith lib configLib verify dirs inst = .ok (some runnable) ↔
      runnable.inst = inst ∧ ∃ installed,
        loadReference lib dirs inst.installation = .ok (some installed) ∧
        installed.validateConfig configLib inst.config = .ok () ∧
        verify installed = .ok () ∧
        installedPlugin installed = .ok runnable.plugin := by
  simp only [loadRunnableWith, Checked.bind_eq_ok, Checked.mapError_eq_ok]
  constructor
  · rintro ⟨found,hfound,h⟩
    cases found with
    | none => cases h
    | some installed =>
      simp only [Checked.bind_eq_ok, Checked.mapError_eq_ok] at h
      obtain ⟨_,hconfig,_,hverify,plugin,hplugin,h⟩ := h
      obtain rfl := Option.some.inj (Except.ok.inj h)
      exact ⟨rfl,installed,hfound,hconfig,hverify,hplugin⟩
  · obtain ⟨inst,plugin⟩ := runnable
    rintro ⟨rfl,installed,hfound,hconfig,hverify,hplugin⟩
    refine ⟨some installed,hfound,?_⟩
    simp only [Checked.bind_eq_ok, Checked.mapError_eq_ok]
    exact ⟨(),hconfig,(),hverify,plugin,hplugin,rfl⟩

end Loading

end Floatile.Shell.PluginManager
