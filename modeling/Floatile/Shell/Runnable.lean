import Floatile.Cli.RoundTrip
import Floatile.Core.SignatureOrder
import Floatile.Shell.PluginManager

/-! What a runnable instance is made of, whatever the plugin store holds: the content that the
instance pins, and, unless its own metadata call it unsigned, content that a publisher vouches
for whom the host trusts when it is loaded. -/
namespace Floatile.Shell.PluginManager

open Floatile.Cli
open Floatile.Core
open Floatile.Core.Signature
open Floatile.Lib Floatile.Lib.Transition
open Floatile.Store

section Content

variable {Version : Type} (lib : InstallLib Version) (configLib : ConfigLib)

/-- The parts of a plugin are those of one map of files, the content that the instance pins. -/
structure Pinned (inst : PluginInstance) (plugin : InstalledPlugin) (files : Files) : Prop where
  digest : contentDigest lib.signature.sha256 files = inst.installation.digest
  manifest : ∃ bytes, files.get "manifest.json" = some bytes ∧
    lib.parseManifest bytes = .ok plugin.manifest
  valid : validateManifest lib.versions.parse plugin.manifest = .ok ()
  id : plugin.manifest.id = inst.installation.plugin
  version : plugin.manifest.version = inst.installation.version
  wasm : files.get plugin.manifest.entrypoints.logic.text = some plugin.wasm
  ui : files.get plugin.manifest.entrypoints.ui.text = some plugin.uiBytes
  config : InstalledInstallation.validateConfig configLib
    ⟨plugin.manifest,plugin.metadata,files⟩ inst.config = .ok ()

/-- The publisher is active, and the detached signature of the files verifies under one of its
active keys. -/
def TrustChecked (trust : TrustTables) (publisherId : String) (files : Files) : Prop :=
  ∃ record json envelope,
    Store.get (publisherKeyId lib.signature) trust publisherId = .ok (some record) ∧
    record.state = .active ∧
    files.get signatureFile = some json ∧
    lib.signature.parseEnvelope json = some envelope ∧
    decodeCanonicalBase64 lib.signature envelope.payload =
      .ok (signableContentDigest lib.signature files).bytes ∧
    ∃ s ∈ envelope.signatures, ∃ key ∈ record.keys, key.state = .active ∧
      Verifies lib.signature (dssePae envelope.payloadType
        (signableContentDigest lib.signature files).bytes) s key.publicKey

variable {lib configLib} {dirs : Dirs} {inst : PluginInstance} {runnable : RunnableInstance}

/-- The installation that is loaded for a reference is what the reference pins. -/
theorem pinned_of_loaded {dir : Files} {installed : InstalledInstallation}
    {plugin : InstalledPlugin} (hloaded : Loaded lib dir installed)
    (hreference : installed.reference lib = .ok inst.installation)
    (hconfig : installed.validateConfig configLib inst.config = .ok ())
    (hplugin : installedPlugin installed = .ok plugin) :
    Pinned lib configLib inst plugin installed.files := by
  obtain ⟨hmanifest,hmetadata,hwasm,hui⟩ := installedPlugin_eq_ok_iff.mp hplugin
  obtain ⟨-,hid,hversion⟩ := reference_eq_ok hreference
  obtain ⟨hsameId,hsameVersion⟩ := hloaded.identity
  refine ⟨hloaded.reference_digest hreference,?_,?_,?_,?_,?_,?_,?_⟩
  · rw [hmanifest]
    exact hloaded.manifest
  · rw [hmanifest]
    exact hloaded.valid
  · rw [hmanifest]
    exact congrArg Capability.PluginId.mk (hsameId.trans hid.symm)
  · rw [hmanifest, hsameVersion, hversion]
  · rw [hmanifest]
    exact hwasm
  · rw [hmanifest]
    exact hui
  · rw [hmanifest, hmetadata]
    exact hconfig

/-- Every runnable, of either loader: it is read from the directory of the pinned version. -/
theorem exists_loaded {verify : InstalledInstallation → Except LoadError Unit}
    (h : loadRunnableWith lib configLib verify dirs inst = .ok (some runnable)) :
    runnable.inst = inst ∧ ∃ dir installed,
      dirAt dirs inst.installation.plugin.text inst.installation.version = some dir ∧
      Loaded lib dir installed ∧ verify installed = .ok () ∧
      runnable.plugin.manifest = installed.manifest ∧
      Pinned lib configLib inst runnable.plugin installed.files := by
  obtain ⟨hinst,installed,hfound,hconfig,hverify,hplugin⟩ := loadRunnableWith_eq_ok_iff.mp h
  obtain ⟨hexact,hreference⟩ := loadReference_eq_ok hfound
  obtain ⟨dir,hdir,hload⟩ := loadExact_eq_some_iff.mp hexact
  have hloaded := loadFromDir_eq_ok_iff.mp hload
  exact ⟨hinst,dir,installed,hdir,hloaded,hverify,(installedPlugin_eq_ok_iff.mp hplugin).1,
    pinned_of_loaded hloaded hreference hconfig hplugin⟩

variable (lib configLib) in
/-- Whatever the plugin store and the trust tables hold, what either loader hands out is the
content that the instance pins. -/
theorem runnable_pinned (dirs : Dirs) (trust : TrustTables) (inst : PluginInstance)
    (runnable : RunnableInstance)
    (h : loadRunnableInstance lib configLib dirs inst = .ok (some runnable) ∨
      loadRunnableInstanceWithTrust lib configLib trust dirs inst = .ok (some runnable)) :
    runnable.inst = inst ∧ ∃ files, Pinned lib configLib inst runnable.plugin files := by
  rcases h with h | h
  · obtain ⟨hinst,_,installed,-,-,-,-,hpinned⟩ := exists_loaded h
    exact ⟨hinst,installed.files,hpinned⟩
  · obtain ⟨hinst,_,installed,-,-,-,-,hpinned⟩ := exists_loaded h
    exact ⟨hinst,installed.files,hpinned⟩

/-- What the verification of an installation has found. -/
theorem trustChecked_of_verified {trust : TrustTables} {dir : Files}
    {installed : InstalledInstallation} (hloaded : Loaded lib dir installed)
    (hsigned : installed.metadata.trust ≠ .unsigned)
    (h : verifyRuntimeTrust lib trust installed = .ok ()) :
    TrustChecked lib trust installed.manifest.publisher.id installed.files := by
  obtain ⟨entries,hentries,hfiles⟩ := hloaded.collect
    (fun name => LoadError.read s!"安装文件缺失: {name}")
  have hlisted : listedFiles installed = .ok installed.files :=
    Checked.bind_eq_ok.mpr ⟨entries,hentries,congrArg Except.ok hfiles⟩
  rw [verifyRuntimeTrust, if_neg hsigned] at h
  obtain ⟨found,hfound,h⟩ := Checked.bind_eq_ok.mp h
  rw [Checked.mapError_eq_ok] at hfound
  cases found with
  | none => cases h
  | some record =>
    simp only [Checked.ok_bind, hlisted] at h
    cases hjson : installed.files.get signatureFile with
    | none => simp [hjson] at h
    | some json =>
      simp only [hjson, Checked.mapError_eq_ok] at h
      obtain ⟨hsize,envelope,hparse,hform⟩ := exists_envelope_of_verified h
      have hspecified := Specified.of_verified hsize hparse hform h
      obtain ⟨s,hs,key,hkey,hverifies⟩ := hspecified.verified
      obtain ⟨k,hk,rfl⟩ := List.mem_map.mp hkey
      obtain ⟨hk,hactive⟩ := List.mem_filter.mp hk
      refine ⟨record,json,envelope,hfound,?_,hjson,hparse,hspecified.payload,s,hs,k,hk,
        of_decide_eq_true hactive,hverifies⟩
      have hstate := hspecified.active
      cases hrecord : record.state with
      | active => rfl
      | revoked => simp [PublisherTrustRecord.verifierBinding, hrecord] at hstate

variable (lib configLib) in
/-- A runnable comes from a directory whose metadata call the installation unsigned, or its
content is signed by a publisher whom the host trusts now. -/
theorem runnable_trust_checked (dirs : Dirs) (trust : TrustTables) (inst : PluginInstance)
    (runnable : RunnableInstance)
    (h : loadRunnableInstanceWithTrust lib configLib trust dirs inst = .ok (some runnable)) :
    ∃ dir bytes metadata,
      dirAt dirs inst.installation.plugin.text inst.installation.version = some dir ∧
      dir.get "install.json" = some bytes ∧ lib.decodeMeta bytes = .ok metadata ∧
      (metadata.trust = .unsigned ∨ ∃ files, Pinned lib configLib inst runnable.plugin files ∧
        TrustChecked lib trust runnable.plugin.manifest.publisher.id files) := by
  obtain ⟨-,dir,installed,hdir,hloaded,hverify,hmanifest,hpinned⟩ := exists_loaded h
  obtain ⟨bytes,hbytes,hmetadata⟩ := hloaded.metadata
  refine ⟨dir,bytes,installed.metadata,hdir,hbytes,hmetadata,?_⟩
  by_cases hsigned : installed.metadata.trust = .unsigned
  · exact Or.inl hsigned
  · refine Or.inr ⟨installed.files,hpinned,?_⟩
    rw [hmanifest]
    exact trustChecked_of_verified hloaded hsigned hverify

end Content

/-- The external functions on the bytes of the fork, installed with either trust. -/
def eitherTrustLib : InstallLib (Fin 3) :=
  releaseLib [fork] (sharedDigests ++ fork.digests)
    [fork.metadata 20 .trusted,fork.metadata 20 .unsigned]

def eitherTrustNext (disk : Disk) (label : InstallerLabel) : Disk :=
  disk.next eitherTrustLib forkPackageLib label

/-- The publisher of the fork is trusted. -/
def publisherDisk : Disk :=
  eitherTrustNext Disk.empty (.upsertKey "net.example" forkKey .active 10 none)

def signedDisk : Disk :=
  eitherTrustNext publisherDisk (.installTrustedPackage (callOf fork.files) false)

def forkPath : String := "org.example.clock/2.0.0"

/-- The metadata of the fork say that it is unsigned; its other files stay as they are. -/
def relabelledDirs : Dirs :=
  OrdMap.insert signedDisk.dirs forkPath <|
    OrdMap.insert ((OrdMap.get signedDisk.dirs forkPath).getD OrdMap.empty) "install.json"
      (metaJson (fork.metadata 20 .unsigned))

/-- The publisher is trusted no longer. -/
def revokedTables : TrustTables :=
  (eitherTrustNext signedDisk (.setPublisherState "net.example" .revoked 30 none)).tables

def forkReference : InstallationRef :=
  ⟨⟨"org.example.clock"⟩,"2.0.0",digestOfHex fork.contentDigest⟩

def forkInstance : PluginInstance := ⟨forkReference,.empty,.running,1,20,20⟩

def loadFork (trust : TrustTables) (dirs : Dirs) : Option RunnableInstance :=
  (loadRunnableInstanceWithTrust eitherTrustLib plainConfigs trust dirs
    forkInstance).toOption.join

/-- The fork is installed and loaded, and loaded after the change. -/
theorem fork_evaluated :
    (installTrustedPackage eitherTrustLib forkPackageLib (callOf fork.files) false
      publisherDisk).1.toOption.map (fun installed => (installed.dir,installed.metadata.id,
        installed.metadata.version,installed.metadata.digest)) =
          some (forkPath,"org.example.clock","2.0.0",fork.contentDigest) ∧
    (loadFork signedDisk.tables signedDisk.dirs).isSome = true ∧
    (loadFork revokedTables relabelledDirs).map
      (fun runnable => runnable.plugin.manifest.publisher.id) = some "net.example" ∧
    (Store.get (publisherKeyId eitherTrustLib.signature) revokedTables
      "net.example").toOption.join.map PublisherTrustRecord.state = some .revoked := by
  decide +kernel

theorem forkDisk_loads : ∃ runnable,
    loadRunnableInstanceWithTrust eitherTrustLib plainConfigs signedDisk.tables signedDisk.dirs
      forkInstance = .ok (some runnable) := by
  obtain ⟨-,hloads,-⟩ := fork_evaluated
  obtain ⟨runnable,hrunnable⟩ := Option.isSome_iff_exists.mp hloads
  exact ⟨runnable,Checked.toOption_eq_some.mp (Option.join_eq_some_iff.mp hrunnable)⟩

theorem fork_pinned : ∃ runnable : RunnableInstance, runnable.inst = forkInstance ∧
    ∃ files, Pinned eitherTrustLib plainConfigs forkInstance runnable.plugin files := by
  obtain ⟨runnable,hload⟩ := forkDisk_loads
  exact ⟨runnable,runnable_pinned eitherTrustLib plainConfigs signedDisk.dirs signedDisk.tables
    forkInstance runnable (Or.inr hload)⟩

theorem fork_trust_checked : ∃ (runnable : RunnableInstance) (dir : Files) (bytes : List UInt8)
    (metadata : InstallMeta),
    dirAt signedDisk.dirs "org.example.clock" "2.0.0" = some dir ∧
    dir.get "install.json" = some bytes ∧ eitherTrustLib.decodeMeta bytes = .ok metadata ∧
    (metadata.trust = .unsigned ∨ ∃ files,
      Pinned eitherTrustLib plainConfigs forkInstance runnable.plugin files ∧
      TrustChecked eitherTrustLib signedDisk.tables runnable.plugin.manifest.publisher.id
        files) := by
  obtain ⟨runnable,hload⟩ := forkDisk_loads
  exact ⟨runnable,runnable_trust_checked eitherTrustLib plainConfigs signedDisk.dirs
    signedDisk.tables forkInstance runnable hload⟩

theorem publisherDisk_reachable :
    (installer eitherTrustLib forkPackageLib).Reachable publisherDisk := by
  have hempty : (installer eitherTrustLib forkPackageLib).Reachable Disk.empty :=
    System.ReachableWhen.of_init rfl
  exact System.reachable_foldl hempty [.upsertKey "net.example" forkKey .active 10 none]

theorem signedDisk_eq : signedDisk = (installTrustedPackage eitherTrustLib forkPackageLib
    (callOf fork.files) false publisherDisk).2 := by
  rw [signedDisk, eitherTrustNext, Disk.next]

theorem get_relabelledDirs {path : String} (h : path ≠ forkPath) :
    OrdMap.get relabelledDirs path = OrdMap.get signedDisk.dirs path := by
  rw [relabelledDirs]
  exact OrdMap.get_insert_of_ne _ h _

/-- After every trusted installation, an instance that pins it is loaded only with content that
its publisher vouches for at that time, whatever becomes of its directory and of the tables. -/
def StaysTrustChecked {Version : Type} [LinearOrder Version] (lib : InstallLib Version)
    (configLib : ConfigLib) (plib : PackageLib) : Prop :=
  ∀ disk call accept installed, (installer lib plib).Reachable disk →
    (installTrustedPackage lib plib call accept disk).1 = .ok installed →
    ∀ dirs trust inst runnable,
      (∀ path, path ≠ installed.dir → OrdMap.get dirs path =
        OrdMap.get (installTrustedPackage lib plib call accept disk).2.dirs path) →
      InstallationRef.fromInstallMeta lib installed.metadata = .ok inst.installation →
      loadRunnableInstanceWithTrust lib configLib trust dirs inst = .ok (some runnable) →
      ∃ files, TrustChecked lib trust runnable.plugin.manifest.publisher.id files

theorem relabelled_fork_runs : ¬StaysTrustChecked eitherTrustLib plainConfigs forkPackageLib := by
  intro h
  obtain ⟨hinstalled,-,hloads,hrevoked⟩ := fork_evaluated
  obtain ⟨installed,hok,hmeta⟩ := Option.map_eq_some_iff.mp hinstalled
  simp only [Prod.mk.injEq] at hmeta
  obtain ⟨hdir,hid,hversion,hdigest⟩ := hmeta
  obtain ⟨runnable,hrunnable,hpublisher⟩ := Option.map_eq_some_iff.mp hloads
  have hload := Checked.toOption_eq_some.mp (Option.join_eq_some_iff.mp hrunnable)
  have hreference : InstallationRef.fromInstallMeta eitherTrustLib installed.metadata =
      .ok forkInstance.installation := by
    simp only [InstallationRef.fromInstallMeta, hid, hversion, hdigest]
    decide +kernel
  have helsewhere : ∀ path, path ≠ installed.dir → OrdMap.get relabelledDirs path =
      OrdMap.get (installTrustedPackage eitherTrustLib forkPackageLib (callOf fork.files) false
        publisherDisk).2.dirs path := by
    intro path hpath
    rw [hdir] at hpath
    rw [get_relabelledDirs hpath, signedDisk_eq]
  obtain ⟨files,record,-,-,hrecord,hactive,-⟩ := h publisherDisk (callOf fork.files) false
    installed publisherDisk_reachable (Checked.toOption_eq_some.mp hok) relabelledDirs
    revokedTables forkInstance runnable helsewhere hreference hload
  rw [hpublisher] at hrecord
  rw [hrecord] at hrevoked
  have hstate : record.state = .revoked := Option.some.inj hrevoked
  rw [hactive] at hstate
  cases hstate

end Floatile.Shell.PluginManager
