import Floatile.Core.Instance
import Floatile.Core.Signature
import Floatile.Lib.FilePath
import Floatile.Store.Trust
import Mathlib.Data.List.Dedup
import Mathlib.Data.List.ReduceOption

/-! Installed plugins on disk: directories by their path below the plugin store, read back and
checked against the metadata they hold. -/
namespace Floatile.Store

open Floatile.Core
open Floatile.Core.Capability (PluginId)
open Floatile.Lib
open Floatile.Lib.Checked (reject)

/-- The external functions behind an installation: signatures, versions and JSON. -/
structure InstallLib (Version : Type) where
  signature : Signature.SignatureLib
  versions : VersionLib Version
  parseManifest : List UInt8 → Except String Manifest
  encodeMeta : InstallMeta → List UInt8
  decodeMeta : List UInt8 → Except String InstallMeta

/-- The directories below the plugin store, by relative path. One outside is under its path from
the root of the plugin store or, if that is absolute, of the file system. -/
abbrev Dirs := OrdMap String Files

def Dirs.has (dirs : Dirs) (path : String) : Bool := (OrdMap.get dirs path).isSome

def installDir (id version : String) : String := s!"{id}/{version}"

namespace Dirs

variable (dirs : Dirs) (place : FilePath)

/-- The path of a directory as a key. -/
def key : String := (if place.root then "/" else "") ++ "/".intercalate place.names

/-- What the keys of the directories in a directory begin with. -/
def stem : String := if place.names.isEmpty then key place else key place ++ "/"

/-- The directory is there, if only because there are others in it. -/
def isDir : Bool :=
  place.names.isEmpty ||
    dirs.entries.any (fun e => e.1 = key place || Text.startsWith e.1 (stem place))

/-- One step on the way to a directory. `..` leads back from a directory that is there; those above
the plugin store are. -/
def enter (name : String) : Option FilePath :=
  if name ≠ ".." then some { place with names := place.names ++ [name] }
  else if place.names.getLast?.all (fun last => last = "..") then
    some (if place.root then place else { place with names := place.names ++ [name] })
  else if dirs.isDir place then some { place with names := place.names.dropLast }
  else none

/-- The directory that a path leads to. -/
def resolve (path : FilePath) : Option FilePath :=
  path.names.foldlM dirs.enter { path with names := [] }

/-- The files of a directory that is there. -/
def filesAt : Option Files :=
  match OrdMap.get dirs (key place) with
  | some dir => some dir
  | none => if dirs.isDir place then some OrdMap.empty else none

end Dirs

/-- The directory that joining an id and a version to the root of the plugin store leads to. Their
text may be a path of the store as it is; an id or a version with separators is followed. -/
def dirAt (dirs : Dirs) (id version : String) : Option Files :=
  match OrdMap.get dirs (installDir id version) with
  | some dir => some dir
  | none =>
    (dirs.resolve ((FilePath.posix id).join (FilePath.posix version))).bind dirs.filesAt

inductive InstallationCatalogError where
  | read (detail : String)
  | invalidMeta (detail : String)
  | digestMismatch (id file : String)
  | metadataMismatch
  | invalidIdentity (error : InstanceModelError)
  | invalidManifest (error : ManifestError)
  deriving DecidableEq

structure InstalledInstallation where
  manifest : Manifest
  metadata : InstallMeta
  files : Files

def InstalledInstallation.file (installed : InstalledInstallation) (path : String) :
    Option (List UInt8) := installed.files.get path

structure InstallationRef where
  plugin : PluginId
  version : String
  digest : Bytes32
  deriving DecidableEq

def PublisherTrustRecord.verifierBinding (record : PublisherTrustRecord) :
    Signature.TrustedPublisher where
  publisherId := record.publisherId
  state := match record.state with
    | .active => .active
    | .revoked => .revoked
  keys := (record.keys.filter (fun k => k.state = .active)).map PublisherKeyRecord.publicKey
  revokedKeyIds := (record.keys.filter (fun k => k.state = .revoked)).map PublisherKeyRecord.keyId

section Catalog

variable {Version : Type} [LinearOrder Version] (lib : InstallLib Version)

def InstallationRef.fromInstallMeta (metadata : InstallMeta) :
    Except InstanceModelError InstallationRef := do
  let digest ← match (hexDecode metadata.digest).bind Bytes32.ofList with
    | some digest => .ok digest
    | none => .error .invalidDigest
  (Core.validatePluginId metadata.id).mapError
    (fun _ => InstanceModelError.invalidPluginId metadata.id)
  let _ ← (lib.versions.parse metadata.version).mapError
    (fun _ => InstanceModelError.invalidVersion metadata.version)
  .ok ⟨⟨metadata.id⟩,metadata.version,digest⟩

/-- One file of the metadata, read and compared with its digest. -/
def readFile (dir : Files) (id : String) (entry : String × String) :
    Except InstallationCatalogError (String × List UInt8) :=
  match dir.get entry.1 with
  | none => .error (.read s!"{entry.1}: not found")
  | some bytes =>
    if hexEncode (fileDigest lib.signature.sha256 bytes).bytes ≠ entry.2 then
      .error (.digestMismatch id entry.1)
    else .ok (entry.1,bytes)

def loadFromDir (dir : Files) : Except InstallationCatalogError InstalledInstallation := do
  let metaBytes ← match dir.get "install.json" with
    | none => .error (.invalidMeta "not found")
    | some bytes => .ok bytes
  let metadata ← (lib.decodeMeta metaBytes).mapError InstallationCatalogError.invalidMeta
  let entries ← metadata.files.entries.mapM (readFile lib dir metadata.id)
  let files : Files := OrdMap.ofList entries
  reject (hexEncode (contentDigest lib.signature.sha256 files).bytes ≠ metadata.digest)
    (.digestMismatch metadata.id "<aggregate>")
  let manifestBytes ← match files.get "manifest.json" with
    | none => .error (.invalidMeta "manifest.json 缺失")
    | some bytes => .ok bytes
  let manifest ← (lib.parseManifest manifestBytes).mapError InstallationCatalogError.invalidMeta
  (validateManifest lib.versions.parse manifest).mapError InstallationCatalogError.invalidManifest
  reject (manifest.id.text ≠ metadata.id ∨ manifest.version ≠ metadata.version) .metadataMismatch
  let _ ← (InstallationRef.fromInstallMeta lib metadata).mapError
    InstallationCatalogError.invalidIdentity
  .ok ⟨manifest,metadata,files⟩

def loadExact (dirs : Dirs) (id version : String) :
    Except InstallationCatalogError (Option InstalledInstallation) :=
  match dirAt dirs id version with
  | none => .ok none
  | some dir => do
    let installed ← loadFromDir lib dir
    .ok (some installed)

/-- The directories in that of a plugin, by name. -/
def subdirs (dirs : Dirs) (id : String) : List (String × Files) :=
  match dirs.resolve (FilePath.posix id) with
  | none => []
  | some place => dirs.entries.filterMap fun e =>
    (Text.stripPrefix e.1 (Dirs.stem place)).map (fun name => (name,e.2))

/-- The version directories of a plugin; other names are skipped. -/
def versionDirs (dirs : Dirs) (id : String) : List (Version × Files) :=
  (subdirs dirs id).filterMap fun e => (lib.versions.parse e.1).toOption.map (fun v => (v,e.2))

/-- The first of the highest versions. -/
def highestOf : List (Version × Files) → Option (Version × Files)
  | [] => none
  | e :: rest => some (rest.foldl (fun best e => if best.1 < e.1 then e else best) e)

def loadHighest (dirs : Dirs) (id : String) :
    Except InstallationCatalogError (Option InstalledInstallation) :=
  match highestOf (versionDirs lib dirs id) with
  | none => .ok none
  | some (_,dir) => do
    let installed ← loadFromDir lib dir
    .ok (some installed)

def isValidPluginIdDir (name : String) : Bool :=
  !name.isEmpty &&
    name.toList.all (fun c => Text.isAsciiLowercase c || Text.isAsciiDigit c || c == '.' ||
      c == '-') &&
    name.toList.contains '.' && !Text.startsWith name "." && !Text.endsWith name "."

/-- The names of the directories that may be those of a plugin: the first parts of the paths. One
that holds no directory is left out; it has no version. -/
def pluginDirs (dirs : Dirs) : List String :=
  (dirs.entries.map
    (fun e => String.ofList (e.1.toList.takeWhile (fun c => c ≠ '/')))).dedup.filter
      isValidPluginIdDir

/-- The highest version of every plugin, by the ids in the metadata. -/
def listHighest (dirs : Dirs) :
    Except InstallationCatalogError (List InstalledInstallation) := do
  let installations ← (pluginDirs dirs).mapM (loadHighest lib dirs)
  .ok (installations.reduceOption.mergeSort (fun a b => a.metadata.id ≤ b.metadata.id))

end Catalog

section Loaded

variable {Version : Type} (lib : InstallLib Version)

/-- What a directory holds whose files were read back: its metadata, the files that they list with
their digests, and a valid manifest of the same identity. -/
structure Loaded (dir : Files) (installed : InstalledInstallation) : Prop where
  metadata : ∃ bytes, dir.get "install.json" = some bytes ∧
    lib.decodeMeta bytes = .ok installed.metadata
  files : ∃ entries, installed.metadata.files.entries.mapM
    (readFile lib dir installed.metadata.id) = .ok entries ∧
      installed.files = OrdMap.ofList entries
  digest : hexEncode (contentDigest lib.signature.sha256 installed.files).bytes =
    installed.metadata.digest
  manifest : ∃ bytes, installed.files.get "manifest.json" = some bytes ∧
    lib.parseManifest bytes = .ok installed.manifest
  valid : validateManifest lib.versions.parse installed.manifest = .ok ()
  identity : installed.manifest.id.text = installed.metadata.id ∧
    installed.manifest.version = installed.metadata.version
  reference : ∃ reference, InstallationRef.fromInstallMeta lib installed.metadata = .ok reference

variable {lib}

theorem loadFromDir_eq_ok_iff {dir : Files} {installed : InstalledInstallation} :
    loadFromDir lib dir = .ok installed ↔ Loaded lib dir installed := by
  constructor
  · intro h
    cases hmeta : dir.get "install.json" with
    | none => simp [loadFromDir, hmeta] at h
    | some metaBytes =>
      simp only [loadFromDir, hmeta, Checked.ok_bind, Checked.bind_eq_ok, Checked.mapError_eq_ok,
        Checked.reject_eq_ok, not_not] at h
      obtain ⟨metadata,hdecode,entries,hentries,_,hdigest,h⟩ := h
      cases hmanifest : (OrdMap.ofList entries).get "manifest.json" with
      | none => simp [hmanifest] at h
      | some manifestBytes =>
        simp only [hmanifest, Checked.bind_eq_ok, Checked.mapError_eq_ok, Checked.reject_eq_ok,
          not_or, not_not] at h
        obtain ⟨manifest,hparse,_,hvalid,_,hidentity,reference,hreference,h⟩ := h
        obtain rfl := Except.ok.inj h
        exact ⟨⟨metaBytes,hmeta,hdecode⟩,⟨entries,hentries,rfl⟩,hdigest,
          ⟨manifestBytes,hmanifest,hparse⟩,hvalid,hidentity,⟨reference,hreference⟩⟩
  · rintro ⟨⟨metaBytes,hmeta,hdecode⟩,⟨entries,hentries,hfiles⟩,hdigest,⟨manifestBytes,hmanifest,
      hparse⟩,hvalid,⟨hid,hversion⟩,⟨reference,hreference⟩⟩
    obtain ⟨manifest,metadata,files⟩ := installed
    obtain rfl : files = OrdMap.ofList entries := hfiles
    simp only at hdecode hentries hdigest hmanifest hparse hvalid hid hversion hreference
    simp only [loadFromDir, hmeta, hdecode, hentries, hmanifest, hparse, hvalid, hreference,
      Checked.ok_bind, Checked.mapError_ok, hdigest, hid, hversion, reject, ne_eq,
      not_true_eq_false, or_self, if_false]

namespace Loaded

variable {dir : Files} {installed : InstalledInstallation}

/-- The files are those of the directory. -/
theorem file (h : Loaded lib dir installed) {name : String} {bytes : List UInt8}
    (hfile : installed.files.get name = some bytes) : dir.get name = some bytes := by
  obtain ⟨entries,hentries,hfiles⟩ := h.files
  rw [hfiles] at hfile
  obtain ⟨e,-,he⟩ := Checked.exists_of_mem_mapM hentries (OrdMap.mem_of_get_ofList hfile)
  unfold readFile at he
  split at he
  · cases he
  · next found hfound =>
    split_ifs at he
    obtain ⟨rfl,rfl⟩ := Prod.mk.inj (Except.ok.inj he)
    exact hfound

/-- The manifest is the one in the file of that name. -/
theorem manifest_file (h : Loaded lib dir installed) :
    ∃ bytes, dir.get "manifest.json" = some bytes ∧
      lib.parseManifest bytes = .ok installed.manifest := by
  obtain ⟨bytes,hbytes,hparse⟩ := h.manifest
  exact ⟨bytes,h.file hbytes,hparse⟩

/-- A loop over the listed names finds the files that were read. -/
theorem collect (h : Loaded lib dir installed) {ε : Type} (error : String → ε) :
    ∃ entries, installed.metadata.files.entries.mapM (fun e =>
      match installed.file e.1 with
      | none => (.error (error e.1) : Except ε _)
      | some bytes => .ok (e.1,bytes)) = .ok entries ∧ OrdMap.ofList entries = installed.files := by
  obtain ⟨entries,hentries,hfiles⟩ := h.files
  have hnames : List.Forall₂ (fun e file => e.1 = file.1) installed.metadata.files.entries
      entries := by
    refine ((Checked.mapM_eq_ok_iff _ _ _).mp hentries).imp ?_
    intro e file hread
    rw [readFile] at hread
    split at hread
    · cases hread
    · split_ifs at hread
      exact congrArg Prod.fst (Except.ok.inj hread)
  have hordered : SortedMap.Ordered entries := by
    have hkeys : installed.metadata.files.entries.map Prod.fst = entries.map Prod.fst := by
      rw [← List.forall₂_eq_eq_eq]
      exact List.forall₂_map_left_iff.mpr (List.forall₂_map_right_iff.mpr hnames)
    have hmeta := List.pairwise_map.mpr installed.metadata.files.ordered
    rw [hkeys] at hmeta
    exact List.pairwise_map.mp hmeta
  refine ⟨entries,?_,hfiles.symm⟩
  rw [Checked.mapM_eq_ok_iff]
  rw [List.forall₂_iff_zip] at hnames ⊢
  refine ⟨hnames.1,fun {e file} hmem => ?_⟩
  have hfile : installed.file e.1 = some file.2 := by
    rw [InstalledInstallation.file, hfiles, hnames.2 hmem]
    exact SortedMap.find_ofList_of_mem hordered (List.of_mem_zip hmem).2
  simp only [hfile]
  rw [hnames.2 hmem]

end Loaded

theorem loadExact_eq_some_iff {dirs : Dirs} {id version : String}
    {installed : InstalledInstallation} :
    loadExact lib dirs id version = .ok (some installed) ↔
      ∃ dir, dirAt dirs id version = some dir ∧ loadFromDir lib dir = .ok installed := by
  unfold loadExact
  split
  · next hdir => simp [hdir]
  · next dir hdir => simp [hdir, Checked.bind_eq_ok]

/-- A directory of the plugin store is found under its path. -/
theorem dirAt_of_get {dirs : Dirs} {id version : String} {dir : Files}
    (h : OrdMap.get dirs (installDir id version) = some dir) :
    dirAt dirs id version = some dir := by
  rw [dirAt, h]

theorem mem_subdirs {dirs : Dirs} {id name : String} {dir : Files} :
    (name,dir) ∈ subdirs dirs id ↔ ∃ place, dirs.resolve (FilePath.posix id) = some place ∧
      OrdMap.get dirs (Dirs.stem place ++ name) = some dir := by
  unfold subdirs
  cases hplace : dirs.resolve (FilePath.posix id) with
  | none => simp
  | some place =>
    simp only [List.mem_filterMap, Option.map_eq_some_iff, Text.stripPrefix_eq_some_iff,
      Prod.mk.injEq, Prod.exists, OrdMap.mem_entries_iff, Option.some.injEq, exists_eq_left']
    constructor
    · rintro ⟨path,files,hfiles,name,rfl,rfl,rfl⟩
      exact hfiles
    · intro hfiles
      exact ⟨_,dir,hfiles,name,rfl,rfl,rfl⟩

/-- The directories of a plugin whose id is a name of its own. -/
theorem mem_subdirs_of_component {dirs : Dirs} {id name : String} {dir : Files}
    (h : FilePath.Component id) :
    (name,dir) ∈ subdirs dirs id ↔ OrdMap.get dirs (installDir id name) = some dir := by
  have hplace : dirs.resolve (FilePath.posix id) = some ⟨none,false,[id]⟩ := by
    simp [Dirs.resolve, h.posix_eq, Dirs.enter, h.parent]
  have hstem : Dirs.stem ⟨none,false,[id]⟩ = id ++ "/" := by simp [Dirs.stem, Dirs.key]
  rw [mem_subdirs, hplace]
  simp only [Option.some.injEq, exists_eq_left', hstem]
  rfl

theorem mem_versionDirs {dirs : Dirs} {id : String} {v : Version} {dir : Files} :
    (v,dir) ∈ versionDirs lib dirs id ↔
      ∃ name, (name,dir) ∈ subdirs dirs id ∧ lib.versions.parse name = .ok v := by
  simp [versionDirs, List.mem_filterMap, Checked.toOption_eq_some]

end Loaded

end Floatile.Store
