import Floatile.Cli.Discipline
import Floatile.Cli.Installer

/-! An installation read back: which packages survive the way through the staging directory, where
their files share a directory with the metadata of the installation. -/
namespace Floatile.Cli

open Floatile.Core
open Floatile.Core.Signature
open Floatile.Lib
open Floatile.Lib.Checked (reject)
open Floatile.Store

theorem conflict_comm (path name : String) : conflict path name = conflict name path :=
  Bool.or_comm _ _

theorem isDirOf_iff (path name : String) :
    isDirOf path name = true ↔ path.toList ++ ['/'] <+: name.toList := by
  simp [isDirOf, Text.startsWith]

theorem isDirOf_self (name : String) : isDirOf name name = false := by
  rw [← Bool.not_eq_true, isDirOf_iff]
  intro h
  have hlength := h.length_le
  simp at hlength

/-- A name without a slash stands in no directory. -/
theorem isDirOf_of_slash_notMem (path : String) {name : String} (h : '/' ∉ name.toList) :
    isDirOf path name = false := by
  rw [← Bool.not_eq_true, isDirOf_iff]
  exact fun hinitial => h (hinitial.subset (by simp))

/-- Files that can be written to a directory one after the other. -/
structure Fits (dir : Files) (entries : List (String × List UInt8)) : Prop where
  outside : ∀ name bytes, dir.get name = some bytes → ∀ e ∈ entries, conflict name e.1 = false
  inside : entries.Pairwise (fun e f => conflict e.1 f.1 = false)

theorem createFile_eq_some_iff {dir dir' : Files} {name : String} {bytes : List UInt8} :
    createFile dir name bytes = some dir' ↔
      (∀ other b, dir.get other = some b → conflict other name = false) ∧
        dir' = dir.insert name bytes := by
  unfold createFile
  have hany : dir.entries.any (fun e => conflict e.1 name) = false ↔
      ∀ other b, dir.get other = some b → conflict other name = false := by
    simp only [List.any_eq_false, Bool.not_eq_true, Prod.forall, OrdMap.mem_entries_iff]
  rw [← hany]
  split_ifs with h
  · simp [h]
  · simp [h, eq_comm]

/-- The loop without failing writes: it goes through exactly when the files fit. -/
theorem writeEntries_none (entries : List (String × List UInt8)) (index : ℕ) (dir : Files) :
    (Fits dir entries → writeEntries none entries index dir =
      (.ok (),entries.foldl (fun m e => m.insert e.1 e.2) dir)) ∧
    ((writeEntries none entries index dir).1 = .ok () → Fits dir entries) := by
  induction entries generalizing index dir with
  | nil => exact ⟨fun _ => rfl,fun _ => ⟨by simp,List.Pairwise.nil⟩⟩
  | cons e entries ih =>
    obtain ⟨name,bytes⟩ := e
    obtain ⟨ihfits,ihok⟩ := ih (index + 1) (dir.insert name bytes)
    have hcreate := @createFile_eq_some_iff dir (dir.insert name bytes) name bytes
    refine ⟨fun hfits => ?_,fun hok => ?_⟩
    · obtain ⟨houtside,hinside⟩ := hfits
      obtain ⟨hhead,htail⟩ := List.pairwise_cons.mp hinside
      have hcreated := hcreate.mpr
        ⟨fun other b hother => houtside other b hother _ List.mem_cons_self,rfl⟩
      have hrest : Fits (dir.insert name bytes) entries := by
        refine ⟨fun other b hother f hf => ?_,htail⟩
        rw [OrdMap.get_insert] at hother
        split_ifs at hother with hname
        · rw [hname]
          exact hhead f hf
        · exact houtside other b hother f (List.mem_cons_of_mem _ hf)
      simp only [writeEntries, reduceCtorEq, if_false, hcreated, List.foldl_cons]
      exact ihfits hrest
    · cases hcreated : createFile dir name bytes with
      | none => simp [writeEntries, hcreated] at hok
      | some dir' =>
        obtain ⟨hfree,rfl⟩ := createFile_eq_some_iff.mp hcreated
        simp only [writeEntries, reduceCtorEq, if_false, hcreated] at hok
        obtain ⟨houtside,hinside⟩ := ihok hok
        have hnew := houtside name bytes (OrdMap.get_insert_self dir name bytes)
        refine ⟨fun other b hother f hf => ?_,List.pairwise_cons.mpr ⟨hnew,hinside⟩⟩
        rcases List.mem_cons.mp hf with rfl | hf
        · exact hfree other b hother
        · by_cases hname : other = name
          · rw [hname]
            exact hnew f hf
          · refine houtside other b ?_ f hf
            rw [OrdMap.get_insert_of_ne dir hname]
            exact hother

section Package

variable {Version : Type} {lib : InstallLib Version}

theorem metadata_files (package : ValidatedPackage lib) (source : String)
    (installedAt : UnixSeconds) (trust : InstallationTrust) :
    (package.metadataFor source installedAt trust).files.entries = package.files.entries.map
      (fun e => (e.1,hexEncode (fileDigest lib.signature.sha256 e.2).bytes)) :=
  SortedMap.ofList_of_ordered (SortedMap.ordered_mapValues
    (fun bytes => hexEncode (fileDigest lib.signature.sha256 bytes).bytes) package.files.ordered)

/-- The reference to an installed package: its identity and the digest of its files. -/
def ValidatedPackage.reference (package : ValidatedPackage lib) : InstallationRef where
  plugin := package.manifest.id
  version := package.manifest.version
  digest := contentDigest lib.signature.sha256 package.files

theorem fromInstallMeta_metadata (package : ValidatedPackage lib) (source : String)
    (installedAt : UnixSeconds) (trust : InstallationTrust) :
    InstallationRef.fromInstallMeta lib (package.metadataFor source installedAt trust) =
      .ok package.reference := by
  have hvalid := package.valid
  simp only [validateManifest, Checked.bind_eq_ok] at hvalid
  obtain ⟨_,-,_,hid,_,-,_,-,version,hversion,-⟩ := hvalid
  rw [Checked.mapError_eq_ok] at hversion
  have hdigest : (hexDecode (hexEncode (contentDigest lib.signature.sha256
      package.files).bytes)).bind Bytes32.ofList =
        some (contentDigest lib.signature.sha256 package.files) := by
    rw [hexDecode_hexEncode, Option.bind_some, Bytes32.ofList,
      dif_pos (contentDigest lib.signature.sha256 package.files).length_eq]
  simp only [InstallationRef.fromInstallMeta, ValidatedPackage.metadataFor,
    ValidatedPackage.metadata, hdigest, Checked.ok_bind, hid, hversion, Checked.mapError_ok,
    ValidatedPackage.reference]

/-- A directory that holds the files of a package and its metadata is read back as the package. -/
theorem loaded_package (package : ValidatedPackage lib) (source : String)
    (installedAt : UnixSeconds) (trust : InstallationTrust) {dir : Files}
    (hmeta : dir.get "install.json" =
      some (lib.encodeMeta (package.metadataFor source installedAt trust)))
    (hread : lib.decodeMeta (lib.encodeMeta (package.metadataFor source installedAt trust)) =
      .ok (package.metadataFor source installedAt trust))
    (hfiles : ∀ name bytes, package.files.get name = some bytes → dir.get name = some bytes) :
    Loaded lib dir ⟨package.manifest,package.metadataFor source installedAt trust,
      package.files⟩ := by
  refine ⟨⟨_,hmeta,hread⟩,⟨package.files.entries,?_,(OrdMap.ofList_entries _).symm⟩,rfl,
    ⟨package.manifestBytes,package.manifestFile,package.parsed⟩,package.valid,⟨rfl,rfl⟩,
    ⟨_,fromInstallMeta_metadata package source installedAt trust⟩⟩
  simp only [metadata_files]
  rw [Checked.mapM_eq_ok_iff, List.forall₂_map_left_iff, List.forall₂_same]
  rintro ⟨name,bytes⟩ he
  have hfile := hfiles name bytes ((OrdMap.mem_entries_iff _ _ _).mp he)
  simp only [readFile, hfile, ne_eq, not_true_eq_false, if_false]

/-- The files of a package that find their places beside the metadata: none is called like it or
stands below it, and none is a directory of another one. -/
structure Unobstructed (files : Files) : Prop where
  metadata : files.get "install.json" = none
  below : ∀ name bytes, files.get name = some bytes → isDirOf "install.json" name = false
  apart : ∀ name bytes name' bytes', files.get name = some bytes →
    files.get name' = some bytes' → isDirOf name name' = false

variable (lib) (plib : PackageLib)

/-- The call succeeds, and the installation of that id and version then reads back as the files
and the manifest of the package, under a reference with the digest of the installation. -/
def RoundTrips (call : InstallCall) (package : ValidatedPackage lib) (dirs : Dirs) : Prop :=
  ∃ installed loaded reference,
    (installPackage lib plib call dirs).1 = .ok installed ∧
    loadExact lib (installPackage lib plib call dirs).2 package.manifest.id.text
      package.manifest.version = .ok (some loaded) ∧
    loaded.files = package.files ∧ loaded.manifest = package.manifest ∧
    loaded.reference lib = .ok reference ∧
    reference.plugin = package.manifest.id ∧ reference.version = package.manifest.version ∧
    hexEncode reference.digest.bytes = installed.metadata.digest

variable {lib plib}

/-- The files that the installer writes. -/
def stagedEntries (package : ValidatedPackage lib) (metadata : InstallMeta) :
    List (String × List UInt8) :=
  package.files.entries ++ [("install.json",lib.encodeMeta metadata)]

theorem fits_stagedEntries_iff (package : ValidatedPackage lib) (metadata : InstallMeta) :
    Fits OrdMap.empty (stagedEntries package metadata) ↔
      (∀ name bytes, package.files.get name = some bytes →
        isDirOf "install.json" name = false) ∧
      ∀ name bytes name' bytes', package.files.get name = some bytes →
        package.files.get name' = some bytes' → isDirOf name name' = false := by
  have hmeta : ∀ name, conflict name "install.json" = isDirOf "install.json" name := by
    intro name
    rw [conflict, isDirOf_of_slash_notMem name (by decide), Bool.false_or]
  have hmem : ∀ e, e ∈ package.files.entries ↔ package.files.get e.1 = some e.2 :=
    fun e => OrdMap.mem_entries_iff _ e.1 e.2
  constructor
  · rintro ⟨-,hinside⟩
    obtain ⟨hfiles,-,hcross⟩ := List.pairwise_append.mp hinside
    refine ⟨fun name bytes hname => ?_,fun name bytes name' bytes' hname hname' => ?_⟩
    · rw [← hmeta]
      exact hcross (name,bytes) ((hmem _).mpr hname) _ (List.mem_singleton_self _)
    · have hsymm : Std.Symm (fun e f : String × List UInt8 => conflict e.1 f.1 = false) :=
        ⟨fun e f h => (conflict_comm f.1 e.1).trans h⟩
      have hall := hfiles.forall_of_forall (fun e _ => by simp [conflict, isDirOf_self])
        ((hmem (name,bytes)).mpr hname) ((hmem (name',bytes')).mpr hname')
      exact (Bool.or_eq_false_iff.mp hall).1
  · rintro ⟨hbelow,hapart⟩
    refine ⟨by simp,List.pairwise_append.mpr ⟨?_,List.pairwise_singleton _ _,?_⟩⟩
    · refine List.pairwise_of_forall_mem_list fun e he f hf => ?_
      rw [hmem] at he hf
      rw [conflict, hapart _ _ _ _ he hf, hapart _ _ _ _ hf he, Bool.or_false]
    · intro e he f hf
      obtain rfl := List.mem_singleton.mp hf
      rw [hmeta]
      exact hbelow e.1 e.2 ((hmem e).mp he)

/-- The staged directory: the metadata, and otherwise the files of the package. -/
theorem get_staged (package : ValidatedPackage lib) (metadata : InstallMeta) (name : String) :
    ((stagedEntries package metadata).foldl (fun m e => m.insert e.1 e.2) OrdMap.empty).get name =
      if name = "install.json" then some (lib.encodeMeta metadata)
      else package.files.get name := by
  rw [stagedEntries, List.foldl_append, OrdMap.foldl_insert_entries, List.foldl_cons,
    List.foldl_nil, OrdMap.get_insert]

variable (plib) in
/-- A call without failing operations, on a package that is not installed. -/
structure Undisturbed (call : InstallCall) (package : ValidatedPackage lib) (dirs : Dirs) :
    Prop where
  accepted : validatePackage plib call.limits lib call.bytes = .ok package
  absent : dirs.has package.finalDir = false
  fresh : dirs.has (stagingDir call.transaction.text) = false
  faults : call.faults = Faults.none

/-- Such a call succeeds exactly when the files fit, and leaves them in the final directory. -/
theorem installPackage_spec {call : InstallCall} {package : ValidatedPackage lib} {dirs : Dirs}
    (h : Undisturbed plib call package dirs) :
    let metadata := package.metadataFor call.source call.installedAt .unsigned
    let r := installPackage lib plib call dirs
    (Fits OrdMap.empty (stagedEntries package metadata) →
      r.1 = .ok ⟨package.finalDir,package.manifest,metadata,none⟩ ∧
        OrdMap.get r.2 package.finalDir =
          some ((stagedEntries package metadata).foldl (fun m e => m.insert e.1 e.2) OrdMap.empty)) ∧
    ((∃ installed, r.1 = .ok installed) → Fits OrdMap.empty (stagedEntries package metadata)) := by
  intro metadata r
  obtain ⟨haccepted,habsent,hfresh,hfaults⟩ := h
  have hbefore : (OrdMap.get dirs (stagingDir call.transaction.text)).getD OrdMap.empty =
      OrdMap.empty := by
    rw [has_eq_false.mp hfresh, Option.getD_none]
  obtain ⟨hfits,hok⟩ := writeEntries_none (stagedEntries package metadata) 0 OrdMap.empty
  have hresult : r = installValidated lib call package dirs := by
    simp only [r, installPackage, haccepted]
  simp only [installValidated, habsent, hfaults, Faults.none, Bool.false_eq_true, if_false,
    writeStaging, hbefore] at hresult
  rw [show package.files.entries ++ [("install.json",lib.encodeMeta (package.metadataFor call.source
    call.installedAt .unsigned))] = stagedEntries package metadata from rfl] at hresult
  generalize writeEntries none (stagedEntries package metadata) 0 OrdMap.empty = w
    at hfits hok hresult
  obtain ⟨written,dir⟩ := w
  refine ⟨fun h => ?_,fun hinstalled => ?_⟩
  · obtain ⟨rfl,rfl⟩ := Prod.mk.inj (hfits h)
    rw [hresult]
    exact ⟨rfl,OrdMap.get_insert_self _ _ _⟩
  · cases written with
    | ok u => exact hok rfl
    | error name =>
      obtain ⟨installed,hinstalled⟩ := hinstalled
      rw [hresult] at hinstalled
      cases hinstalled

/-- The package can be installed and read back whenever the call is made exactly when nothing in
it stands in the way of its files and the metadata. -/
theorem installPackage_roundTrips_iff (call : InstallCall) (package : ValidatedPackage lib)
    (dirs : Dirs) (h : Undisturbed plib call package dirs)
    (hserde : ∀ installedAt, lib.decodeMeta (lib.encodeMeta
      (package.metadataFor call.source installedAt .unsigned)) =
        .ok (package.metadataFor call.source installedAt .unsigned)) :
    (∀ installedAt, RoundTrips lib plib { call with installedAt := installedAt } package dirs) ↔
      Unobstructed package.files := by
  have hspec := fun installedAt =>
    @installPackage_spec _ lib plib { call with installedAt := installedAt } package dirs
      ⟨h.accepted,h.absent,h.fresh,h.faults⟩
  constructor
  · intro hround
    have hfits : ∀ installedAt, Fits OrdMap.empty (stagedEntries package
        (package.metadataFor call.source installedAt .unsigned)) := by
      intro installedAt
      obtain ⟨installed,-,-,hinstalled,-⟩ := hround installedAt
      exact (hspec installedAt).2 ⟨installed,hinstalled⟩
    obtain ⟨hbelow,hapart⟩ := (fits_stagedEntries_iff package _).mp (hfits ⟨0,by decide⟩)
    refine ⟨?_,hbelow,hapart⟩
    cases hlisted : package.files.get "install.json" with
    | none => rfl
    | some bytes =>
      -- the file of the package would be the metadata of every installation
      have hsame : ∀ installedAt, bytes = lib.encodeMeta
          (package.metadataFor call.source installedAt .unsigned) := by
        intro installedAt
        obtain ⟨installed,loaded,-,-,hloaded,hfiles,-⟩ := hround installedAt
        obtain ⟨dir,hdir,hload⟩ := loadExact_eq_some_iff.mp hloaded
        have hplace := ((hspec installedAt).1 (hfits installedAt)).2
        obtain rfl := Option.some.inj ((dirAt_of_get hplace).symm.trans hdir)
        have hfile := (loadFromDir_eq_ok_iff.mp hload).file (hfiles ▸ hlisted)
        rw [get_staged, if_pos rfl] at hfile
        exact (Option.some.inj hfile).symm
      have hzero := hserde ⟨0,by decide⟩
      rw [← hsame, hsame ⟨1,by decide⟩, hserde] at hzero
      have htime := congrArg InstallMeta.installedAt (Except.ok.inj hzero)
      cases htime
  · rintro ⟨hmeta,hbelow,hapart⟩ installedAt
    obtain ⟨hresult,hplace⟩ := (hspec installedAt).1
      ((fits_stagedEntries_iff package _).mpr ⟨hbelow,hapart⟩)
    have hloaded := loaded_package package call.source installedAt .unsigned
      ((get_staged package _ "install.json").trans (if_pos rfl)) (hserde installedAt)
      (fun name bytes hname => by
        rw [get_staged, if_neg, hname]
        rintro rfl
        rw [hmeta] at hname
        cases hname)
    refine ⟨_,_,package.reference,hresult,loadExact_eq_some_iff.mpr ⟨_,dirAt_of_get hplace,
      loadFromDir_eq_ok_iff.mpr hloaded⟩,rfl,rfl,?_,rfl,rfl,rfl⟩
    rw [InstalledInstallation.reference, fromInstallMeta_metadata]
    rfl

end Package

/-- A number in little-endian bytes. -/
def leBytes (width n : ℕ) : List UInt8 :=
  (List.range width).map (fun i => UInt8.ofNat (n / 256^i))

/-- A file of an archive without compression, with its CRC-32 checksum. -/
structure StoredFile where
  name : String
  crc : ℕ
  bytes : List UInt8

namespace StoredFile

variable (file : StoredFile)

/-- What both headers of a file record: its date, its checksum, its sizes and the length of its
name. -/
def record : List UInt8 :=
  [0,0,0,0,0,0,33,0] ++ leBytes 4 file.crc ++ leBytes 4 file.bytes.length ++
    leBytes 4 file.bytes.length ++ leBytes 2 (utf8 file.name).length ++ [0,0]

def localHeader : List UInt8 := [80,75,3,4,10,0] ++ file.record ++ utf8 file.name

def centralHeader (offset : ℕ) : List UInt8 :=
  [80,75,1,2,10,0,10,0] ++ file.record ++ List.replicate 10 0 ++ leBytes 4 offset ++
    utf8 file.name

def zipEntry : ZipEntry where
  name := file.name
  unixMode := none
  size := file.bytes.length
  compressedSize := file.bytes.length
  isDir := false
  data := .ok file.bytes

/-- The local parts and the directory of an archive from an offset on. -/
def sections (offset : ℕ) : List StoredFile → List UInt8 × List UInt8
  | [] => ([],[])
  | file :: files =>
    let part := file.localHeader ++ file.bytes
    let (parts,directory) := sections (offset + part.length) files
    (part ++ parts,file.centralHeader offset ++ directory)

end StoredFile

def storedArchive (files : List StoredFile) : List UInt8 :=
  let (parts,directory) := StoredFile.sections 0 files
  parts ++ directory ++ [80,75,5,6,0,0,0,0] ++ leBytes 2 files.length ++
    leBytes 2 files.length ++ leBytes 4 directory.length ++ leBytes 4 parts.length ++ [0,0]

/-- The public key of another publisher. -/
def forkKey : Bytes32 where
  bytes := [
    61,64,23,195,232,67,137,90,146,183,10,167,77,27,126,188,156,152,44,207,46,196,150,140,192,205,
    85,241,42,244,102,12]
  length_eq := by decide

/-- The manifest of a clock in JSON. Between the version, the publisher and the permissions stand
the texts
{"manifestVersion":1,"id":"org.example.clock","name":"Clock","version":"
and
","publisher":{"id":"
and
","name":"Example"},"engineApiVersion":"1.2.0","uiApiVersion":"1.6.0","type":"widget","entrypoin
ts":{"ui":"ui/widget.ftui","logic":"logic/plugin.wasm"},"sizes":{"default":{"width":200,"height"
:100},"min":{"width":100,"height":50},"max":{"width":400,"height":200},"resizable":true},"permis
sions": -/
def manifestJson (version publisherId : String) (permissions : List UInt8) : List UInt8 :=
  [
    123,34,109,97,110,105,102,101,115,116,86,101,114,115,105,111,110,34,58,49,44,34,105,100,34,58,
    34,111,114,103,46,101,120,97,109,112,108,101,46,99,108,111,99,107,34,44,34,110,97,109,101,34,
    58,34,67,108,111,99,107,34,44,34,118,101,114,115,105,111,110,34,58,34] ++
  utf8 version ++ [34,44,34,112,117,98,108,105,115,104,101,114,34,58,123,34,105,100,34,58,34] ++
  utf8 publisherId ++ [
    34,44,34,110,97,109,101,34,58,34,69,120,97,109,112,108,101,34,125,44,34,101,110,103,105,110,
    101,65,112,105,86,101,114,115,105,111,110,34,58,34,49,46,50,46,48,34,44,34,117,105,65,112,105,
    86,101,114,115,105,111,110,34,58,34,49,46,54,46,48,34,44,34,116,121,112,101,34,58,34,119,105,
    100,103,101,116,34,44,34,101,110,116,114,121,112,111,105,110,116,115,34,58,123,34,117,105,34,
    58,34,117,105,47,119,105,100,103,101,116,46,102,116,117,105,34,44,34,108,111,103,105,99,34,58,
    34,108,111,103,105,99,47,112,108,117,103,105,110,46,119,97,115,109,34,125,44,34,115,105,122,
    101,115,34,58,123,34,100,101,102,97,117,108,116,34,58,123,34,119,105,100,116,104,34,58,50,48,
    48,44,34,104,101,105,103,104,116,34,58,49,48,48,125,44,34,109,105,110,34,58,123,34,119,105,
    100,116,104,34,58,49,48,48,44,34,104,101,105,103,104,116,34,58,53,48,125,44,34,109,97,120,34,
    58,123,34,119,105,100,116,104,34,58,52,48,48,44,34,104,101,105,103,104,116,34,58,50,48,48,125,
    44,34,114,101,115,105,122,97,98,108,101,34,58,116,114,117,101,125,44,34,112,101,114,109,105,
    115,115,105,111,110,115,34,58] ++
  permissions ++ [125]

/-- The text
{"uiApiVersion":"1.0.0","state":{"initial":{},"schema":{"type":"object","additionalProperties":f
alse,"properties":{}}},"events":{},"root":{"type":"Column","props":{},"children":[]}} -/
def documentBytes : List UInt8 := [
  123,34,117,105,65,112,105,86,101,114,115,105,111,110,34,58,34,49,46,48,46,48,34,44,34,115,116,
  97,116,101,34,58,123,34,105,110,105,116,105,97,108,34,58,123,125,44,34,115,99,104,101,109,97,34,
  58,123,34,116,121,112,101,34,58,34,111,98,106,101,99,116,34,44,34,97,100,100,105,116,105,111,
  110,97,108,80,114,111,112,101,114,116,105,101,115,34,58,102,97,108,115,101,44,34,112,114,111,
  112,101,114,116,105,101,115,34,58,123,125,125,125,44,34,101,118,101,110,116,115,34,58,123,125,
  44,34,114,111,111,116,34,58,123,34,116,121,112,101,34,58,34,67,111,108,117,109,110,34,44,34,112,
  114,111,112,115,34,58,123,125,44,34,99,104,105,108,100,114,101,110,34,58,91,93,125,125]

def clockFiles (manifest : StoredFile) : List StoredFile := [
  manifest,⟨"ui/widget.ftui",1275001125,documentBytes⟩,
  ⟨"logic/plugin.wasm",2578896071,clockWasm⟩]

/-- The text that the digest of all files is computed from. -/
def digestText (files : List StoredFile) : List UInt8 :=
  (OrdMap.ofList (files.map (fun file => (file.name,file.bytes)))).entries.flatMap digestEntry

/-- A signed package of the clock, with the digests in hexadecimal form. -/
structure Release where
  manifest : Manifest
  manifestBytes : List UInt8
  manifestCrc : ℕ
  manifestDigest : String
  key : Bytes32
  keyId : String
  signedDigest : String
  payload : String
  signature : List UInt8
  signatureText : String
  envelopeBytes : List UInt8
  envelopeCrc : ℕ
  envelopeDigest : String
  contentDigest : String

namespace Release

variable (r : Release)

def files : List StoredFile :=
  clockFiles ⟨"manifest.json",r.manifestCrc,r.manifestBytes⟩ ++
    [⟨"signature.json",r.envelopeCrc,r.envelopeBytes⟩]

def envelope : SignatureEnvelope where
  payloadType := "application/vnd.floatile.package-digest.v1"
  payload := r.payload
  signatures := [⟨r.keyId,r.signatureText⟩]

/-- SHA-256 on the bytes of the package. -/
def digests : List (List UInt8 × String) := [
  (r.key.bytes,r.keyId),(r.manifestBytes,r.manifestDigest),(r.envelopeBytes,r.envelopeDigest),
  (digestText (r.files.take 3),r.signedDigest),(digestText r.files,r.contentDigest)]

/-- The metadata of the package, installed at a time and with a trust. -/
def metadata (installedAt : ℕ) (trust : InstallationTrust) : InstallMeta where
  manifestVersion := 1
  id := "org.example.clock"
  version := r.manifest.version
  engineApiVersion := "1.2.0"
  uiApiVersion := "1.6.0"
  installedAt := installedAt
  source := "clock.floatile"
  trust := trust
  files := OrdMap.ofList [
    ("logic/plugin.wasm","c507947c9c3fc9e70b7e58607daeb26146e2cf727fa2584b6b188dc4b2a93a77"),
    ("manifest.json",r.manifestDigest),("signature.json",r.envelopeDigest),
    ("ui/widget.ftui","b1593aadc6e65fc2f247fa6025f6886083155ce9718c60a844b3c390a73dc81e")]
  digest := r.contentDigest

end Release

/-- SHA-256 on the files that all packages share. -/
def sharedDigests : List (List UInt8 × String) := [
  (clockWasm,"c507947c9c3fc9e70b7e58607daeb26146e2cf727fa2584b6b188dc4b2a93a77"),
  (documentBytes,"b1593aadc6e65fc2f247fa6025f6886083155ce9718c60a844b3c390a73dc81e")]

/-- The text
{"payloadType":"application/vnd.floatile.package-digest.v1","payload":"3GEK7OcUAogFlhWv71XM9d5sB
OfGtzb/fpHW0Rqb0V0=","signatures":[{"keyid":"39f713d0a644253f04529421b9f51b9b08979d08295959c4f39
90ee617f5139f","sig":"PtCZdzeGbmki7XBU+e0N4/0WUbPz2qUr+yeibl5Zrcs8jO+f3dZeVnpZDsIlpmyoTCUmUNEA7G
h3Gthq505CAg=="}]} -/
def forkEnvelopeBytes : List UInt8 := [
  123,34,112,97,121,108,111,97,100,84,121,112,101,34,58,34,97,112,112,108,105,99,97,116,105,111,
  110,47,118,110,100,46,102,108,111,97,116,105,108,101,46,112,97,99,107,97,103,101,45,100,105,103,
  101,115,116,46,118,49,34,44,34,112,97,121,108,111,97,100,34,58,34,51,71,69,75,55,79,99,85,65,
  111,103,70,108,104,87,118,55,49,88,77,57,100,53,115,66,79,102,71,116,122,98,47,102,112,72,87,48,
  82,113,98,48,86,48,61,34,44,34,115,105,103,110,97,116,117,114,101,115,34,58,91,123,34,107,101,
  121,105,100,34,58,34,51,57,102,55,49,51,100,48,97,54,52,52,50,53,51,102,48,52,53,50,57,52,50,49,
  98,57,102,53,49,98,57,98,48,56,57,55,57,100,48,56,50,57,53,57,53,57,99,52,102,51,57,57,48,101,
  101,54,49,55,102,53,49,51,57,102,34,44,34,115,105,103,34,58,34,80,116,67,90,100,122,101,71,98,
  109,107,105,55,88,66,85,43,101,48,78,52,47,48,87,85,98,80,122,50,113,85,114,43,121,101,105,98,
  108,53,90,114,99,115,56,106,79,43,102,51,100,90,101,86,110,112,90,68,115,73,108,112,109,121,111,
  84,67,85,109,85,78,69,65,55,71,104,51,71,116,104,113,53,48,53,67,65,103,61,61,34,125,93,125]

/-- A newer version of the clock by the other publisher. -/
def fork : Release where
  manifest := { clockManifest with
    version := "2.0.0"
    publisher := ⟨"net.example","Example"⟩ }
  manifestBytes := manifestJson "2.0.0" "net.example" [91,93]
  manifestCrc := 3748337954
  manifestDigest := "684bd8facb817210ba08a269943ead769d6b1ff689fa5d9e5ce81a95d0e839bd"
  key := forkKey
  keyId := "39f713d0a644253f04529421b9f51b9b08979d08295959c4f3990ee617f5139f"
  signedDigest := "dc610aece7140288059615afef55ccf5de6c04e7c6b736ff7e91d6d11a9bd15d"
  payload := "3GEK7OcUAogFlhWv71XM9d5sBOfGtzb/fpHW0Rqb0V0="
  signature := [
    62,208,153,119,55,134,110,105,34,237,112,84,249,237,13,227,253,22,81,179,243,218,165,43,251,
    39,162,110,94,89,173,203,60,140,239,159,221,214,94,86,122,89,14,194,37,166,108,168,76,37,38,
    80,209,0,236,104,119,26,216,106,231,78,66,2]
  signatureText :=
    "PtCZdzeGbmki7XBU+e0N4/0WUbPz2qUr+yeibl5Zrcs8jO+f3dZeVnpZDsIlpmyoTCUmUNEA7Gh3Gthq505CAg=="
  envelopeBytes := forkEnvelopeBytes
  envelopeCrc := 1486678670
  envelopeDigest := "cb613952c9dd6186b8b74065c7fceeef867709bdcb4db2c7944a08b11d0baa95"
  contentDigest := "ee9307fa57bbe4198d17cfd14053e5f2666d5ea4b4f1f386cc0b14a330441cb6"

/-- The files of the fork with a file of its own in the place of its signature. -/
def extraFiles : List StoredFile :=
  clockFiles ⟨"manifest.json",fork.manifestCrc,fork.manifestBytes⟩ ++
    [⟨"install.json",2745614147,[0x7B,0x7D]⟩]

/-- The metadata of an installation as the JSON library writes it, in pieces. -/
def metaPieces (m : InstallMeta) : List String :=
  ["\x7b","\"manifestVersion\":",toString m.manifestVersion,",\"id\":\"",m.id,
    "\",\"version\":\"",m.version,"\",\"engineApiVersion\":\"",m.engineApiVersion,
    "\",\"uiApiVersion\":\"",m.uiApiVersion,"\",\"installed_at\":",toString m.installedAt,
    ",\"source\":\"",m.source,"\",\"trust\":\"",
    match m.trust with
    | .unsigned => "unsigned"
    | .trusted => "trusted",
    "\",\"files\":\x7b\""] ++
  [",\""].intercalate (m.files.entries.map (fun e => [e.1,"\":\"",e.2,"\""])) ++
  ["\x7d,\"digest\":\"",m.digest,"\"\x7d"]

def metaJson (m : InstallMeta) : List UInt8 := (metaPieces m).flatMap utf8

/-- The metadata of the archive with a file called like them. -/
def extraMeta : InstallMeta := { fork.metadata 20 .unsigned with
  files := OrdMap.ofList [
    ("install.json","44136fa355b3678a1146ad16f7e8649e94fb4fc21fe77e8310c060f61caaff8a"),
    ("logic/plugin.wasm","c507947c9c3fc9e70b7e58607daeb26146e2cf727fa2584b6b188dc4b2a93a77"),
    ("manifest.json","684bd8facb817210ba08a269943ead769d6b1ff689fa5d9e5ce81a95d0e839bd"),
    ("ui/widget.ftui","b1593aadc6e65fc2f247fa6025f6886083155ce9718c60a844b3c390a73dc81e")]
  digest := "1eae00f0f774a2247c087181d7dcc174b636e49bca418d01c117c5f152018c2e" }

/-- SHA-256 on the bytes of that archive. -/
def extraDigests : List (List UInt8 × String) := [
  ([0x7B,0x7D],"44136fa355b3678a1146ad16f7e8649e94fb4fc21fe77e8310c060f61caaff8a"),
  (digestText extraFiles,"1eae00f0f774a2247c087181d7dcc174b636e49bca418d01c117c5f152018c2e"),
  (metaJson extraMeta,"dccb4df58e7e01f7c000062a97653a2c952d54866d6de474aab9e9cfa62cef91")]

/-- The digest that a table lists for an input. -/
def listedDigest (table : List (List UInt8 × String)) (input : List UInt8) : Bytes32 :=
  digestOfHex (((table.find? (fun e => e.1 = input)).map Prod.snd).getD "")

/-- The external functions on the bytes of signed packages, with the digests and the metadata of
tables. -/
def releaseLib (releases : List Release) (digests : List (List UInt8 × String))
    (metas : List InstallMeta) : InstallLib (Fin 3) where
  signature := {
    sha256 := listedDigest digests
    parseEnvelope := fun bytes =>
      (releases.find? (fun r => r.envelopeBytes = bytes)).map Release.envelope
    base64Decode := fun text =>
      match releases.find? (fun r => r.payload = text) with
      | some r => hexDecode r.signedDigest
      | none => (releases.find? (fun r => r.signatureText = text)).map Release.signature
    base64Encode := fun bytes =>
      match releases.find? (fun r => r.signature = bytes) with
      | some r => r.signatureText
      | none => ((releases.find? (fun r => hexDecode r.signedDigest = some bytes)).map
          Release.payload).getD ""
    verifyingKey := fun key => releases.any (fun r => r.key = key)
    verifyStrict := fun key _ signature =>
      releases.any (fun r => r.key = key ∧ r.signature = signature) }
  versions := threeReleases
  parseManifest := fun bytes =>
    match releases.find? (fun r => r.manifestBytes = bytes) with
    | some r => .ok r.manifest
    | none => .error "expected value"
  encodeMeta := metaJson
  decodeMeta := fun bytes =>
    match metas.find? (fun m => metaJson m = bytes) with
    | some m => .ok m
    | none => .error "expected value"

def encodeAt (m : InstallMeta) : List UInt8 :=
  if m.installedAt = 20 then metaJson m else List.replicate m.installedAt 0

/-- The external functions on the bytes of the fork. The metadata of the fork at other times than
the twentieth second stand for rows of zeros. -/
def forkLib : InstallLib (Fin 3) :=
  let lib := releaseLib [fork] (sharedDigests ++ fork.digests ++ extraDigests)
    [fork.metadata 20 .unsigned,extraMeta]
  { lib with
    encodeMeta := encodeAt
    decodeMeta := fun bytes =>
      if bytes.all (fun b => b = 0) then .ok (fork.metadata bytes.length .unsigned)
      else lib.decodeMeta bytes }

/-- The document in `documentBytes`. -/
def clockDocument : UiSchema.UiDocument where
  uiApiVersion := "1.0.0"
  state := ⟨.object [],.object [] [] true⟩
  events := OrdMap.empty
  root := {
    kind := "Column"
    props := OrdMap.empty
    children := []
    events := OrdMap.empty
    when_ := none
    then_ := none
    else_ := none
    items := none
    key := none
    template := none }

/-- The external functions on an archive with the given files; their names are in lower case. -/
def packageLibOf (archives : List (List StoredFile)) : PackageLib where
  openArchive := fun bytes =>
    match archives.find? (fun files => storedArchive files = bytes) with
    | some files => .ok (files.map (fun file => .ok file.zipEntry))
    | none => .error "invalid Zip archive: Could not find EOCD"
  toLowercase := fun name => name
  parseJson := fun _ => .error "expected value"
  parseDocument := fun bytes =>
    if bytes = documentBytes then .ok clockDocument else .error "expected value"
  irBytes := fun _ => .ok 170
  parseComponent := fun bytes =>
    if bytes = clockWasm then .ok ⟨[],["floatile:widget/widget-contract@1.0.0"]⟩
    else .error "failed to parse WebAssembly module"

def forkPackageLib : PackageLib := packageLibOf [fork.files,extraFiles]

theorem installTime_bounded : 20 < 2^63 := by decide

/-- The installation of an archive of the given files, without failing operations. -/
def callOf (files : List StoredFile) : InstallCall where
  bytes := storedArchive files
  limits := PackageLimits.default
  source := "clock.floatile"
  transaction := clockTransaction
  installedAt := ⟨20,installTime_bounded⟩
  faults := Faults.none

theorem has_empty (path : String) : Dirs.has OrdMap.empty path = false := rfl

/-- The texts of a manifest that the metadata repeat, and the files. -/
def ValidatedPackage.summary {Version : Type} {lib : InstallLib Version}
    (package : ValidatedPackage lib) : ℕ × List String × List (String × List UInt8) :=
  (package.manifest.manifestVersion,[package.manifest.id.text,package.manifest.version,
    package.manifest.engineApiVersion,package.manifest.uiApiVersion],package.files.entries)

def forkEntries : List (String × List UInt8) := [
  ("logic/plugin.wasm",clockWasm),("manifest.json",fork.manifestBytes),
  ("signature.json",forkEnvelopeBytes),("ui/widget.ftui",documentBytes)]

theorem forkFiles_summary : (validatePackage forkPackageLib PackageLimits.default forkLib
    (storedArchive fork.files)).toOption.map ValidatedPackage.summary =
      some (1,["org.example.clock","2.0.0","1.2.0","1.6.0"],forkEntries) := by
  decide +kernel

theorem forkFiles_accepted : (validatePackage forkPackageLib PackageLimits.default forkLib
    (storedArchive fork.files)).toOption.isSome = true := by
  rw [← Option.isSome_map, forkFiles_summary]
  rfl

def forkPackage : ValidatedPackage forkLib := Option.get _ forkFiles_accepted

theorem forkPackage_undisturbed :
    Undisturbed forkPackageLib (callOf fork.files) forkPackage OrdMap.empty :=
  ⟨Checked.eq_ok_get forkFiles_accepted,has_empty _,has_empty _,rfl⟩

theorem forkPackage_summary : forkPackage.summary =
    (1,["org.example.clock","2.0.0","1.2.0","1.6.0"],forkEntries) := by
  have hsummary := forkFiles_summary
  rw [Checked.eq_ok_get forkFiles_accepted] at hsummary
  exact Option.some.inj hsummary

theorem forkPackage_entries : forkPackage.files.entries = forkEntries := by
  have hsummary := forkPackage_summary
  rw [ValidatedPackage.summary, Prod.mk.injEq, Prod.mk.injEq] at hsummary
  exact hsummary.2.2

theorem fork_digests :
    (OrdMap.ofList (forkEntries.map (fun e =>
      (e.1,hexEncode (fileDigest forkLib.signature.sha256 e.2).bytes)))).entries =
        (fork.metadata 20 .unsigned).files.entries ∧
    hexEncode (forkLib.signature.sha256 (forkEntries.flatMap digestEntry)).bytes =
      (fork.metadata 20 .unsigned).digest := by
  decide +kernel

theorem forkPackage_metadata (installedAt : UnixSeconds) (trust : InstallationTrust) :
    forkPackage.metadataFor "clock.floatile" installedAt trust =
      fork.metadata installedAt.value trust := by
  have hsummary := forkPackage_summary
  simp only [ValidatedPackage.summary, Prod.mk.injEq, List.cons.injEq, and_true] at hsummary
  obtain ⟨hversion,⟨hid,hpluginVersion,hengine,hui⟩,hentries⟩ := hsummary
  obtain ⟨hfiles,hdigest⟩ := fork_digests
  rw [← hentries] at hfiles hdigest
  simp only [ValidatedPackage.metadataFor, ValidatedPackage.metadata, hversion, hid,
    hpluginVersion, hengine, hui, OrdMap.eq_of_entries_eq hfiles, contentDigest, hdigest]
  rfl

/-- The text starts with a brace. -/
theorem all_zero_metaJson (m : InstallMeta) : (metaJson m).all (fun b => b = 0) = false := by
  have hbrace : utf8 "\x7b" = [123] := by decide +kernel
  rw [metaJson, metaPieces, List.cons_append, List.cons_append, List.flatMap_cons, hbrace]
  rfl

/-- The metadata of the fork are read back at every time. -/
theorem forkLib_reads_back (installedAt : ℕ) :
    forkLib.decodeMeta (forkLib.encodeMeta (fork.metadata installedAt .unsigned)) =
      .ok (fork.metadata installedAt .unsigned) := by
  have hencode : ∀ m, forkLib.encodeMeta m = encodeAt m := fun _ => rfl
  rw [hencode, encodeAt, show (fork.metadata installedAt .unsigned).installedAt = installedAt from
    rfl]
  by_cases htime : installedAt = 20
  · subst htime
    simp only [if_true, forkLib, all_zero_metaJson, Bool.false_eq_true, if_false]
    simp [releaseLib]
  · rw [if_neg htime]
    simp [forkLib]

theorem forkPackage_roundTrips :
    RoundTrips forkLib forkPackageLib (callOf fork.files) forkPackage OrdMap.empty := by
  have hmem : ∀ name bytes, forkPackage.files.get name = some bytes →
      name ∈ forkEntries.map Prod.fst := by
    intro name bytes hname
    rw [← forkPackage_entries]
    exact List.mem_map_of_mem ((OrdMap.mem_entries_iff _ _ _).mpr hname)
  have hbelow : ∀ name ∈ forkEntries.map Prod.fst, name ≠ "install.json" ∧
      isDirOf "install.json" name = false ∧
        ∀ name' ∈ forkEntries.map Prod.fst, isDirOf name name' = false := by
    decide +kernel
  have hunobstructed : Unobstructed forkPackage.files := by
    refine ⟨?_,fun name bytes hname => (hbelow name (hmem _ _ hname)).2.1,
      fun name bytes name' bytes' hname hname' =>
        (hbelow name (hmem _ _ hname)).2.2 name' (hmem _ _ hname')⟩
    rw [Option.eq_none_iff_forall_ne_some]
    exact fun bytes hmeta => (hbelow _ (hmem _ _ hmeta)).1 rfl
  refine (installPackage_roundTrips_iff (callOf fork.files) forkPackage OrdMap.empty
    forkPackage_undisturbed fun installedAt => ?_).mpr hunobstructed ⟨20,by decide⟩
  rw [show (callOf fork.files).source = "clock.floatile" from rfl, forkPackage_metadata]
  exact forkLib_reads_back installedAt.value

/-- The installation of the second archive leaves nothing that can be read back. -/
theorem extraFiles_unread : (validatePackage forkPackageLib PackageLimits.default forkLib
    (storedArchive extraFiles)).toOption.map (fun package =>
      (loadExact forkLib (installPackage forkLib forkPackageLib (callOf extraFiles)
        OrdMap.empty).2 package.manifest.id.text package.manifest.version).toOption.isSome) =
    some false := by
  decide +kernel

/-- The archive with a file of its own in the place of the metadata is accepted, and its
installation does not read back. -/
theorem extraFiles_not_roundTrips : ∃ package,
    @Undisturbed _ forkLib forkPackageLib (callOf extraFiles) package OrdMap.empty ∧
    ¬RoundTrips forkLib forkPackageLib (callOf extraFiles) package OrdMap.empty := by
  obtain ⟨package,hpackage,hunread⟩ := Option.map_eq_some_iff.mp extraFiles_unread
  refine ⟨package,⟨Checked.toOption_eq_some.mp hpackage,has_empty _,has_empty _,rfl⟩,?_⟩
  rintro ⟨_,loaded,_,-,hloaded,-⟩
  rw [hloaded] at hunread
  cases hunread

end Floatile.Cli
