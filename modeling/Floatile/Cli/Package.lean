import Floatile.Core.Instance
import Floatile.Store.Installation
import Floatile.UiSchema.Validate

/-! Validation of a package archive before its installation. The archive format, the JSON of a
document, the component format and the case mapping of Unicode come from external libraries and
are parameters. -/
namespace Floatile.Cli

open Floatile.Core
open Floatile.Lib
open Floatile.Lib.Checked (reject)
open Floatile.Store
open Floatile.UiSchema (UiDocument UiSchemaError validateDocument)

/-- The budget of a package. -/
structure PackageLimits where
  maxArchiveBytes : ℕ
  maxEntries : ℕ
  maxUncompressedTotal : ℕ
  maxSingleEntry : ℕ
  maxCompressionRatio : ℕ

def PackageLimits.default : PackageLimits where
  maxArchiveBytes := 8 * 1024 * 1024
  maxEntries := 256
  maxUncompressedTotal := 64 * 1024 * 1024
  maxSingleEntry := 16 * 1024 * 1024
  maxCompressionRatio := 200

inductive PackageError where
  | archiveTooLarge (actual limit : ℕ)
  | tooManyEntries (actual limit : ℕ)
  | uncompressedTooLarge (detail : String)
  | entryTooLarge (detail : String)
  | zipBomb (detail : String)
  | corruptZip (detail : String)
  | invalidPath (detail : String)
  | duplicatePath (path : String)
  | caseCollision (path : String)
  | specialEntry (path : String)
  | missingManifest
  | invalidManifest (error : ManifestError)
  | missingEntrypoint (path : String)
  | invalidUiIr (error : UiSchemaError)
  | invalidWasm (detail : String)
  | disallowedImport (name : String)
  | missingWorldExport
  | invalidJson (detail : String)
  | invalidConfigSchema (detail : String)
  deriving DecidableEq

/-- An entry of an archive. Its data may turn out to be damaged when it is read. -/
structure ZipEntry where
  name : String
  unixMode : Option ℕ
  size : ℕ
  compressedSize : ℕ
  isDir : Bool
  data : Except String (List UInt8)

/-- The entries of an archive by their index; one that cannot be opened is an error. -/
abbrev ZipArchive := List (Except String ZipEntry)

/-- The names of what a component imports and exports. -/
structure ComponentType where
  imports : List String
  exports : List String

/-- The external functions behind a package. -/
structure PackageLib where
  openArchive : List UInt8 → Except String ZipArchive
  toLowercase : String → String
  parseJson : List UInt8 → Except String Json
  parseDocument : List UInt8 → Except String UiDocument
  irBytes : UiDocument → Except String ℕ
  parseComponent : List UInt8 → Except String ComponentType

/-- What the pass over the entries has seen: the names, the names in lower case, the total size
and the entries. -/
structure Scan where
  normalized : List String
  lowercase : List String
  totalUncompressed : ℕ
  entries : List ZipEntry

def Scan.empty : Scan := ⟨[],[],0,[]⟩

/-- Links, devices, pipes and sockets. -/
def isSpecial (mode : ℕ) : Bool :=
  [0o120000,0o020000,0o060000,0o010000,0o140000].contains (mode &&& 0o170000)

section Validation

variable (plib : PackageLib) (limits : PackageLimits)

/-- The checks of one entry, in the order of the source. -/
def scanEntry (scan : Scan) (opened : Except String ZipEntry) : Except PackageError Scan := do
  let file ← opened.mapError PackageError.corruptZip
  (validatePackagePath file.name).mapError (fun e => PackageError.invalidPath e.display)
  reject (256 < Text.charCount file.name) (.invalidPath s!"{file.name}: 路径过长")
  reject (file.name ∈ scan.normalized) (.duplicatePath file.name)
  reject (plib.toLowercase file.name ∈ scan.lowercase) (.caseCollision file.name)
  reject (file.unixMode.any isSpecial) (.specialEntry file.name)
  reject (limits.maxSingleEntry < file.size)
    (.entryTooLarge s!"{file.name}: {file.size} > {limits.maxSingleEntry}")
  let total := scan.totalUncompressed + file.size
  reject (limits.maxUncompressedTotal < total)
    (.uncompressedTooLarge s!"{total} > {limits.maxUncompressedTotal}")
  let ratio := file.size / file.compressedSize
  reject (0 < file.compressedSize ∧ limits.maxCompressionRatio < ratio)
    (.zipBomb s!"{file.name}: ratio {ratio}")
  .ok {
    normalized := file.name :: scan.normalized
    lowercase := plib.toLowercase file.name :: scan.lowercase
    totalUncompressed := total
    entries := scan.entries ++ [file] }

/-- The entry with a name. -/
def byName (archive : ZipArchive) (path : String) : Option ZipEntry :=
  (archive.filterMap Except.toOption).find? (fun file => file.name = path)

def readEntry (archive : ZipArchive) (path : String) : Except PackageError (List UInt8) :=
  match byName archive path with
  | none => .error (.missingEntrypoint path)
  | some file =>
    if file.isDir then .error (.missingEntrypoint s!"{path}: 是目录而非文件")
    else file.data.mapError PackageError.corruptZip

def readManifest (archive : ZipArchive) : Except PackageError (List UInt8) :=
  match readEntry archive "manifest.json" with
  | .error (.missingEntrypoint _) => .error .missingManifest
  | other => other

/-- The files of the archive; its directories are left out. -/
def readFiles (archive : ZipArchive) (entries : List ZipEntry) :
    Except PackageError (List (String × List UInt8)) :=
  (entries.filter (fun file => !file.isDir)).mapM fun file => do
    let bytes ← readEntry archive file.name
    .ok (file.name,bytes)

def maxConfigSchemaBytes : ℕ := 64 * 1024

def maxConfigSchemaDepth : ℕ := 32

def ensureSchemaDepth (depth : ℕ) : Except PackageError Unit :=
  reject (maxConfigSchemaDepth < depth)
    (.invalidConfigSchema s!"超过最大深度 {maxConfigSchemaDepth}")

mutual

def checkSchemaDepth (depth : ℕ) : Json → Except PackageError Unit
  | .array items => do
    ensureSchemaDepth depth
    checkItemsDepth depth items
  | .object fields => do
    ensureSchemaDepth depth
    checkFieldsDepth depth fields
  | .null | .bool _ | .number _ | .string _ => ensureSchemaDepth depth

def checkItemsDepth (depth : ℕ) : List Json → Except PackageError Unit
  | [] => .ok ()
  | item :: items => do
    checkSchemaDepth (depth + 1) item
    checkItemsDepth depth items

def checkFieldsDepth (depth : ℕ) : List (String × Json) → Except PackageError Unit
  | [] => .ok ()
  | (key,item) :: fields => do
    reject (isExternal key item)
      (.invalidConfigSchema s!"{key} 只允许引用当前 schema 内的 fragment")
    checkSchemaDepth (depth + 1) item
    checkFieldsDepth depth fields

end

def validateConfigSchema (bytes : List UInt8) : Except PackageError Unit := do
  reject (maxConfigSchemaBytes < bytes.length)
    (.invalidConfigSchema s!"大小 {bytes.length} 超过上限 {maxConfigSchemaBytes}")
  let value ← (plib.parseJson bytes).mapError
    (fun e => PackageError.invalidConfigSchema s!"JSON 解析失败: {e}")
  reject (value.isObject = false) (.invalidConfigSchema "根必须是 JSON object")
  checkSchemaDepth 0 value

/-- The schema file has to be there when the manifest names one. -/
def checkConfig (archive : ZipArchive) (manifest : Manifest) : Except PackageError Unit :=
  match manifest.config with
  | none => .ok ()
  | some config => do
    let schema ← readEntry archive config.schema.text
    validateConfigSchema plib schema

def allowedImport (name : String) : Bool :=
  Text.startsWith name "floatile:widget" || Text.startsWith name "wasi:"

/-- A component that imports nothing but the contract and WASI, and exports the contract. -/
def validateWasm (bytes : List UInt8) : Except PackageError Unit := do
  let type ← (plib.parseComponent bytes).mapError PackageError.invalidWasm
  type.imports.forM fun name => reject (allowedImport name = false) (.disallowedImport name)
  reject (type.exports.any (fun name => Text.startsWith name "floatile:widget/widget-contract") =
    false) .missingWorldExport

/-- A package whose manifest has been read from its files and validated. -/
structure ValidatedPackage {Version : Type} (lib : InstallLib Version) where
  manifest : Manifest
  files : Files
  manifestBytes : List UInt8
  manifestFile : files.get "manifest.json" = some manifestBytes
  parsed : lib.parseManifest manifestBytes = .ok manifest
  valid : validateManifest lib.versions.parse manifest = .ok ()

section Validate

variable {Version : Type} (lib : InstallLib Version)

theorem readManifest_eq_ok {archive : ZipArchive} {bytes : List UInt8} :
    readManifest archive = .ok bytes ↔ readEntry archive "manifest.json" = .ok bytes := by
  unfold readManifest
  split <;> simp_all

theorem scanEntry_eq_ok {scan scan' : Scan} {opened : Except String ZipEntry}
    (h : scanEntry plib limits scan opened = .ok scan') :
    ∃ file, opened = .ok file ∧ validatePackagePath file.name = .ok () ∧
      file.name ∉ scan.normalized ∧ scan'.normalized = file.name :: scan.normalized ∧
      scan'.entries = scan.entries ++ [file] := by
  simp only [scanEntry, Checked.bind_eq_ok, Checked.mapError_eq_ok, Checked.reject_eq_ok] at h
  obtain ⟨file,hopened,_,hpath,_,-,_,hnew,_,-,_,-,_,-,_,-,_,-,h⟩ := h
  obtain rfl := Except.ok.inj h
  exact ⟨file,hopened,hpath,hnew,rfl,rfl⟩

/-- The pass keeps the entries of the archive, with names of the right form and each once. -/
theorem scanEntries_eq_ok (archive : ZipArchive) {scan scan' : Scan}
    (h : archive.foldlM (scanEntry plib limits) scan = .ok scan') :
    scan'.entries = scan.entries ++ archive.filterMap Except.toOption ∧
      (∀ file ∈ archive.filterMap Except.toOption, validatePackagePath file.name = .ok () ∧
        file.name ∉ scan.normalized) ∧
      ((archive.filterMap Except.toOption).map ZipEntry.name).Nodup := by
  induction archive generalizing scan with
  | nil =>
    obtain rfl := Except.ok.inj h
    simp
  | cons opened archive ih =>
    rw [List.foldlM_cons, Checked.bind_eq_ok] at h
    obtain ⟨next,hnext,hrest⟩ := h
    obtain ⟨file,rfl,hpath,hnew,hnormalized,hentries⟩ := scanEntry_eq_ok plib limits hnext
    obtain ⟨ihentries,ihpaths,ihnodup⟩ := ih hrest
    simp only [hnormalized, List.mem_cons, not_or] at ihpaths
    rw [List.filterMap_cons_some (Checked.toOption_ok file)]
    refine ⟨?_,?_,?_⟩
    · rw [ihentries, hentries, List.append_assoc, List.singleton_append]
    · refine List.forall_mem_cons.mpr ⟨⟨hpath,hnew⟩,fun f hf => ?_⟩
      exact ⟨(ihpaths f hf).1,(ihpaths f hf).2.2⟩
    · rw [List.map_cons, List.nodup_cons]
      refine ⟨fun hmem => ?_,ihnodup⟩
      obtain ⟨f,hf,hname⟩ := List.mem_map.mp hmem
      exact (ihpaths f hf).2.1 hname

/-- What is read under a name is a file of the archive. -/
theorem readEntry_eq_ok {archive : ZipArchive} {path : String} {bytes : List UInt8}
    (h : readEntry archive path = .ok bytes) :
    ∃ file ∈ archive.filterMap Except.toOption, file.name = path ∧ file.isDir = false := by
  unfold readEntry at h
  split at h
  · cases h
  · next file hfile =>
    split_ifs at h with hdir
    refine ⟨file,List.mem_of_find?_eq_some hfile,?_,by simpa using hdir⟩
    simpa using List.find?_some hfile

theorem mem_readFiles {archive : ZipArchive} {entries : List ZipEntry}
    {files : List (String × List UInt8)} (h : readFiles archive entries = .ok files)
    {e : String × List UInt8} (he : e ∈ files) : readEntry archive e.1 = .ok e.2 := by
  obtain ⟨file,-,hfile⟩ := Checked.exists_of_mem_mapM h he
  obtain ⟨bytes,hbytes,heq⟩ := Checked.bind_eq_ok.mp hfile
  obtain rfl := Except.ok.inj heq
  exact hbytes

/-- A file that can be read is among the collected ones. -/
theorem readFiles_get {archive : ZipArchive} {files : List (String × List UInt8)}
    (h : readFiles archive (archive.filterMap Except.toOption) = .ok files) {path : String}
    {bytes : List UInt8} (hread : readEntry archive path = .ok bytes) :
    (OrdMap.ofList files).get path = some bytes := by
  obtain ⟨file,hfile,rfl,hdir⟩ := readEntry_eq_ok hread
  have hmem : file ∈ (archive.filterMap Except.toOption).filter (fun f => !f.isDir) :=
    List.mem_filter.mpr ⟨hfile,by simp [hdir]⟩
  obtain ⟨e,he,hcollected⟩ := Checked.exists_mem_of_mapM h hmem
  rw [hread, Checked.ok_bind] at hcollected
  obtain rfl := Except.ok.inj hcollected
  obtain ⟨found,hfound⟩ := Option.isSome_iff_exists.mp (SortedMap.find_ofList_isSome_of_mem he)
  have hsame := mem_readFiles h (OrdMap.mem_of_get_ofList hfound)
  rw [hread] at hsame
  rw [Except.ok.inj hsame]
  exact hfound

/-- Validation of an archive, in the order of the source. -/
def validatePackage (bytes : List UInt8) : Except PackageError (ValidatedPackage lib) := do
  reject (limits.maxArchiveBytes < bytes.length)
    (.archiveTooLarge bytes.length limits.maxArchiveBytes)
  let archive ← (plib.openArchive bytes).mapError PackageError.corruptZip
  reject (limits.maxEntries < archive.length) (.tooManyEntries archive.length limits.maxEntries)
  match hscan : archive.foldlM (scanEntry plib limits) Scan.empty with
  | .error e => .error e
  | .ok scan =>
  match hmanifest : readManifest archive with
  | .error e => .error e
  | .ok manifestBytes =>
  match hparsed : lib.parseManifest manifestBytes with
  | .error e => .error (.invalidJson e)
  | .ok manifest =>
  match hvalid : validateManifest lib.versions.parse manifest with
  | .error e => .error (.invalidManifest e)
  | .ok () => do
    let uiPath := manifest.entrypoints.ui.text
    let uiBytes ← readEntry archive uiPath
    let wasmBytes ← readEntry archive manifest.entrypoints.logic.text
    checkConfig plib archive manifest
    let document ← (plib.parseDocument uiBytes).mapError
      (fun e => PackageError.invalidJson s!"{uiPath}: {e}")
    (validateDocument plib.irBytes document).mapError PackageError.invalidUiIr
    validateWasm plib wasmBytes
    match hfiles : readFiles archive scan.entries with
    | .error e => .error e
    | .ok files => .ok {
        manifest := manifest
        files := OrdMap.ofList files
        manifestBytes := manifestBytes
        manifestFile := by
          rw [(scanEntries_eq_ok plib limits archive hscan).1] at hfiles
          exact readFiles_get hfiles (readManifest_eq_ok.mp hmanifest)
        parsed := hparsed
        valid := hvalid }

end Validate

end Validation

end Floatile.Cli
