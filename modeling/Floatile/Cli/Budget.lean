import Floatile.Cli.Accepted
import Floatile.Cli.RoundTrip
import Mathlib.Data.List.MinMax

/-! The budget of a package. The checks compare the sizes that the headers of an archive declare,
and reading an entry afterwards has no limit of its own. -/
namespace Floatile.Cli

open Floatile.Core
open Floatile.Lib
open Floatile.Lib.Checked (reject)
open Floatile.Store

/-- The number of bytes that reading an entry gives. Directories are not read. -/
def ZipEntry.produced (file : ZipEntry) : ℕ :=
  match file.isDir, file.data with
  | false, .ok bytes => bytes.length
  | _, _ => 0

/-- What the entries decompress to is within the limits for a file and for all together. -/
structure WithinBudget (limits : PackageLimits) (archive : ZipArchive) : Prop where
  single : ∀ file ∈ openedEntries archive, file.produced ≤ limits.maxSingleEntry
  total : ((openedEntries archive).map ZipEntry.produced).sum ≤ limits.maxUncompressedTotal

/-- The headers declare as much as there is: no entry gives more than the largest declared size,
and all entries give no more than the declared sizes together. -/
structure DeclaresEnough (archive : ZipArchive) : Prop where
  single : ∀ file ∈ openedEntries archive, ∃ declared ∈ openedEntries archive,
    file.produced ≤ declared.size
  total : ((openedEntries archive).map ZipEntry.produced).sum ≤
    ((openedEntries archive).map ZipEntry.size).sum

section Scan

variable {plib : PackageLib} {limits limits' : PackageLimits} {scan scan' : Scan}

/-- The limits on the size of a file and of all files are tested on the declared sizes. -/
theorem scanEntry_sizes {opened : Except String ZipEntry}
    (h : scanEntry plib limits scan opened = .ok scan') : ∃ file, opened = .ok file ∧
      file.size ≤ limits.maxSingleEntry ∧
      scan'.totalUncompressed = scan.totalUncompressed + file.size ∧
      scan'.totalUncompressed ≤ limits.maxUncompressedTotal := by
  simp only [scanEntry, Checked.bind_eq_ok, Checked.mapError_eq_ok, Checked.reject_eq_ok] at h
  obtain ⟨file,rfl,_,-,_,-,_,-,_,-,_,-,_,hsingle,_,htotal,_,-,h⟩ := h
  obtain rfl := Except.ok.inj h
  exact ⟨file,rfl,not_lt.mp hsingle,rfl,not_lt.mp htotal⟩

/-- An entry passes under other limits as well when they leave room for its declared size. -/
theorem scanEntry_under {opened : Except String ZipEntry}
    (h : scanEntry plib limits scan opened = .ok scan')
    (hratio : limits'.maxCompressionRatio = limits.maxCompressionRatio)
    (hsingle : ∀ file, opened = .ok file → file.size ≤ limits'.maxSingleEntry)
    (htotal : scan'.totalUncompressed ≤ limits'.maxUncompressedTotal) :
    scanEntry plib limits' scan opened = .ok scan' := by
  simp only [scanEntry, Checked.bind_eq_ok, Checked.mapError_eq_ok, Checked.reject_eq_ok] at h ⊢
  obtain ⟨file,rfl,_,hpath,_,hlong,_,hnew,_,hcase,_,hspecial,_,-,_,-,_,hbomb,h⟩ := h
  obtain rfl := Except.ok.inj h
  exact ⟨file,rfl,(),hpath,(),hlong,(),hnew,(),hcase,(),hspecial,(),
    not_lt.mpr (hsingle file rfl),(),not_lt.mpr htotal,(),hratio ▸ hbomb,rfl⟩

theorem scan_sizes (archive : ZipArchive)
    (h : archive.foldlM (scanEntry plib limits) scan = .ok scan') :
    (∀ file ∈ openedEntries archive, file.size ≤ limits.maxSingleEntry) ∧
    scan'.totalUncompressed =
      scan.totalUncompressed + ((openedEntries archive).map ZipEntry.size).sum ∧
    (scan.totalUncompressed ≤ limits.maxUncompressedTotal →
      scan'.totalUncompressed ≤ limits.maxUncompressedTotal) := by
  induction archive generalizing scan with
  | nil =>
    obtain rfl := Except.ok.inj h
    simp [openedEntries]
  | cons opened archive ih =>
    rw [List.foldlM_cons, Checked.bind_eq_ok] at h
    obtain ⟨next,hnext,hrest⟩ := h
    obtain ⟨file,rfl,hsingle,hadded,htotal⟩ := scanEntry_sizes hnext
    obtain ⟨ihsingle,ihadded,ihtotal⟩ := ih hrest
    rw [openedEntries, List.filterMap_cons_some (Checked.toOption_ok file)]
    refine ⟨List.forall_mem_cons.mpr ⟨hsingle,ihsingle⟩,?_,fun _ => ihtotal htotal⟩
    rw [ihadded, hadded, List.map_cons, List.sum_cons, add_assoc]
    rfl

theorem scan_under (archive : ZipArchive)
    (h : archive.foldlM (scanEntry plib limits) scan = .ok scan')
    (hratio : limits'.maxCompressionRatio = limits.maxCompressionRatio)
    (hsingle : ∀ file ∈ openedEntries archive, file.size ≤ limits'.maxSingleEntry)
    (htotal : scan'.totalUncompressed ≤ limits'.maxUncompressedTotal) :
    archive.foldlM (scanEntry plib limits') scan = .ok scan' := by
  induction archive generalizing scan with
  | nil => exact h
  | cons opened archive ih =>
    rw [List.foldlM_cons, Checked.bind_eq_ok] at h ⊢
    obtain ⟨next,hnext,hrest⟩ := h
    obtain ⟨file,rfl,-,-,-⟩ := scanEntry_sizes hnext
    rw [openedEntries, List.filterMap_cons_some (Checked.toOption_ok file)] at hsingle
    obtain ⟨hfile,hfiles⟩ := List.forall_mem_cons.mp hsingle
    have hadded := (scan_sizes archive hrest).2.1
    refine ⟨next,scanEntry_under hnext hratio (fun file' hfile' => ?_) (by omega),
      ih hrest hfiles⟩
    obtain rfl := Except.ok.inj hfile'
    exact hfile

end Scan

section Budget

variable {plib : PackageLib} {limits limits' : PackageLimits} {Version : Type}
  {lib : InstallLib Version} {bytes : List UInt8} {archive : ZipArchive}
  {package : ValidatedPackage lib}

/-- The declared sizes are within the limits. -/
theorem Accepts.sizes (h : Accepts plib limits lib bytes archive package) :
    (∀ file ∈ openedEntries archive, file.size ≤ limits.maxSingleEntry) ∧
    ((openedEntries archive).map ZipEntry.size).sum ≤ limits.maxUncompressedTotal := by
  obtain ⟨scan,hscan⟩ := h.scanned
  obtain ⟨hsingle,hadded,htotal⟩ := scan_sizes archive hscan
  have hlimit := htotal (Nat.zero_le _)
  rw [hadded] at hlimit
  exact ⟨hsingle,le_trans (Nat.le_add_left _ _) hlimit⟩

/-- An accepted archive is accepted under limits that just leave room for what it declares. -/
theorem Accepts.under (h : Accepts plib limits lib bytes archive package)
    (hbytes : limits'.maxArchiveBytes = limits.maxArchiveBytes)
    (hentries : limits'.maxEntries = limits.maxEntries)
    (hratio : limits'.maxCompressionRatio = limits.maxCompressionRatio)
    (hsingle : ∀ file ∈ openedEntries archive, file.size ≤ limits'.maxSingleEntry)
    (htotal : ((openedEntries archive).map ZipEntry.size).sum ≤ limits'.maxUncompressedTotal) :
    Accepts plib limits' lib bytes archive package where
  size := hbytes ▸ h.size
  opened := h.opened
  count := hentries ▸ h.count
  scanned := by
    obtain ⟨scan,hscan⟩ := h.scanned
    have hadded := (scan_sizes archive hscan).2.1
    refine ⟨scan,scan_under archive hscan hratio hsingle ?_⟩
    rw [hadded]
    exact (Nat.zero_add _).trans_le htotal
  manifest := h.manifest
  content := h.content
  files := h.files

theorem byName_of_mem (hnodup : ((openedEntries archive).map ZipEntry.name).Nodup)
    {file : ZipEntry} (hfile : file ∈ openedEntries archive) :
    byName archive file.name = some file := by
  unfold byName
  change (openedEntries archive).find? _ = some file
  generalize openedEntries archive = entries at hnodup hfile
  induction entries with
  | nil => cases hfile
  | cons e entries ih =>
    rw [List.map_cons, List.nodup_cons] at hnodup
    rcases List.mem_cons.mp hfile with rfl | hfile
    · simp
    · have hne : e.name ≠ file.name := fun hname =>
        hnodup.1 (hname ▸ List.mem_map_of_mem hfile)
      rw [List.find?_cons_of_neg (by simpa using hne)]
      exact ih hnodup.2 hfile

/-- What reading gives for a file is in the package, and is as long as counted. -/
theorem Accepts.produced (h : Accepts plib limits lib bytes archive package) {file : ZipEntry}
    (hfile : file ∈ openedEntries archive) (hdir : file.isDir = false) :
    ∃ content, package.files.get file.name = some content ∧ content.length = file.produced := by
  obtain ⟨scan,hscan⟩ := h.scanned
  obtain ⟨files,hfiles,hpackage⟩ := h.files
  have hnodup : ((openedEntries archive).map ZipEntry.name).Nodup :=
    (scanEntries_eq_ok plib limits archive hscan).2.2
  have hmem : file ∈ (openedEntries archive).filter (fun f => !f.isDir) :=
    List.mem_filter.mpr ⟨hfile,by simp [hdir]⟩
  obtain ⟨e,-,hread⟩ := Checked.exists_mem_of_mapM hfiles hmem
  obtain ⟨content,hcontent,-⟩ := Checked.bind_eq_ok.mp hread
  refine ⟨content,hpackage ▸ readFiles_get hfiles hcontent,?_⟩
  rw [readEntry, byName_of_mem hnodup hfile] at hcontent
  simp only [hdir, Bool.false_eq_true, if_false, Checked.mapError_eq_ok] at hcontent
  rw [ZipEntry.produced, hdir, hcontent]

/-- What an accepted archive decompresses to is within every budget under which it is accepted,
if and only if its headers declare as much as there is. -/
theorem within_every_budget_iff (h : validatePackage plib limits lib bytes = .ok package)
    (hopened : plib.openArchive bytes = .ok archive) :
    (∀ limits' package', validatePackage plib limits' lib bytes = .ok package' →
      WithinBudget limits' archive) ↔ DeclaresEnough archive := by
  obtain ⟨archive',haccepts⟩ := exists_accepts h
  obtain rfl := Except.ok.inj (hopened.symm.trans haccepts.opened)
  constructor
  · intro hall
    cases hlargest : List.argmax ZipEntry.size (openedEntries archive) with
    | none =>
      have hempty : openedEntries archive = [] := List.argmax_eq_none.mp hlargest
      exact ⟨by simp [hempty],by simp [hempty]⟩
    | some largest =>
      -- the tightest limits under which the archive is accepted
      have htight : Accepts plib { limits with
          maxSingleEntry := largest.size
          maxUncompressedTotal := ((openedEntries archive).map ZipEntry.size).sum }
          lib bytes archive package :=
        haccepts.under rfl rfl rfl (fun file hfile => List.le_of_mem_argmax hfile hlargest) le_rfl
      have hwithin := hall _ _ htight.validated
      exact ⟨fun file hfile => ⟨largest,List.argmax_mem hlargest,hwithin.single file hfile⟩,
        hwithin.total⟩
  · rintro ⟨hsingle,htotal⟩ limits' package' h'
    obtain ⟨archive',haccepts'⟩ := exists_accepts h'
    obtain rfl := Except.ok.inj (hopened.symm.trans haccepts'.opened)
    obtain ⟨hsizes,hsum⟩ := haccepts'.sizes
    refine ⟨fun file hfile => ?_,htotal.trans hsum⟩
    obtain ⟨declared,hdeclared,hle⟩ := hsingle file hfile
    exact hle.trans (hsizes declared hdeclared)

end Budget

def forkManifestFile : StoredFile := ⟨"manifest.json",fork.manifestCrc,fork.manifestBytes⟩

/-- The entries of the clock and one more. -/
def archiveWith (extra : ZipEntry) : ZipArchive :=
  (clockFiles forkManifestFile).map (fun file => .ok file.zipEntry) ++ [.ok extra]

/-- The external functions on an archive of the clock with one more entry. -/
def packageLibWith (bytes : List UInt8) (extra : ZipEntry) (toLowercase : String → String) :
    PackageLib := { forkPackageLib with
  openArchive := fun input =>
    if input = bytes then .ok (archiveWith extra)
    else .error "invalid Zip archive: Could not find EOCD"
  toLowercase := toLowercase }

/-- The clock with one more file under another name is a package when its entries pass. -/
theorem exists_packageWith {bytes content : List UInt8} {extra : ZipEntry}
    {toLowercase : String → String} {limits : PackageLimits}
    (hname : extra.name ∉ (clockFiles forkManifestFile).map StoredFile.name)
    (hdir : extra.isDir = false) (hdata : extra.data = .ok content)
    (hsize : bytes.length ≤ limits.maxArchiveBytes) (hcount : 4 ≤ limits.maxEntries)
    (hscan : ((archiveWith extra).foldlM
      (scanEntry (packageLibWith bytes extra toLowercase) limits) Scan.empty).toOption.isSome) :
    ∃ package, validatePackage (packageLibWith bytes extra toLowercase) limits forkLib bytes =
      .ok package := by
  have hopened : (packageLibWith bytes extra toLowercase).openArchive bytes =
      .ok (archiveWith extra) := if_pos rfl
  have hread : ∀ file ∈ clockFiles forkManifestFile,
      readEntry (archiveWith extra) file.name = .ok file.bytes := by
    intro file hfile
    simp only [clockFiles, List.mem_cons, List.not_mem_nil, or_false] at hfile
    rcases hfile with rfl | rfl | rfl <;> rfl
  have hextra : readEntry (archiveWith extra) extra.name = .ok content := by
    simp only [clockFiles, forkManifestFile, List.map_cons, List.map_nil, List.mem_cons,
      List.not_mem_nil, or_false, not_or] at hname
    obtain ⟨hmanifest,hui,hlogic⟩ := hname
    simp [readEntry, byName, archiveWith, clockFiles, forkManifestFile, StoredFile.zipEntry,
      Except.toOption, Ne.symm hmanifest, Ne.symm hui, Ne.symm hlogic, hdir, hdata,
      Except.mapError]
  have hmanifest : readManifest (archiveWith extra) = .ok fork.manifestBytes :=
    readManifest_eq_ok.mpr (hread forkManifestFile (by simp [clockFiles]))
  have hfiles : readFiles (archiveWith extra) (openedEntries (archiveWith extra)) = .ok
      ((clockFiles forkManifestFile).map (fun file => (file.name,file.bytes)) ++
        [(extra.name,content)]) := by
    have hentries : (openedEntries (archiveWith extra)).filter (fun file => !file.isDir) =
        (clockFiles forkManifestFile).map StoredFile.zipEntry ++ [extra] := by
      simp [openedEntries, archiveWith, clockFiles, Except.toOption, StoredFile.zipEntry, hdir]
    rw [readFiles, hentries, Checked.mapM_eq_ok_iff]
    refine List.rel_append ?_ (.cons (Checked.bind_eq_ok.mpr ⟨content,hextra,rfl⟩) .nil)
    rw [List.forall₂_map_left_iff, List.forall₂_map_right_iff, List.forall₂_same]
    exact fun file hfile => Checked.bind_eq_ok.mpr ⟨file.bytes,hread file hfile,rfl⟩
  have hmanifestFile := readFiles_get hfiles (readManifest_eq_ok.mp hmanifest)
  let package : ValidatedPackage forkLib := {
    manifest := fork.manifest
    files := _
    manifestBytes := fork.manifestBytes
    manifestFile := hmanifestFile
    parsed := by simp [forkLib, releaseLib]
    valid := rfl }
  obtain ⟨scan,hscan⟩ := Option.isSome_iff_exists.mp hscan
  have haccepts : Accepts (packageLibWith bytes extra toLowercase) limits forkLib bytes
      (archiveWith extra) package := {
    size := hsize
    opened := hopened
    count := hcount
    scanned := ⟨scan,Checked.toOption_eq_some.mp hscan⟩
    manifest := hmanifest
    content := {
      ui := ⟨documentBytes,rfl,clockDocument,by
        simp [packageLibWith, forkPackageLib, packageLibOf],rfl⟩
      logic := ⟨clockWasm,rfl,by
        simp [validateWasm, packageLibWith, forkPackageLib, packageLibOf]
        decide⟩
      config := rfl }
    files := ⟨_,hfiles,rfl⟩ }
  exact ⟨package,haccepts.validated⟩

/-- A thousand zeros in compressed form under a header that declares one byte. -/
def blob : ZipEntry where
  name := "assets/blob.bin"
  unixMode := none
  size := 1
  compressedSize := 11
  isDir := false
  data := .ok (List.replicate 1000 0)

/-- What both headers of that file record. -/
def blobRecord : List UInt8 :=
  [0,0,8,0,0,0,33,0] ++ leBytes 4 101390208 ++ leBytes 4 11 ++ leBytes 4 1 ++ leBytes 2 15 ++ [0,0]

/-- The archive of the clock with that file at the end. -/
def blobArchive : List UInt8 :=
  let (parts,directory) := StoredFile.sections 0 (clockFiles forkManifestFile)
  let part := [80,75,3,4,20,0] ++ blobRecord ++ utf8 blob.name ++
    [99,96,24,5,163,96,20,12,119,0,0]
  let header := [80,75,1,2,20,0,20,0] ++ blobRecord ++ List.replicate 10 0 ++
    leBytes 4 parts.length ++ utf8 blob.name
  parts ++ part ++ directory ++ header ++ [80,75,5,6,0,0,0,0] ++ leBytes 2 4 ++ leBytes 2 4 ++
    leBytes 4 (directory.length + header.length) ++ leBytes 4 (parts.length + part.length) ++ [0,0]

def blobLib : PackageLib := packageLibWith blobArchive blob (fun name => name)

/-- Limits that leave room for 800 bytes in a file. -/
def narrowLimits : PackageLimits := { PackageLimits.default with maxSingleEntry := 800 }

theorem length_blobArchive : blobArchive.length ≤ narrowLimits.maxArchiveBytes := by
  decide +kernel

theorem blob_scanned : ((archiveWith blob).foldlM (scanEntry blobLib narrowLimits)
    Scan.empty).toOption.isSome := by
  decide +kernel

/-- The archive is accepted, and one of its files is longer than the limit for a file. -/
theorem blobArchive_exceeds :
    blobLib.openArchive blobArchive = .ok (archiveWith blob) ∧
    (∃ package, validatePackage blobLib narrowLimits forkLib blobArchive = .ok package) ∧
    ¬WithinBudget narrowLimits (archiveWith blob) := by
  have hopened : blobLib.openArchive blobArchive = .ok (archiveWith blob) := by
    simp [blobLib, packageLibWith]
  refine ⟨hopened,exists_packageWith (by decide) rfl rfl length_blobArchive (by decide)
    blob_scanned,fun h => ?_⟩
  have hmem : blob ∈ openedEntries (archiveWith blob) := by
    simp [openedEntries, archiveWith, Except.toOption]
  have hproduced : blob.produced = 1000 := List.length_replicate
  have hsingle := h.single blob hmem
  rw [hproduced] at hsingle
  exact absurd hsingle (by decide)

theorem forkFiles_within_budget :
    WithinBudget PackageLimits.default (fork.files.map (fun file => .ok file.zipEntry)) := by
  have haccepted := Checked.eq_ok_get forkFiles_accepted
  have hopened : forkPackageLib.openArchive (storedArchive fork.files) =
      .ok (fork.files.map (fun file => .ok file.zipEntry)) := by
    simp [forkPackageLib, packageLibOf]
  have hentries : openedEntries (fork.files.map (fun file => .ok file.zipEntry)) =
      fork.files.map StoredFile.zipEntry := by
    simp [openedEntries, List.filterMap_map, Function.comp_def, Except.toOption]
  have hproduced : ∀ file : StoredFile, file.zipEntry.produced = file.zipEntry.size :=
    fun _ => rfl
  refine (within_every_budget_iff haccepted hopened).mpr ⟨?_,?_⟩ _ _ haccepted
  · intro file hfile
    obtain ⟨stored,-,rfl⟩ := List.mem_map.mp (hentries ▸ hfile)
    exact ⟨stored.zipEntry,hfile,(hproduced stored).le⟩
  · rw [hentries, List.map_map, List.map_map]
    exact le_of_eq (congrArg List.sum (List.map_congr_left fun file _ => hproduced file))

end Floatile.Cli
