import Floatile.Cli.Budget
import Floatile.Lib.FilePath

/-! Where the entries of an accepted archive lead when their names are joined to a directory, on
systems with the paths of POSIX and on Windows. -/
namespace Floatile.Cli

open Floatile.Core
open Floatile.Lib
open Floatile.Lib.Checked (reject)
open Floatile.Store

/-- The name begins with the letter of a drive. -/
def hasDrive (name : String) : Bool :=
  match name.toList with
  | letter :: ':' :: _ => letter.isAlpha
  | _ => false

/-- The entries of an archive stay below every directory, and no two of them share a file there
where the case of ASCII letters does not count. -/
structure Confined (archive : ZipArchive) : Prop where
  below : ∀ file ∈ openedEntries archive, ∀ dir : FilePath,
    dir.Below (dir.join (.posix file.name)) ∧ dir.Below (dir.join (.windows file.name))
  distinct : ∀ dir : FilePath, (openedEntries archive).Pairwise fun a b =>
    ¬(dir.join (.posix a.name)).SameFile (dir.join (.posix b.name)) ∧
    ¬(dir.join (.windows a.name)).SameFile (dir.join (.windows b.name))

theorem validateSegments_eq_ok {path : String} {segments : List String}
    (h : validateSegments path segments = .ok ()) :
    ∀ segment ∈ segments, segment ≠ "" ∧ segment ≠ "." ∧ segment ≠ ".." := by
  induction segments with
  | nil => simp
  | cons segment segments ih =>
    unfold validateSegments at h
    simp only [Checked.ite_error_eq_ok, String.isEmpty_iff, not_or] at h
    obtain ⟨hempty,⟨hself,hparent⟩,hrest⟩ := h
    exact List.forall_mem_cons.mpr ⟨⟨hempty,hself,hparent⟩,ih hrest⟩

variable {name : String}

/-- What the check says of a name: no separator in front, no backslash, and proper segments. -/
theorem validatePackagePath_eq_ok (h : validatePackagePath name = .ok ()) :
    name.toList.head? ≠ some '/' ∧ '\\' ∉ name.toList ∧
    ∀ segment ∈ (name.toList.splitOn '/').map String.ofList,
      segment ≠ "" ∧ segment ≠ "." ∧ segment ≠ ".." := by
  unfold validatePackagePath at h
  simp only [Checked.ite_error_eq_ok, Bool.or_eq_true, not_or] at h
  obtain ⟨-,⟨hslash,-⟩,-,hbackslash,-,hsegments⟩ := h
  refine ⟨fun hhead => hslash ?_,?_,validateSegments_eq_ok hsegments⟩
  · obtain ⟨rest,hrest⟩ := List.head?_eq_some_iff.mp hhead
    simp [Text.startsWith, hrest]
  · simpa [Text.containsChar] using hbackslash

theorem namesOf_of_valid (h : validatePackagePath name = .ok ()) :
    FilePath.namesOf name.toList = (name.toList.splitOn '/').map String.ofList := by
  refine List.filter_eq_self.mpr fun segment hsegment => ?_
  obtain ⟨hempty,hself,-⟩ := (validatePackagePath_eq_ok h).2.2 segment hsegment
  simp [hempty, hself]

theorem posix_of_valid (h : validatePackagePath name = .ok ()) :
    FilePath.posix name = ⟨none,false,(name.toList.splitOn '/').map String.ofList⟩ := by
  rw [FilePath.posix, namesOf_of_valid h]
  simp [(validatePackagePath_eq_ok h).1]

theorem toSlash_of_valid (h : validatePackagePath name = .ok ()) :
    name.toList.map FilePath.toSlash = name.toList := by
  have hbackslash := (validatePackagePath_eq_ok h).2.1
  have hsame : ∀ c ∈ name.toList, FilePath.toSlash c = id c := by
    intro c hc
    have hne : c ≠ '\\' := fun hslash => hbackslash (hslash ▸ hc)
    exact if_neg hne
  rw [List.map_congr_left hsame, List.map_id]

/-- Without a drive in front, Windows reads the name as POSIX does. -/
theorem windows_of_valid (h : validatePackagePath name = .ok ()) (hdrive : hasDrive name = false) :
    FilePath.windows name = .posix name := by
  have hhead := (validatePackagePath_eq_ok h).1
  unfold FilePath.windows
  simp only [toSlash_of_valid h]
  split
  · next rest hname => simp [hname] at hhead
  · next _ letter rest hname =>
    have halpha : letter.isAlpha = false := by simpa [hasDrive, hname] using hdrive
    rw [hname] at hhead
    simp [halpha, FilePath.posix, hname]
  · rfl

theorem drive_windows (h : validatePackagePath name = .ok ()) (hdrive : hasDrive name = true) :
    (FilePath.windows name).drive.isSome := by
  unfold hasDrive at hdrive
  split at hdrive
  · next letter rest hname =>
    unfold FilePath.windows
    simp only [toSlash_of_valid h]
    split
    · rfl
    · next letter' rest' _ hname' =>
      obtain ⟨rfl,-⟩ := List.cons.inj (hname.symm.trans hname')
      rw [if_pos hdrive]
      rfl
    · next _ hother => exact (hother _ _ hname).elim
  · cases hdrive

section Package

variable {plib : PackageLib} {limits : PackageLimits} {scan scan' : Scan}

theorem scanEntry_lowercase {opened : Except String ZipEntry}
    (h : scanEntry plib limits scan opened = .ok scan') : ∃ file, opened = .ok file ∧
      plib.toLowercase file.name ∉ scan.lowercase ∧
      scan'.lowercase = plib.toLowercase file.name :: scan.lowercase := by
  simp only [scanEntry, Checked.bind_eq_ok, Checked.mapError_eq_ok, Checked.reject_eq_ok] at h
  obtain ⟨file,rfl,_,-,_,-,_,-,_,hcase,_,-,_,-,_,-,_,-,h⟩ := h
  obtain rfl := Except.ok.inj h
  exact ⟨file,rfl,hcase,rfl⟩

/-- The names of the entries differ in lower case. -/
theorem scan_lowercase (archive : ZipArchive)
    (h : archive.foldlM (scanEntry plib limits) scan = .ok scan') :
    (∀ file ∈ openedEntries archive, plib.toLowercase file.name ∉ scan.lowercase) ∧
    (openedEntries archive).Pairwise fun a b =>
      plib.toLowercase a.name ≠ plib.toLowercase b.name := by
  induction archive generalizing scan with
  | nil => simp [openedEntries]
  | cons opened archive ih =>
    rw [List.foldlM_cons, Checked.bind_eq_ok] at h
    obtain ⟨next,hnext,hrest⟩ := h
    obtain ⟨file,rfl,hnew,hlowercase⟩ := scanEntry_lowercase hnext
    obtain ⟨ihnew,ihdistinct⟩ := ih hrest
    simp only [hlowercase, List.mem_cons, not_or] at ihnew
    rw [openedEntries, List.filterMap_cons_some (Checked.toOption_ok file)]
    refine ⟨List.forall_mem_cons.mpr ⟨hnew,fun f hf => (ihnew f hf).2⟩,?_⟩
    exact List.pairwise_cons.mpr ⟨fun f hf => Ne.symm (ihnew f hf).1,ihdistinct⟩

variable {Version : Type} {lib : InstallLib Version} {bytes : List UInt8} {archive : ZipArchive}
  {package : ValidatedPackage lib}

theorem Accepts.paths (h : Accepts plib limits lib bytes archive package) :
    ∀ file ∈ openedEntries archive, validatePackagePath file.name = .ok () := by
  obtain ⟨scan,hscan⟩ := h.scanned
  exact fun file hfile => ((scanEntries_eq_ok plib limits archive hscan).2.1 file hfile).1

/-- The entries of an accepted archive are confined, if and only if no name begins with a drive. -/
theorem entries_confined_iff
    (hlower : ∀ s t, FilePath.foldText s = FilePath.foldText t →
      plib.toLowercase s = plib.toLowercase t)
    (h : validatePackage plib limits lib bytes = .ok package)
    (hopened : plib.openArchive bytes = .ok archive) :
    Confined archive ↔ ∀ file ∈ openedEntries archive, hasDrive file.name = false := by
  obtain ⟨archive',haccepts⟩ := exists_accepts h
  obtain rfl := Except.ok.inj (hopened.symm.trans haccepts.opened)
  have hpaths := haccepts.paths
  constructor
  · intro hconfined file hfile
    rw [← Bool.not_eq_true]
    intro hdrive
    exact FilePath.not_below_join (drive_windows (hpaths file hfile) hdrive)
      (hconfined.below file hfile _).2
  · intro hdrives
    have hwindows : ∀ file ∈ openedEntries archive,
        FilePath.windows file.name = .posix file.name :=
      fun file hfile => windows_of_valid (hpaths file hfile) (hdrives file hfile)
    have hbelow : ∀ file ∈ openedEntries archive, ∀ dir : FilePath,
        dir.Below (dir.join (.posix file.name)) := by
      intro file hfile dir
      have hvalid := validatePackagePath_eq_ok (hpaths file hfile)
      rw [posix_of_valid (hpaths file hfile)]
      refine FilePath.below_join rfl rfl (by simp) fun hparent => ?_
      exact (hvalid.2.2 _ hparent).2.2 rfl
    have hdistinct : ∀ dir : FilePath, (openedEntries archive).Pairwise fun a b =>
        ¬(dir.join (.posix a.name)).SameFile (dir.join (.posix b.name)) := by
      intro dir
      obtain ⟨scan,hscan⟩ := haccepts.scanned
      refine (scan_lowercase archive hscan).2.imp_of_mem fun {a b} ha hb hne hsame => ?_
      rw [posix_of_valid (hpaths a ha), posix_of_valid (hpaths b hb)] at hsame
      have hnames := FilePath.names_of_sameFile_join ⟨rfl,rfl⟩ ⟨rfl,rfl⟩ hsame
      exact hne (hlower _ _ (FilePath.foldText_of_segments hnames))
    refine ⟨fun file hfile dir => ⟨hbelow file hfile dir,?_⟩,fun dir => ?_⟩
    · rw [hwindows file hfile]
      exact hbelow file hfile dir
    · refine (hdistinct dir).imp_of_mem fun {a b} ha hb hne => ⟨hne,?_⟩
      rw [hwindows a ha, hwindows b hb]
      exact hne

end Package

/-- An entry of one byte. -/
def extraEntry (name : String) : ZipEntry := StoredFile.zipEntry ⟨name,2363233923,[120]⟩

/-- The archive of the clock with that entry. -/
def extraArchive (name : String) : List UInt8 :=
  storedArchive (clockFiles forkManifestFile ++ [⟨name,2363233923,[120]⟩])

/-- The external functions on that archive; names in ASCII are folded as they are. -/
def extraLib (name : String) : PackageLib :=
  packageLibWith (extraArchive name) (extraEntry name) FilePath.foldText

theorem extra_scanned : ∀ name ∈ ["C:evil.txt","assets/a.txt"],
    (extraArchive name).length ≤ PackageLimits.default.maxArchiveBytes ∧
    ((archiveWith (extraEntry name)).foldlM (scanEntry (extraLib name) PackageLimits.default)
      Scan.empty).toOption.isSome := by
  decide +kernel

theorem extra_accepted {name : String} (h : name ∈ ["C:evil.txt","assets/a.txt"]) :
    ∃ package, validatePackage (extraLib name) PackageLimits.default forkLib
      (extraArchive name) = .ok package := by
  have hnew : ∀ name ∈ ["C:evil.txt","assets/a.txt"],
      name ∉ (clockFiles forkManifestFile).map StoredFile.name := by
    decide
  obtain ⟨hsize,hscan⟩ := extra_scanned name h
  exact exists_packageWith (hnew name h) rfl rfl hsize (by decide) hscan

theorem extra_opened (name : String) : (extraLib name).openArchive (extraArchive name) =
    .ok (archiveWith (extraEntry name)) := by
  simp [extraLib, packageLibWith]

/-- The archive is accepted, and on Windows one of its entries leads to another drive. -/
theorem drive_not_confined :
    (extraLib "C:evil.txt").openArchive (extraArchive "C:evil.txt") =
      .ok (archiveWith (extraEntry "C:evil.txt")) ∧
    (∃ package, validatePackage (extraLib "C:evil.txt") PackageLimits.default forkLib
      (extraArchive "C:evil.txt") = .ok package) ∧
    ¬Confined (archiveWith (extraEntry "C:evil.txt")) := by
  refine ⟨extra_opened _,extra_accepted (by decide),fun h => ?_⟩
  have hmem : extraEntry "C:evil.txt" ∈ openedEntries (archiveWith (extraEntry "C:evil.txt")) := by
    simp [openedEntries, archiveWith, Except.toOption]
  exact FilePath.not_below_join rfl (h.below _ hmem _).2

theorem asset_confined : Confined (archiveWith (extraEntry "assets/a.txt")) := by
  obtain ⟨package,haccepted⟩ := extra_accepted (List.mem_cons_of_mem _ List.mem_cons_self)
  refine (entries_confined_iff (fun _ _ h => h) haccepted (extra_opened _)).mpr ?_
  have hnames : (openedEntries (archiveWith (extraEntry "assets/a.txt"))).map ZipEntry.name =
      ["manifest.json","ui/widget.ftui","logic/plugin.wasm","assets/a.txt"] := rfl
  have hdrives : ∀ name ∈ ["manifest.json","ui/widget.ftui","logic/plugin.wasm","assets/a.txt"],
      hasDrive name = false := by
    decide
  exact fun file hfile => hdrives _ (hnames ▸ List.mem_map_of_mem hfile)

end Floatile.Cli
