import Floatile.Cli.Installer

/-! The contents of the plugin store over the runs of the installer: besides the staging
directories, whose paths have no slash, there are only directories of versions whose manifest says
where they are. -/
namespace Floatile.Cli

open Floatile.Core
open Floatile.Core.Distribution (UpgradePlan UpgradePlanError planUpgrade)
open Floatile.Lib Floatile.Lib.Transition
open Floatile.Lib.Checked (reject)
open Floatile.Store

/-- The id of a plugin is the part of a path before its first slash. -/
theorem installDir_injective {id id' version version' : String} (hid : '/' ∉ id.toList)
    (hid' : '/' ∉ id'.toList) (h : installDir id version = installDir id' version') :
    id = id' ∧ version = version' := by
  have hlist := congrArg String.toList h
  simp only [installDir_eq, String.toList_append] at hlist
  rw [show "/".toList = ['/'] from rfl, List.append_assoc, List.append_assoc,
    List.singleton_append, List.singleton_append] at hlist
  have htake : ∀ (cs : List Char) (rest : List Char), '/' ∉ cs →
      (cs ++ '/' :: rest).takeWhile (fun c => c ≠ '/') = cs := by
    intro cs rest hcs
    rw [List.takeWhile_append_of_pos (fun c hc => decide_eq_true (ne_of_mem_of_not_mem hc hcs)),
      List.takeWhile_cons_of_neg (by simp), List.append_nil]
  have hsame := congrArg (List.takeWhile (fun c => c ≠ '/')) hlist
  rw [htake _ _ hid, htake _ _ hid'] at hsame
  rw [hsame] at hlist
  exact ⟨String.ext_iff.mpr hsame,String.ext_iff.mpr (List.cons.inj (List.append_cancel_left hlist)).2⟩

theorem slash_notMem_pluginId {id : String} (h : Core.validatePluginId id = .ok ()) :
    '/' ∉ id.toList := by
  intro hmem
  simp only [Core.validatePluginId, Bool.and_eq_true] at h
  split_ifs at h with hvalid
  have hchar := List.all_eq_true.mp hvalid.1.1.1.2 '/' hmem
  revert hchar
  decide

theorem component_pluginId {id : String} (h : Core.validatePluginId id = .ok ()) :
    FilePath.Component id := by
  refine ⟨slash_notMem_pluginId h,?_,?_,?_⟩
  all_goals
    rintro rfl
    cases h

section Stock

variable {Version : Type} (lib : InstallLib Version)

/-- A directory with a valid manifest. -/
structure HoldsManifest (dir : Files) (manifest : Manifest) : Prop where
  file : ∃ bytes, dir.get "manifest.json" = some bytes ∧ lib.parseManifest bytes = .ok manifest
  valid : validateManifest lib.versions.parse manifest = .ok ()

/-- The plugin store has a version installed, under the path of its manifest. -/
def Installed (dirs : Dirs) (manifest : Manifest) : Prop :=
  ∃ dir, OrdMap.get dirs (installDir manifest.id.text manifest.version) = some dir ∧
    HoldsManifest lib dir manifest

/-- The directories of the plugin store with the manifests in them. -/
def listing (dirs : Dirs) : List (String × Option (List UInt8)) :=
  dirs.entries.map (fun e => (e.1,e.2.get "manifest.json"))

/-- There is nothing in the plugin store but staging directories and installed versions. -/
def Stocked (dirs : Dirs) : Prop :=
  ∀ path dir, '/' ∈ path.toList → OrdMap.get dirs path = some dir →
    ∃ manifest, path = installDir manifest.id.text manifest.version ∧
      HoldsManifest lib dir manifest

/-- The version of one manifest is newer than that of another one. -/
def Newer [LinearOrder Version] (manifest other : Manifest) : Prop :=
  ∃ v w, lib.versions.parse manifest.version = .ok v ∧ lib.versions.parse other.version = .ok w ∧
    w < v

variable {lib}

theorem HoldsManifest.unique {dir : Files} {m m' : Manifest} (h : HoldsManifest lib dir m)
    (h' : HoldsManifest lib dir m') : m = m' := by
  obtain ⟨bytes,hbytes,hparse⟩ := h.file
  obtain ⟨bytes',hbytes',hparse'⟩ := h'.file
  rw [hbytes] at hbytes'
  obtain rfl := Option.some.inj hbytes'
  exact Except.ok.inj (hparse.symm.trans hparse')

theorem component_id {m : Manifest}
    (h : validateManifest lib.versions.parse m = .ok ()) : FilePath.Component m.id.text := by
  simp only [validateManifest, Checked.bind_eq_ok] at h
  obtain ⟨_,-,_,hid,-⟩ := h
  exact component_pluginId hid

theorem HoldsManifest.version {dir : Files} {m : Manifest} (h : HoldsManifest lib dir m) :
    ∃ v, lib.versions.parse m.version = .ok v := by
  have hvalid := h.valid
  simp only [validateManifest, Checked.bind_eq_ok] at hvalid
  obtain ⟨_,-,_,-,_,-,_,-,version,hversion,-⟩ := hvalid
  rw [Checked.mapError_eq_ok] at hversion
  exact ⟨version,hversion⟩

theorem holdsManifest_of_loaded {dir : Files} {installed : InstalledInstallation}
    (h : Loaded lib dir installed) : HoldsManifest lib dir installed.manifest :=
  ⟨h.manifest_file,h.valid⟩

/-- The installed versions can be read off the listing. -/
theorem installed_iff_mem_listing {dirs : Dirs} {m : Manifest} :
    Installed lib dirs m ↔ ∃ bytes,
      (installDir m.id.text m.version,some bytes) ∈ listing dirs ∧
      lib.parseManifest bytes = .ok m ∧ validateManifest lib.versions.parse m = .ok () := by
  simp only [listing, List.mem_map, Prod.mk.injEq, Prod.exists, OrdMap.mem_entries_iff]
  constructor
  · rintro ⟨dir,hdir,⟨bytes,hbytes,hparse⟩,hvalid⟩
    exact ⟨bytes,⟨_,dir,hdir,rfl,hbytes⟩,hparse,hvalid⟩
  · rintro ⟨bytes,⟨_,dir,hdir,rfl,hbytes⟩,hparse,hvalid⟩
    exact ⟨dir,hdir,⟨bytes,hbytes,hparse⟩,hvalid⟩

theorem installed_of_listing {dirs : Dirs} {listed : List (String × Option (List UInt8))}
    (h : listing dirs = listed) {m : Manifest} {bytes : List UInt8}
    (hmem : (installDir m.id.text m.version,some bytes) ∈ listed)
    (hparse : lib.parseManifest bytes = .ok m)
    (hvalid : validateManifest lib.versions.parse m = .ok ()) : Installed lib dirs m :=
  installed_iff_mem_listing.mpr ⟨bytes,h ▸ hmem,hparse,hvalid⟩

/-- An installed version is among the version directories of its plugin. -/
theorem Installed.mem_versionDirs {dirs : Dirs} {m : Manifest} (h : Installed lib dirs m) :
    ∃ v dir, (v,dir) ∈ versionDirs lib dirs m.id.text ∧
      lib.versions.parse m.version = .ok v := by
  obtain ⟨dir,hdir,hm⟩ := h
  obtain ⟨v,hv⟩ := hm.version
  exact ⟨v,dir,Store.mem_versionDirs.mpr
    ⟨_,(mem_subdirs_of_component (component_id hm.valid)).mpr hdir,hv⟩,hv⟩

section Highest

variable [LinearOrder Version]

theorem foldl_highest (es : List (Version × Files)) (e : Version × Files) :
    let best := es.foldl (fun best e => if best.1 < e.1 then e else best) e
    best ∈ e :: es ∧ ∀ e' ∈ e :: es, e'.1 ≤ best.1 := by
  induction es generalizing e with
  | nil => simp
  | cons e' es ih =>
    obtain ⟨hmem,hle⟩ := ih (if e.1 < e'.1 then e' else e)
    rw [List.foldl_cons]
    refine ⟨?_,?_⟩
    · rcases List.mem_cons.mp hmem with hbest | hbest
      · rw [hbest]
        split_ifs <;> simp
      · exact List.mem_cons_of_mem _ (List.mem_cons_of_mem _ hbest)
    · have hfirst := hle _ List.mem_cons_self
      have hboth : e.1 ≤ (if e.1 < e'.1 then e' else e).1 ∧
          e'.1 ≤ (if e.1 < e'.1 then e' else e).1 := by
        split_ifs with hlt
        · exact ⟨hlt.le,le_refl _⟩
        · exact ⟨le_refl _,not_lt.mp hlt⟩
      refine List.forall_mem_cons.mpr ⟨hboth.1.trans hfirst,List.forall_mem_cons.mpr
        ⟨hboth.2.trans hfirst,fun f hf => hle f (List.mem_cons_of_mem _ hf)⟩⟩

theorem highestOf_eq_some {es : List (Version × Files)} {best : Version × Files}
    (h : highestOf es = some best) : best ∈ es ∧ ∀ e ∈ es, e.1 ≤ best.1 := by
  cases es with
  | nil => cases h
  | cons e es =>
    obtain rfl := Option.some.inj h
    exact foldl_highest es e

theorem highestOf_eq_none {es : List (Version × Files)} (h : highestOf es = none) : es = [] := by
  cases es with
  | nil => rfl
  | cons e es => cases h

theorem loadHighest_eq_none {dirs : Dirs} {id : String}
    (h : loadHighest lib dirs id = .ok none) {m : Manifest} (hm : Installed lib dirs m) :
    m.id.text ≠ id := by
  rintro rfl
  obtain ⟨v,dir,hmem,-⟩ := hm.mem_versionDirs
  unfold loadHighest at h
  cases hbest : highestOf (versionDirs lib dirs m.id.text) with
  | none =>
    rw [highestOf_eq_none hbest] at hmem
    cases hmem
  | some best =>
    obtain ⟨installed,-,hok⟩ := Checked.bind_eq_ok.mp (hbest ▸ h)
    cases hok

/-- What is loaded is installed under the id, and no version of it is newer. -/
theorem loadHighest_eq_some {dirs : Dirs} {id : String} (hstock : Stocked lib dirs)
    (hid : FilePath.Component id) {current : InstalledInstallation}
    (h : loadHighest lib dirs id = .ok (some current)) :
    Installed lib dirs current.manifest ∧ current.manifest.id.text = id ∧
      ∀ m, Installed lib dirs m → m.id.text = id → ¬Newer lib m current.manifest := by
  unfold loadHighest at h
  cases hbest : highestOf (versionDirs lib dirs id) with
  | none =>
    rw [hbest] at h
    cases h
  | some best =>
    rw [hbest] at h
    obtain ⟨installed,hload,hok⟩ := Checked.bind_eq_ok.mp h
    obtain rfl := Option.some.inj (Except.ok.inj hok)
    obtain ⟨hmem,hle⟩ := highestOf_eq_some hbest
    obtain ⟨version,hsubdir,hversion⟩ := mem_versionDirs.mp hmem
    have hdir := (mem_subdirs_of_component hid).mp hsubdir
    obtain ⟨m,hpath,hm⟩ := hstock _ _ (slash_mem_installDir id version) hdir
    have hsame := (holdsManifest_of_loaded (loadFromDir_eq_ok_iff.mp hload)).unique hm
    obtain ⟨rfl,rfl⟩ := installDir_injective hid.slash (component_id hm.valid).slash hpath
    rw [hsame]
    refine ⟨⟨best.2,hdir,hm⟩,rfl,?_⟩
    rintro m' hm' heq ⟨v,w,hv,hw,hlt⟩
    obtain ⟨v',dir',hmem',hv'⟩ := hm'.mem_versionDirs
    rw [hv] at hv'
    obtain rfl := Except.ok.inj hv'
    rw [hversion] at hw
    obtain rfl := Except.ok.inj hw
    rw [heq] at hmem'
    exact absurd hlt (not_lt.mpr (hle _ hmem'))

end Highest

/-- Outside of the staging directories nothing is new. -/
def NoneNew (dirs dirs' : Dirs) : Prop :=
  ∀ path dir, '/' ∈ path.toList → OrdMap.get dirs' path = some dir →
    OrdMap.get dirs path = some dir

variable (lib) in
/-- Outside of the staging directories nothing but one version is new. -/
def OnlyNew (manifest : Manifest) (dirs dirs' : Dirs) : Prop :=
  ∀ path dir, '/' ∈ path.toList → OrdMap.get dirs' path = some dir →
    OrdMap.get dirs path = some dir ∨
      path = installDir manifest.id.text manifest.version ∧ HoldsManifest lib dir manifest

namespace NoneNew

variable {dirs dirs' dirs'' : Dirs}

theorem refl (dirs : Dirs) : NoneNew dirs dirs := fun _ _ _ h => h

theorem trans (h : NoneNew dirs dirs') (h' : NoneNew dirs' dirs'') : NoneNew dirs dirs'' :=
  fun path dir hpath hdir => h path dir hpath (h' path dir hpath hdir)

theorem erase (dirs : Dirs) (path : String) : NoneNew dirs (OrdMap.erase dirs path) := by
  intro other dir _ hdir
  rw [OrdMap.get_erase] at hdir
  split_ifs at hdir
  exact hdir

theorem insert_staging (dirs : Dirs) (t : TransactionId) (dir : Files) :
    NoneNew dirs (OrdMap.insert dirs (stagingDir t.text) dir) := by
  intro path found hpath hfound
  have hne : path ≠ stagingDir t.text := by
    rintro rfl
    exact slash_notMem_stagingDir t.valid hpath
  rw [OrdMap.get_insert_of_ne _ hne] at hfound
  exact hfound

theorem discard (faults : Faults) (dirs : Dirs) (staging : String) :
    NoneNew dirs (Cli.discard faults dirs staging) := by
  unfold Cli.discard
  split_ifs
  · exact refl dirs
  · exact erase dirs staging

theorem only (h : NoneNew dirs dirs') (manifest : Manifest) : OnlyNew lib manifest dirs dirs' :=
  fun path dir hpath hdir => Or.inl (h path dir hpath hdir)

theorem stocked (h : NoneNew dirs dirs') (hstock : Stocked lib dirs) : Stocked lib dirs' :=
  fun path dir hpath hdir => hstock path dir hpath (h path dir hpath hdir)

theorem installed (h : NoneNew dirs dirs') {m : Manifest} (hm : Installed lib dirs' m) :
    Installed lib dirs m := by
  obtain ⟨dir,hdir,hholds⟩ := hm
  exact ⟨dir,h _ _ (slash_mem_installDir _ _) hdir,hholds⟩

end NoneNew

namespace OnlyNew

variable {dirs dirs' : Dirs} {manifest : Manifest}

theorem stocked (h : OnlyNew lib manifest dirs dirs') (hstock : Stocked lib dirs) :
    Stocked lib dirs' := by
  intro path dir hpath hdir
  rcases h path dir hpath hdir with hold | ⟨rfl,hnew⟩
  · exact hstock path dir hpath hold
  · exact ⟨manifest,rfl,hnew⟩

/-- An installed version was there before or is the new one. -/
theorem installed (h : OnlyNew lib manifest dirs dirs') {m : Manifest}
    (hm : Installed lib dirs' m) : Installed lib dirs m ∨ m = manifest := by
  obtain ⟨dir,hdir,hholds⟩ := hm
  rcases h _ dir (slash_mem_installDir _ _) hdir with hold | ⟨-,hnew⟩
  · exact Or.inl ⟨dir,hold,hholds⟩
  · exact Or.inr (hholds.unique hnew)

theorem of_noneNew {before : Dirs} (h : NoneNew dirs before)
    (h' : OnlyNew lib manifest before dirs') : OnlyNew lib manifest dirs dirs' :=
  fun path dir hpath hdir => (h' path dir hpath hdir).imp_left (h path dir hpath)

end OnlyNew

theorem writeEntries_eq_ok {fault : Option ℕ} {entries : List (String × List UInt8)} {index : ℕ}
    {dir dir' : Files} (h : writeEntries fault entries index dir = (.ok (),dir')) :
    dir' = entries.foldl (fun m e => m.insert e.1 e.2) dir := by
  induction entries generalizing index dir with
  | nil => exact (Prod.mk.inj h).2.symm
  | cons e entries ih =>
    obtain ⟨name,bytes⟩ := e
    unfold writeEntries at h
    split_ifs at h with hfault
    · cases h
    · cases hcreate : createFile dir name bytes with
      | none =>
        rw [hcreate] at h
        cases h
      | some created =>
        rw [hcreate] at h
        unfold createFile at hcreate
        split_ifs at hcreate
        obtain rfl := Option.some.inj hcreate
        exact ih h

/-- Staging fills a staging directory, with the manifest of the package in it. -/
theorem writeStaging_spec (call : InstallCall) (package : ValidatedPackage lib)
    (metadata : InstallMeta) (dirs : Dirs) :
    let r := (writeStaging lib call package metadata dirs :
      Except (InstallError Version) Files × Dirs)
    NoneNew dirs r.2 ∧ ∀ dir, r.1 = .ok dir → HoldsManifest lib dir package.manifest := by
  intro r
  have hr : r = writeStaging lib call package metadata dirs := rfl
  simp only [writeStaging] at hr
  generalize hw : writeEntries call.faults.staging _ 0 _ = w at hr
  obtain ⟨e | u,dir⟩ := w
  · simp only at hr
    rw [hr]
    refine ⟨(NoneNew.insert_staging _ _ _).trans (NoneNew.discard _ _ _),fun dir' h => ?_⟩
    cases h
  · simp only at hr
    rw [hr]
    refine ⟨NoneNew.insert_staging _ _ _,fun dir' h => ?_⟩
    obtain rfl := Except.ok.inj h
    refine ⟨⟨package.manifestBytes,?_,package.parsed⟩,package.valid⟩
    rw [writeEntries_eq_ok hw, List.foldl_append, List.foldl_cons, List.foldl_nil,
      OrdMap.get_insert_of_ne _ (show "manifest.json" ≠ "install.json" by decide), OrdMap.get_foldl_insert, package.manifestFile,
      Option.some_or]

theorem renameStaging_onlyNew (dirs : Dirs) (staging : String) {dir : Files}
    {package : ValidatedPackage lib} (h : HoldsManifest lib dir package.manifest) :
    OnlyNew lib package.manifest dirs
      (renameStaging dirs staging package.finalDir dir) := by
  intro path found hpath hfound
  rw [renameStaging, OrdMap.get_insert] at hfound
  split_ifs at hfound with hfinal
  · obtain rfl := Option.some.inj hfound
    exact Or.inr ⟨hfinal,h⟩
  · exact Or.inl (NoneNew.erase dirs staging path found hpath hfound)

theorem installValidated_onlyNew (call : InstallCall) (package : ValidatedPackage lib)
    (dirs : Dirs) :
    OnlyNew lib package.manifest dirs (installValidated lib call package dirs).2 := by
  obtain ⟨hnone,hholds⟩ := writeStaging_spec call package
    (package.metadataFor call.source call.installedAt .unsigned) dirs
  unfold installValidated
  dsimp only
  generalize writeStaging lib call package
    (package.metadataFor call.source call.installedAt .unsigned) dirs = w at hnone hholds ⊢
  obtain ⟨e | dir,staged⟩ := w
  · simp only
    split_ifs
    · exact (NoneNew.refl dirs).only _
    · exact (NoneNew.refl dirs).only _
    · exact hnone.only _
  · simp only
    split_ifs
    · exact (NoneNew.refl dirs).only _
    · exact (NoneNew.refl dirs).only _
    · exact (hnone.trans (NoneNew.discard _ _ _)).only _
    · exact (renameStaging_onlyNew _ _ (hholds dir rfl)).of_noneNew hnone

theorem installPackage_stocked (plib : PackageLib) (call : InstallCall) {dirs : Dirs}
    (h : Stocked lib dirs) : Stocked lib (installPackage lib plib call dirs).2 := by
  unfold installPackage
  split
  · exact h
  · next package _ => exact (installValidated_onlyNew call package dirs).stocked h

variable [LinearOrder Version]

/-- The call has put its package in place: it succeeds, or only the end of the transaction is left
to recovery. -/
def InPlace : Except (InstallError Version) (InstalledPackage Version) → Prop
  | .ok _ => True
  | .error (.recoveryRequired _) => True
  | .error _ => False

theorem commitTrusted_onlyNew (call : InstallCall) (package : ValidatedPackage lib)
    (upgrade : Option (UpgradePlan Version)) (disk : Disk) :
    let r := commitTrusted lib call package upgrade disk
    NoneNew disk.dirs r.2.dirs ∨
      InPlace r.1 ∧ OnlyNew lib package.manifest disk.dirs r.2.dirs := by
  dsimp only
  obtain ⟨hnone,hholds⟩ := writeStaging_spec call package
    (package.metadataFor call.source call.installedAt .trusted) disk.dirs
  unfold commitTrusted
  dsimp only
  generalize writeStaging lib call package
    (package.metadataFor call.source call.installedAt .trusted) disk.dirs = w at hnone hholds ⊢
  by_cases hroot : call.faults.storeRoot = true
  · rw [if_pos hroot]
    exact Or.inl (NoneNew.refl disk.dirs)
  rw [if_neg hroot]
  obtain ⟨e | dir,staged⟩ := w
  · exact Or.inl hnone
  simp only
  cases lib.versions.parse package.manifest.version with
  | error e => exact Or.inl hnone
  | ok version =>
    simp only
    generalize prepareInstall lib.versions (keyId lib) call.faults.prepare disk.tables
      (package.pending call.transaction.text version call.installedAt) = prepared
    obtain ⟨e | u,tables⟩ := prepared
    · exact Or.inl (hnone.trans (NoneNew.discard _ _ _))
    · simp only
      split_ifs
      · exact Or.inl (hnone.trans (NoneNew.discard _ _ _))
      · have hrenamed := (renameStaging_onlyNew staged (stagingDir call.transaction.text)
          (hholds dir rfl)).of_noneNew hnone
        split
        · exact Or.inr ⟨trivial,hrenamed⟩
        · exact Or.inr ⟨trivial,hrenamed⟩

variable (lib) in
/-- A trusted installation adds the version of its package, if it adds anything. -/
theorem installTrustedPackage_onlyNew (plib : PackageLib) (call : InstallCall) (accept : Bool)
    (disk : Disk) :
    let r := installTrustedPackage lib plib call accept disk
    NoneNew disk.dirs r.2.dirs ∨
      InPlace r.1 ∧ ∃ package upgrade,
        validatePackage plib call.limits lib call.bytes = .ok package ∧
        checkInstall lib disk.dirs disk.tables package accept = .ok upgrade ∧
        OnlyNew lib package.manifest disk.dirs r.2.dirs := by
  dsimp only
  unfold installTrustedPackage
  split
  · exact Or.inl (NoneNew.refl _)
  · next package hpackage =>
    split
    · exact Or.inl (NoneNew.refl _)
    · next upgrade hcheck =>
      rcases commitTrusted_onlyNew call package upgrade disk with hnone | ⟨hplace,honly⟩
      · exact Or.inl hnone
      · exact Or.inr ⟨hplace,package,upgrade,hpackage,hcheck,honly⟩

section Recovery

variable (lib)

/-- Recovery removes staging directories. -/
theorem recoverRow_noneNew (now : UnixSeconds) (disk : Disk)
    (pending : PendingInstallation Version) :
    NoneNew disk.dirs (recoverRow lib now disk pending).2.dirs := by
  unfold recoverRow
  split
  · exact NoneNew.refl _
  · have herase : NoneNew disk.dirs (if disk.dirs.has pending.stagingName then
        OrdMap.erase disk.dirs pending.stagingName else disk.dirs) := by
      split_ifs
      · exact NoneNew.erase _ _
      · exact NoneNew.refl _
    dsimp only
    split
    · exact herase
    · exact herase
  · split
    · exact NoneNew.refl _
    · split
      · exact NoneNew.refl _
      · exact NoneNew.refl _

theorem recoverRows_noneNew (now : UnixSeconds) (ps : List (PendingInstallation Version))
    (report : RecoveryReport) (disk : Disk) :
    NoneNew disk.dirs (recoverRows lib now ps report disk).2.dirs := by
  induction ps generalizing report disk with
  | nil => exact NoneNew.refl _
  | cons p ps ih =>
    have hrow := recoverRow_noneNew lib now disk p
    unfold recoverRows
    generalize recoverRow lib now disk p = r at hrow ⊢
    obtain ⟨e | finalized,after⟩ := r
    · exact hrow
    · exact hrow.trans (ih (report.count finalized) after)

theorem recover_noneNew (now : UnixSeconds) (disk : Disk) :
    NoneNew disk.dirs (recoverTrustedInstalls lib now disk).2.dirs := by
  unfold recoverTrustedInstalls
  split
  · exact NoneNew.refl _
  · exact recoverRows_noneNew lib now _ _ disk

end Recovery

variable (plib : PackageLib)

theorem next_stocked {disk : Disk} (h : Stocked lib disk.dirs) (label : InstallerLabel) :
    Stocked lib (disk.next lib plib label).dirs := by
  cases label with
  | upsertKey publisherId publicKey state updatedAt fault => exact h
  | setPublisherState publisherId state updatedAt fault => exact h
  | installPackage call => exact installPackage_stocked plib call h
  | installTrustedPackage call accept =>
    rcases installTrustedPackage_onlyNew lib plib call accept disk with hnone | ⟨-,p,_,-,-,honly⟩
    · exact hnone.stocked h
    · exact honly.stocked h
  | recover now => exact (recover_noneNew lib now disk).stocked h

/-- In every run the plugin store holds only what its installations left there. -/
theorem stocked_of_reachable {disk : Disk} {C : Disk → InstallerLabel → Prop}
    (h : (installer lib plib).ReachableWhen C disk) : Stocked lib disk.dirs := by
  refine h.invariant (fun disk => Stocked lib disk.dirs) ?_ ?_
  · rintro disk rfl path dir _ hdir
    cases hdir
  · rintro disk label disk' hdisk _ rfl
    exact next_stocked plib hdisk label

end Stock

end Floatile.Cli
