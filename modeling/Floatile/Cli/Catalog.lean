import Floatile.Cli.Discipline
import Floatile.Cli.Stock
import Mathlib.Data.List.ReduceOption
import Mathlib.Data.Set.Pairwise.List
import Mathlib.Order.Bounds.Basic

/-! What the lookups in the plugin store answer. The id and the version that are asked for are
joined to a path and never compared with what its directory holds, so the answers are right where
the metadata of an intact directory repeat them. -/
namespace Floatile.Cli

open Floatile.Core
open Floatile.Lib
open Floatile.Store

section Lookups

variable {Version : Type} (lib : InstallLib Version)

/-- The metadata of the directory, if its content is intact, say the id and the version that it
is found under. -/
def Labelled (id version : String) (dir : Files) : Prop :=
  ∀ installed, Loaded lib dir installed →
    installed.metadata.id = id ∧ installed.metadata.version = version

/-- The versions that the directories of a plugin are named after. -/
def versionsOf (dirs : Dirs) (id : String) : Set Version :=
  {v | ∃ name dir, (name,dir) ∈ subdirs dirs id ∧ lib.versions.parse name = .ok v}

/-- The directory of the greatest version. -/
def HighestDir [LinearOrder Version] (dirs : Dirs) (id name : String) (dir : Files) : Prop :=
  (name,dir) ∈ subdirs dirs id ∧
    ∃ v, lib.versions.parse name = .ok v ∧ IsGreatest (versionsOf lib dirs id) v

/-- One of the highest version directories is damaged, or their metadata tell the plugins
apart. -/
def DistinctIds [LinearOrder Version] (dirs : Dirs) : Prop :=
  (∀ id ∈ pluginDirs dirs, ∀ name dir, HighestDir lib dirs id name dir →
    ∃ installed, Loaded lib dir installed) →
  ∀ id ∈ pluginDirs dirs, ∀ id' ∈ pluginDirs dirs, id ≠ id' →
    ∀ name dir name' dir' installed installed', HighestDir lib dirs id name dir →
      HighestDir lib dirs id' name' dir' → Loaded lib dir installed →
      Loaded lib dir' installed' → installed.metadata.id ≠ installed'.metadata.id

/-- A text that is a version is how the version is written. -/
def Canonical (versions : VersionLib Version) : Prop :=
  ∀ text v, versions.parse text = .ok v → versions.toText v = text

variable {lib} {dirs : Dirs} {id : String}

theorem Canonical.eq_of_parse {versions : VersionLib Version} (h : Canonical versions)
    {a b : String} {v : Version} (ha : versions.parse a = .ok v) (hb : versions.parse b = .ok v) :
    a = b :=
  (h a v ha).symm.trans (h b v hb)

theorem loadExact_eq_some_iff_loaded {version : String} {installed : InstalledInstallation} :
    loadExact lib dirs id version = .ok (some installed) ↔
      ∃ dir, dirAt dirs id version = some dir ∧ Loaded lib dir installed := by
  rw [loadExact_eq_some_iff]
  exact exists_congr fun dir => and_congr_right fun _ => loadFromDir_eq_ok_iff

/-- A name stands for one directory. -/
theorem subdirs_unique {name : String} {dir dir' : Files} (h : (name,dir) ∈ subdirs dirs id)
    (h' : (name,dir') ∈ subdirs dirs id) : dir = dir' := by
  obtain ⟨place,hplace,hdir⟩ := mem_subdirs.mp h
  obtain ⟨place',hplace',hdir'⟩ := mem_subdirs.mp h'
  obtain rfl := Option.some.inj (hplace.symm.trans hplace')
  exact Option.some.inj (hdir.symm.trans hdir')

variable [LinearOrder Version]

theorem HighestDir.unique (hcanonical : Canonical lib.versions) {name name' : String}
    {dir dir' : Files} (h : HighestDir lib dirs id name dir)
    (h' : HighestDir lib dirs id name' dir') : name = name' ∧ dir = dir' := by
  obtain ⟨hdir,v,hparse,hgreatest⟩ := h
  obtain ⟨hdir',v',hparse',hgreatest'⟩ := h'
  obtain rfl := hgreatest.unique hgreatest'
  obtain rfl := hcanonical.eq_of_parse hparse hparse'
  exact ⟨rfl,subdirs_unique hdir hdir'⟩

/-- The search over the version directories ends with that of the greatest version. -/
theorem highestOf_versionDirs {v : Version} {dir : Files}
    (h : highestOf (versionDirs lib dirs id) = some (v,dir)) :
    ∃ name, HighestDir lib dirs id name dir := by
  obtain ⟨hmem,hle⟩ := highestOf_eq_some h
  obtain ⟨name,hdir,hparse⟩ := mem_versionDirs.mp hmem
  refine ⟨name,hdir,v,hparse,⟨name,dir,hdir,hparse⟩,?_⟩
  rintro w ⟨name',dir',hdir',hparse'⟩
  exact hle _ (mem_versionDirs.mpr ⟨name',hdir',hparse'⟩)

theorem highestOf_eq_of_highestDir (hcanonical : Canonical lib.versions) {name : String}
    {dir : Files} (h : HighestDir lib dirs id name dir) :
    ∃ v, highestOf (versionDirs lib dirs id) = some (v,dir) := by
  cases hbest : highestOf (versionDirs lib dirs id) with
  | none =>
    obtain ⟨hdir,v,hparse,-⟩ := h
    have hmem : (v,dir) ∈ versionDirs lib dirs id := mem_versionDirs.mpr ⟨name,hdir,hparse⟩
    rw [highestOf_eq_none hbest] at hmem
    cases hmem
  | some best =>
    obtain ⟨name',h'⟩ := highestOf_versionDirs hbest
    obtain ⟨-,hdir⟩ := h.unique hcanonical h'
    exact ⟨best.1,by rw [hdir]⟩

/-- What is loaded as the highest version is the content of its directory. -/
theorem loadHighest_eq_some_iff (hcanonical : Canonical lib.versions)
    {installed : InstalledInstallation} :
    loadHighest lib dirs id = .ok (some installed) ↔
      ∃ name dir, HighestDir lib dirs id name dir ∧ Loaded lib dir installed := by
  constructor
  · intro h
    unfold loadHighest at h
    cases hbest : highestOf (versionDirs lib dirs id) with
    | none =>
      rw [hbest] at h
      cases h
    | some best =>
      rw [hbest] at h
      obtain ⟨found,hload,hok⟩ := Checked.bind_eq_ok.mp h
      obtain rfl := Option.some.inj (Except.ok.inj hok)
      obtain ⟨name,hhighest⟩ := highestOf_versionDirs hbest
      exact ⟨name,best.2,hhighest,loadFromDir_eq_ok_iff.mp hload⟩
  · rintro ⟨name,dir,hhighest,hloaded⟩
    obtain ⟨v,hbest⟩ := highestOf_eq_of_highestDir hcanonical hhighest
    simp only [loadHighest, hbest, loadFromDir_eq_ok_iff.mpr hloaded, Checked.ok_bind]

/-- The highest version can be loaded, or there is none, unless its directory is damaged. -/
theorem exists_loadHighest_iff (hcanonical : Canonical lib.versions) :
    (∃ found, loadHighest lib dirs id = .ok found) ↔
      ∀ name dir, HighestDir lib dirs id name dir → ∃ installed, Loaded lib dir installed := by
  constructor
  · rintro ⟨found,hfound⟩ name dir hhighest
    obtain ⟨v,hbest⟩ := highestOf_eq_of_highestDir hcanonical hhighest
    simp only [loadHighest, hbest, Checked.bind_eq_ok] at hfound
    obtain ⟨installed,hload,-⟩ := hfound
    exact ⟨installed,loadFromDir_eq_ok_iff.mp hload⟩
  · intro h
    cases hbest : highestOf (versionDirs lib dirs id) with
    | none => exact ⟨none,by rw [loadHighest, hbest]⟩
    | some best =>
      obtain ⟨name,hhighest⟩ := highestOf_versionDirs hbest
      obtain ⟨installed,hloaded⟩ := h name best.2 hhighest
      exact ⟨some installed,(loadHighest_eq_some_iff hcanonical).mpr
        ⟨name,best.2,hhighest,hloaded⟩⟩

theorem nodup_pluginDirs (dirs : Dirs) : (pluginDirs dirs).Nodup :=
  (List.nodup_dedup _).filter _

/-- The listing: it fails if one of the highest versions is damaged, and holds what is found in
each directory otherwise. -/
theorem listHighest_eq_ok_iff {installations : List InstalledInstallation} :
    listHighest lib dirs = .ok installations ↔
      (∀ id ∈ pluginDirs dirs, ∃ found, loadHighest lib dirs id = .ok found) ∧
      installations = ((pluginDirs dirs).filterMap (fun id =>
        (loadHighest lib dirs id).toOption.join)).mergeSort
          (fun a b => a.metadata.id ≤ b.metadata.id) := by
  have hreduce : ((pluginDirs dirs).filterMap
      (fun id => (loadHighest lib dirs id).toOption)).reduceOption =
        (pluginDirs dirs).filterMap (fun id => (loadHighest lib dirs id).toOption.join) := by
    rw [List.reduceOption, List.filterMap_filterMap]
    rfl
  rw [listHighest, Checked.bind_eq_ok]
  constructor
  · rintro ⟨found,hfound,h⟩
    have hall : ∀ id ∈ pluginDirs dirs, ∃ found, loadHighest lib dirs id = .ok found :=
      fun id hid => (Checked.exists_mem_of_mapM hfound hid).imp fun _ h => h.2
    rw [Checked.mapM_eq_ok_of_forall hall] at hfound
    obtain rfl := Except.ok.inj hfound
    refine ⟨hall,?_⟩
    rw [← hreduce]
    exact (Except.ok.inj h).symm
  · rintro ⟨hall,rfl⟩
    exact ⟨_,Checked.mapM_eq_ok_of_forall hall,by rw [hreduce]⟩

theorem join_toOption_eq_some {ε α : Type} {x : Except ε (Option α)} {a : α} :
    x.toOption.join = some a ↔ x = .ok (some a) := by
  rw [Option.join_eq_some_iff, Checked.toOption_eq_some]

/-- Results that are tagged differently. -/
theorem nodup_map_filterMap_iff {α β γ : Type} {xs : List α} (hxs : xs.Nodup) (f : α → Option β)
    (g : β → γ) : ((xs.filterMap f).map g).Nodup ↔
      ∀ x ∈ xs, ∀ y ∈ xs, x ≠ y → ∀ b, f x = some b → ∀ c, f y = some c → g b ≠ g c := by
  have hsymm : Std.Symm (fun x y => ∀ b, f x = some b → ∀ c, f y = some c → g b ≠ g c) :=
    ⟨fun _ _ h b hb c hc => (h c hc b hb).symm⟩
  rw [List.Nodup, List.pairwise_map, List.pairwise_filterMap, ← hxs.pairwise_coe]
  rfl

/-- No id is listed twice, unless the metadata in two plugin directories carry the same. -/
theorem nodup_listHighest_iff (hcanonical : Canonical lib.versions) :
    (∀ installations, listHighest lib dirs = .ok installations →
      (installations.map (fun i => i.manifest.id)).Nodup) ↔ DistinctIds lib dirs := by
  have hlisted : (∀ installations, listHighest lib dirs = .ok installations →
      (installations.map (fun i => i.manifest.id)).Nodup) ↔
      ((∀ id ∈ pluginDirs dirs, ∃ found, loadHighest lib dirs id = .ok found) →
        (((pluginDirs dirs).filterMap (fun id => (loadHighest lib dirs id).toOption.join)).map
          (fun i => i.manifest.id)).Nodup) := by
    simp only [listHighest_eq_ok_iff, and_imp]
    rw [forall_comm]
    refine forall_congr' fun hall => ?_
    rw [forall_eq, ((List.mergeSort_perm _ _).map _).nodup_iff]
  rw [hlisted, DistinctIds, nodup_map_filterMap_iff (nodup_pluginDirs dirs)]
  simp only [exists_loadHighest_iff hcanonical, join_toOption_eq_some,
    loadHighest_eq_some_iff hcanonical]
  refine forall_congr' fun _ => forall_congr' fun id => forall_congr' fun _ =>
    forall_congr' fun id' => forall_congr' fun _ => forall_congr' fun _ => ?_
  constructor
  · rintro h name dir name' dir' installed installed' hhighest hhighest' hloaded hloaded' heq
    refine h installed ⟨name,dir,hhighest,hloaded⟩ installed' ⟨name',dir',hhighest',hloaded'⟩ ?_
    exact congrArg Capability.PluginId.mk
      (hloaded.identity.1.trans (heq.trans hloaded'.identity.1.symm))
  · rintro h installed ⟨name,dir,hhighest,hloaded⟩ installed' ⟨name',dir',hhighest',hloaded'⟩ heq
    refine h name dir name' dir' installed installed' hhighest hhighest' hloaded hloaded' ?_
    rw [← hloaded.identity.1, ← hloaded'.identity.1, heq]

end Lookups

theorem canonical_threeReleases : Canonical threeReleases := by
  intro text v h
  simp only [threeReleases] at h
  split_ifs at h with h0 h1 h2 <;> obtain rfl := Except.ok.inj h
  · exact h0.symm
  · exact h1.symm
  · exact h2.symm

def copiedStore : Dirs := OrdMap.ofList [("org.example.clock/1.9.0",installedClock),
  ("org.example.clock/2.0.0",installedClock),("org.example.copy/1.9.0",installedClock)]

/-- The id and the version that a lookup has found. -/
def foundBy (found : Except InstallationCatalogError (Option InstalledInstallation)) :
    Option (String × String) :=
  found.toOption.join.map (fun i => (i.manifest.id.text,i.manifest.version))

/-- The lookups in both stores, evaluated together. -/
theorem stores_evaluated :
    pluginDirs clockStore = ["org.example.clock"] ∧
    (loadHighest catalogLib clockStore "org.example.clock").toOption.isSome = true ∧
    foundBy (loadExact catalogLib copiedStore "org.example.clock" "2.0.0") =
      some ("org.example.clock","1.9.0") ∧
    foundBy (loadHighest catalogLib copiedStore "org.example.clock") =
      some ("org.example.clock","1.9.0") ∧
    pluginDirs copiedStore = ["org.example.clock","org.example.copy"] ∧
    foundBy (loadHighest catalogLib copiedStore "org.example.copy") =
      some ("org.example.clock","1.9.0") ∧
    foundBy (loadExact catalogLib clockStore "org.example.clock" "./1.9.0") =
      some ("org.example.clock","1.9.0") := by
  decide +kernel

theorem of_foundBy {found : Except InstallationCatalogError (Option InstalledInstallation)}
    {id version : String} (h : foundBy found = some (id,version)) :
    ∃ installed, found = .ok (some installed) ∧ installed.manifest.id.text = id ∧
      installed.manifest.version = version := by
  obtain ⟨installed,hfound,hnames⟩ := Option.map_eq_some_iff.mp h
  obtain ⟨hid,hversion⟩ := Prod.mk.inj hnames
  exact ⟨installed,join_toOption_eq_some.mp hfound,hid,hversion⟩

end Floatile.Cli
