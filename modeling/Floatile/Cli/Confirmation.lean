import Floatile.Cli.Publishers
import Floatile.Shell.SilentChange

/-! The authority that an installation adds without a confirmation. The permissions are compared
with those of the newest installed version, and only for a package that is newer. -/
namespace Floatile.Cli

open Floatile.Core
open Floatile.Core.Authority
open Floatile.Core.Capability
open Floatile.Lib Floatile.Lib.Transition
open Floatile.Shell
open Floatile.Store

section Confirmation

variable {Version : Type} [LinearOrder Version] (lib : InstallLib Version)

/-- An installed version of the plugin that no other one is newer than. -/
structure Newest (dirs : Dirs) (id : PluginId) (m : Manifest) : Prop where
  installed : Installed lib dirs m
  plugin : m.id = id
  highest : ∀ m', Installed lib dirs m' → m'.id = id → ¬Newer lib m' m

/-- The checks of an installation compare the package with the newest installed version, and see
of both what the broker will see. -/
structure Compared (dirs : Dirs) (candidate : Manifest) : Prop where
  ahead : Ahead lib dirs candidate
  repeats : ∀ m, Newest lib dirs candidate.id m → RepeatsHarmless m candidate

variable {lib}

/-- The newest installed version is the one that the checks load. -/
theorem checkInstall_silent {dirs : Dirs} {tables : TrustTables} {package : ValidatedPackage lib}
    {upgrade : Option (Distribution.UpgradePlan Version)} (hstock : Stocked lib dirs)
    (hahead : Ahead lib dirs package.manifest)
    (h : checkInstall lib dirs tables package false = .ok upgrade) {m : Manifest}
    (hm : Installed lib dirs m) (hid : m.id = package.manifest.id) :
    ∃ current, Newest lib dirs package.manifest.id current ∧
      SilentChange lib.versions.parse current package.manifest := by
  obtain ⟨highest,hhighest,hplan⟩ := checkInstall_plan h
  cases highest with
  | none => exact absurd (congrArg PluginId.text hid) (loadHighest_eq_none hhighest hm)
  | some current =>
    obtain ⟨hcurrent,hcurrentId,hnewest⟩ :=
      loadHighest_eq_some hstock (component_id package.valid) hhighest
    have hsame : current.manifest.id = package.manifest.id := congrArg PluginId.mk hcurrentId
    obtain ⟨plan,hplan,hsilent⟩ := hplan current rfl (hahead _ hcurrent hsame)
    refine ⟨current.manifest,⟨hcurrent,hsame,fun m' hm' hid' => ?_⟩,
      Or.inl ⟨plan,hplan,hsilent rfl⟩⟩
    exact hnewest m' hm' (congrArg PluginId.text hid')

/-- After any run, a trusted installation without a confirmation that is compared with the newest
installed version authorizes nothing that was not authorized before. -/
theorem confirmed_of_compared (plib : PackageLib) {disk : Disk}
    (h : (installer lib plib).Reachable disk) {call : InstallCall}
    {package : ValidatedPackage lib}
    (hpackage : validatePackage plib call.limits lib call.bytes = .ok package)
    {installed : InstalledPackage Version}
    (hinstalled : (installTrustedPackage lib plib call false disk).1 = .ok installed)
    (hbefore : ∃ m, Installed lib disk.dirs m ∧ m.id = package.manifest.id)
    (hcompared : Compared lib disk.dirs package.manifest) (inst : InstanceId) (c : CapabilityId)
    (r : Option CapabilityParams)
    (hauthorizes : BrokerAuthorizes package.manifest.id inst package.manifest c r) :
    ∃ m, Installed lib disk.dirs m ∧ m.id = package.manifest.id ∧
      BrokerAuthorizes package.manifest.id inst m c r := by
  obtain ⟨m,hm,hid⟩ := hbefore
  rw [installTrustedPackage, hpackage] at hinstalled
  simp only at hinstalled
  cases hcheck : checkInstall lib disk.dirs disk.tables package false with
  | error e =>
    rw [hcheck] at hinstalled
    cases hinstalled
  | ok upgrade =>
    obtain ⟨current,hnewest,hsilent⟩ := checkInstall_silent (stocked_of_reachable plib h)
      hcompared.ahead hcheck hm hid
    obtain ⟨dir,-,hholds⟩ := hnewest.installed
    have hgains := (silentChange_gains_nothing_iff lib.versions.parse package.manifest.id inst
      current package.manifest hholds.valid package.valid hsilent).mpr
      (hcompared.repeats current hnewest)
    exact ⟨current,hnewest.installed,hnewest.plugin,hgains c r hauthorizes⟩

end Confirmation

theorem later_compared : Compared releasesLib timerDisk.dirs later.manifest := by
  obtain ⟨-,-,htimer,-⟩ := releases_evaluated
  refine ⟨fun m hm _ => ?_,fun m hm => ?_⟩
  · rw [eq_of_installed htimer parse_timer hm]
    exact ⟨2,1,rfl,rfl,by decide⟩
  · rw [eq_of_installed htimer parse_timer hm.installed]
    exact repeatsHarmless_of_declaredOnce (by decide) (by decide)

theorem reachable_timerDisk : (installer releasesLib releasesPackageLib).Reachable timerDisk :=
  reachable_releasesNext advancing_trustedDisk.reachable _ trivial

/-- The timers of the next version were authorized before. -/
theorem later_confirmed : ∃ m, Installed releasesLib timerDisk.dirs m ∧
    m.id = later.manifest.id ∧
    BrokerAuthorizes later.manifest.id ⟨1⟩ m .timerSchedule (some (.timer 60 2)) := by
  obtain ⟨-,-,hlisting,-,hlater,-,-,hok⟩ := releases_evaluated
  obtain ⟨installed,hinstalled⟩ := Option.isSome_iff_exists.mp hok
  obtain ⟨package,hpackage,-⟩ := Option.map_eq_some_iff.mp hlater
  rw [Checked.toOption_eq_some] at hinstalled hpackage
  have hmanifest := manifest_of_validated hpackage hlater parse_later
  have htimer : Installed releasesLib timerDisk.dirs timer.manifest :=
    installed_of_listing hlisting List.mem_cons_self parse_timer rfl
  have hconfirmed := confirmed_of_compared releasesPackageLib reachable_timerDisk hpackage
    hinstalled ⟨timer.manifest,htimer,by rw [hmanifest]; rfl⟩
    (by rw [hmanifest]; exact later_compared) ⟨1⟩ .timerSchedule (some (.timer 60 2))
    (by rw [hmanifest]; exact ⟨_,rfl,rfl⟩)
  rw [hmanifest] at hconfirmed
  exact hconfirmed

/-- The older version is installed without a confirmation, and no installed version had timers. -/
theorem timer_unconfirmed :
    (installer releasesLib releasesPackageLib).Reachable forkDisk ∧
    Installed releasesLib forkDisk.dirs fork.manifest ∧
    fork.manifest.id = timer.manifest.id ∧
    ∃ package installed,
      validatePackage releasesPackageLib (nextCallOf timer.files).limits releasesLib
        (nextCallOf timer.files).bytes = .ok package ∧ package.manifest = timer.manifest ∧
      (installTrustedPackage releasesLib releasesPackageLib (nextCallOf timer.files) false
        forkDisk).1 = .ok installed ∧
      BrokerAuthorizes timer.manifest.id ⟨1⟩ timer.manifest .timerSchedule
        (some (.timer 60 2)) ∧
      ∀ m, Installed releasesLib forkDisk.dirs m →
        ¬BrokerAuthorizes timer.manifest.id ⟨1⟩ m .timerSchedule (some (.timer 60 2)) := by
  obtain ⟨hlisting,-,-,-,-,htimer,hok,-⟩ := releases_evaluated
  obtain ⟨installed,hinstalled⟩ := Option.isSome_iff_exists.mp hok
  obtain ⟨package,hpackage,-⟩ := Option.map_eq_some_iff.mp htimer
  rw [Checked.toOption_eq_some] at hinstalled hpackage
  refine ⟨reachable_forkDisk,installed_of_listing hlisting List.mem_cons_self parse_fork rfl,rfl,
    package,installed,hpackage,manifest_of_validated hpackage htimer parse_timer,hinstalled,
    ⟨_,rfl,rfl⟩,fun m hm => ?_⟩
  rw [eq_of_installed hlisting parse_fork hm]
  rintro ⟨ig,hig,hallow⟩
  obtain rfl := Except.ok.inj hig
  cases hallow

end Floatile.Cli
