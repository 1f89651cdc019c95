import Floatile.Cli.RoundTrip
import Floatile.Cli.Stock

/-! The publishers of the installed versions of a plugin. The plan of an upgrade compares them, and
it is made only for a package that is newer than the newest installed version. -/
namespace Floatile.Cli

open Floatile.Core
open Floatile.Core.Distribution (UpgradePlan planUpgrade)
open Floatile.Core.Signature
open Floatile.Lib Floatile.Lib.Transition
open Floatile.Store

section Publishers

variable {Version : Type} [LinearOrder Version] (lib : InstallLib Version)

/-- A manifest is newer than every installed version of its plugin. -/
def Ahead (dirs : Dirs) (candidate : Manifest) : Prop :=
  ∀ m, Installed lib dirs m → m.id = candidate.id → Newer lib candidate m

/-- All packages are installed with their signatures, and each one that is put in place is newer
than the installed versions of its plugin. -/
def Advancing (plib : PackageLib) (disk : Disk) : InstallerLabel → Prop
  | .installPackage _ => False
  | .installTrustedPackage call accept =>
    InPlace (installTrustedPackage lib plib call accept disk).1 → ∀ package,
      validatePackage plib call.limits lib call.bytes = .ok package →
        Ahead lib disk.dirs package.manifest
  | _ => True

/-- All installed versions of one plugin have one publisher. -/
def OnePublisher (dirs : Dirs) : Prop :=
  ∀ m m', Installed lib dirs m → Installed lib dirs m' → m.id = m'.id →
    m.publisher.id = m'.publisher.id

variable {lib}

/-- What the checks say about the newest installed version: a newer package has a plan, which needs
no confirmation that was not given. -/
theorem checkInstall_plan {dirs : Dirs} {tables : TrustTables} {package : ValidatedPackage lib}
    {accept : Bool} {upgrade : Option (UpgradePlan Version)}
    (h : checkInstall lib dirs tables package accept = .ok upgrade) :
    ∃ highest, loadHighest lib dirs package.manifest.id.text = .ok highest ∧
      ∀ current, highest = some current → Newer lib package.manifest current.manifest →
        ∃ plan, planUpgrade lib.versions.parse current.manifest package.manifest = .ok plan ∧
          (accept = false → plan.requiresConfirmation = false) := by
  simp only [checkInstall, Checked.bind_eq_ok, Checked.mapError_eq_ok] at h
  obtain ⟨_,-,_,-,_,-,_,-,highest,hhighest,h⟩ := h
  refine ⟨highest,hhighest,?_⟩
  rintro current rfl ⟨v,w,hv,hw,hlt⟩
  simp only [Checked.bind_eq_ok, Checked.mapError_eq_ok] at h
  obtain ⟨v',hv',w',hw',h⟩ := h
  obtain rfl := Except.ok.inj (hv.symm.trans hv')
  obtain rfl := Except.ok.inj (hw.symm.trans hw')
  rw [if_pos hlt] at h
  simp only [Checked.bind_eq_ok, Checked.mapError_eq_ok, Checked.reject_eq_ok, not_and] at h
  obtain ⟨plan,hplan,_,hconfirmed,-⟩ := h
  refine ⟨plan,hplan,fun haccept => ?_⟩
  cases hconfirm : plan.requiresConfirmation with
  | false => rfl
  | true => exact absurd haccept (hconfirmed hconfirm)

theorem planUpgrade_publisher {current candidate : Manifest} {plan : UpgradePlan Version}
    (h : planUpgrade lib.versions.parse current candidate = .ok plan) :
    current.publisher.id = candidate.publisher.id := by
  simp only [planUpgrade, Checked.bind_eq_ok, Checked.reject_eq_ok] at h
  obtain ⟨_,-,_,hpublisher,-⟩ := h
  exact not_not.mp hpublisher

/-- A package that is ahead and passes the checks has the publisher of the installed versions. -/
theorem publisher_of_checkInstall {dirs : Dirs} {tables : TrustTables}
    {package : ValidatedPackage lib} {accept : Bool} {upgrade : Option (UpgradePlan Version)}
    (hstock : Stocked lib dirs) (hone : OnePublisher lib dirs)
    (hahead : Ahead lib dirs package.manifest)
    (h : checkInstall lib dirs tables package accept = .ok upgrade) {m : Manifest}
    (hm : Installed lib dirs m) (hid : m.id = package.manifest.id) :
    m.publisher.id = package.manifest.publisher.id := by
  obtain ⟨highest,hhighest,hplan⟩ := checkInstall_plan h
  cases highest with
  | none => exact absurd (congrArg Capability.PluginId.text hid) (loadHighest_eq_none hhighest hm)
  | some current =>
    obtain ⟨hcurrent,hcurrentId,-⟩ :=
      loadHighest_eq_some hstock (component_id package.valid) hhighest
    have hsame : current.manifest.id = package.manifest.id :=
      congrArg Capability.PluginId.mk hcurrentId
    obtain ⟨plan,hplan,-⟩ := hplan current rfl (hahead _ hcurrent hsame)
    exact (hone _ _ hm hcurrent (hid.trans hsame.symm)).trans (planUpgrade_publisher hplan)

omit [LinearOrder Version] in
theorem OnePublisher.of_noneNew {dirs dirs' : Dirs} (hone : OnePublisher lib dirs)
    (h : NoneNew dirs dirs') : OnePublisher lib dirs' :=
  fun m m' hm hm' hid => hone m m' (h.installed hm) (h.installed hm') hid

omit [LinearOrder Version] in
theorem OnePublisher.of_onlyNew {dirs dirs' : Dirs} {manifest : Manifest}
    (hone : OnePublisher lib dirs) (h : OnlyNew lib manifest dirs dirs')
    (hpublisher : ∀ m, Installed lib dirs m → m.id = manifest.id →
      m.publisher.id = manifest.publisher.id) : OnePublisher lib dirs' := by
  intro m m' hm hm' hid
  rcases h.installed hm with hold | rfl <;> rcases h.installed hm' with hold' | rfl
  · exact hone m m' hold hold' hid
  · exact hpublisher m hold hid
  · exact (hpublisher m' hold' hid.symm).symm
  · rfl

variable (plib : PackageLib)

theorem next_onePublisher {disk : Disk} (hstock : Stocked lib disk.dirs)
    (hone : OnePublisher lib disk.dirs) {label : InstallerLabel}
    (hlabel : Advancing lib plib disk label) :
    OnePublisher lib (disk.next lib plib label).dirs := by
  cases label with
  | upsertKey publisherId publicKey state updatedAt fault => exact hone
  | setPublisherState publisherId state updatedAt fault => exact hone
  | installPackage call => exact hlabel.elim
  | installTrustedPackage call accept =>
    rcases installTrustedPackage_onlyNew lib plib call accept disk with
      hnone | ⟨hplace,package,upgrade,hpackage,hcheck,honly⟩
    · exact hone.of_noneNew hnone
    · exact hone.of_onlyNew honly fun m hm hid =>
        publisher_of_checkInstall hstock hone (hlabel hplace package hpackage) hcheck hm hid
  | recover now => exact hone.of_noneNew (recover_noneNew lib now disk)

/-- In every run of trusted installations in which each package that is put in place is newer than
the installed versions of its plugin, all installed versions of a plugin have one publisher. -/
theorem onePublisher_of_advancing {disk : Disk}
    (h : (installer lib plib).ReachableWhen (Advancing lib plib) disk) :
    OnePublisher lib disk.dirs := by
  have hinv : Stocked lib disk.dirs ∧ OnePublisher lib disk.dirs := by
    refine h.invariant (fun disk => Stocked lib disk.dirs ∧ OnePublisher lib disk.dirs) ?_ ?_
    · rintro disk rfl
      constructor
      · intro path dir _ hdir
        cases hdir
      · rintro m m' ⟨dir,hdir,-⟩
        cases hdir
    · rintro disk label disk' ⟨hstock,hone⟩ hlabel rfl
      exact ⟨next_stocked plib hstock label,next_onePublisher plib hstock hone hlabel⟩
  exact hinv.2

end Publishers

/-- The text
[{"capability":"timer:schedule","params":{"maxPerMinute":60,"maxActive":2}}] -/
def timerPermissions : List UInt8 := [
  91,123,34,99,97,112,97,98,105,108,105,116,121,34,58,34,116,105,109,101,114,58,115,99,104,101,
  100,117,108,101,34,44,34,112,97,114,97,109,115,34,58,123,34,109,97,120,80,101,114,77,105,110,
  117,116,101,34,58,54,48,44,34,109,97,120,65,99,116,105,118,101,34,58,50,125,125,93]

/-- Versions of the clock that may schedule timers. -/
def timerManifest (version : String) : Manifest := { clockManifest with
  version := version
  permissions := [⟨"timer:schedule",some (.object [("maxActive",.number (.posInt 2)),
    ("maxPerMinute",.number (.posInt 60))])⟩] }

/-- The text
{"payloadType":"application/vnd.floatile.package-digest.v1","payload":"JYmEclaQeyjnpFFztiUGzM+n0
brTMQzqj9TpgWTLjwU=","signatures":[{"keyid":"21fe31dfa154a261626bf854046fd2271b7bed4b6abe45aa588
77ef47f9721b9","sig":"Mu+Lv6RnB/v1EyqRomsdRj+zPoG93/Sdo/oWxyKZdlY+9trGa11GVOq0IbHiHkM1gXhdZXQg0X
YuvVuC1+zlCg=="}]} -/
def timerEnvelopeBytes : List UInt8 := [
  123,34,112,97,121,108,111,97,100,84,121,112,101,34,58,34,97,112,112,108,105,99,97,116,105,111,
  110,47,118,110,100,46,102,108,111,97,116,105,108,101,46,112,97,99,107,97,103,101,45,100,105,103,
  101,115,116,46,118,49,34,44,34,112,97,121,108,111,97,100,34,58,34,74,89,109,69,99,108,97,81,101,
  121,106,110,112,70,70,122,116,105,85,71,122,77,43,110,48,98,114,84,77,81,122,113,106,57,84,112,
  103,87,84,76,106,119,85,61,34,44,34,115,105,103,110,97,116,117,114,101,115,34,58,91,123,34,107,
  101,121,105,100,34,58,34,50,49,102,101,51,49,100,102,97,49,53,52,97,50,54,49,54,50,54,98,102,56,
  53,52,48,52,54,102,100,50,50,55,49,98,55,98,101,100,52,98,54,97,98,101,52,53,97,97,53,56,56,55,
  55,101,102,52,55,102,57,55,50,49,98,57,34,44,34,115,105,103,34,58,34,77,117,43,76,118,54,82,110,
  66,47,118,49,69,121,113,82,111,109,115,100,82,106,43,122,80,111,71,57,51,47,83,100,111,47,111,
  87,120,121,75,90,100,108,89,43,57,116,114,71,97,49,49,71,86,79,113,48,73,98,72,105,72,107,77,49,
  103,88,104,100,90,88,81,103,48,88,89,117,118,86,117,67,49,43,122,108,67,103,61,61,34,125,93,125]

/-- A version of the clock with timers, older than the fork. -/
def timer : Release where
  manifest := timerManifest "1.10.0"
  manifestBytes := manifestJson "1.10.0" "org.example" timerPermissions
  manifestCrc := 647970755
  manifestDigest := "5c9cbdf7ff9bf9f0cdc117f7b8ccc22093a3e0aeb1b037944859aec13254df62"
  key := authorKey
  keyId := "21fe31dfa154a261626bf854046fd2271b7bed4b6abe45aa58877ef47f9721b9"
  signedDigest := "2589847256907b28e7a45173b62506cccfa7d1bad3310cea8fd4e98164cb8f05"
  payload := "JYmEclaQeyjnpFFztiUGzM+n0brTMQzqj9TpgWTLjwU="
  signature := [
    50,239,139,191,164,103,7,251,245,19,42,145,162,107,29,70,63,179,62,129,189,223,244,157,163,
    250,22,199,34,153,118,86,62,246,218,198,107,93,70,84,234,180,33,177,226,30,67,53,129,120,93,
    101,116,32,209,118,46,189,91,130,215,236,229,10]
  signatureText :=
    "Mu+Lv6RnB/v1EyqRomsdRj+zPoG93/Sdo/oWxyKZdlY+9trGa11GVOq0IbHiHkM1gXhdZXQg0XYuvVuC1+zlCg=="
  envelopeBytes := timerEnvelopeBytes
  envelopeCrc := 3790762822
  envelopeDigest := "6d26c7a5d03531ca34557ba58282f8bca47c28dabe4466a0ea426e552d2fb127"
  contentDigest := "7b9fe1127be1deab67bbb95682ec797f7601e407a162644f40516f080415d701"

/-- The text
{"payloadType":"application/vnd.floatile.package-digest.v1","payload":"u+ibSSdvQQawwdVpbyJQBT+i9
VBiw7/eLlPW1ZkgZM0=","signatures":[{"keyid":"21fe31dfa154a261626bf854046fd2271b7bed4b6abe45aa588
77ef47f9721b9","sig":"875mC/m269509v4FFeMr39v9P8pXEvmaPhFzdLGVSFGpYym6EbzZ8ZUDuWCpzp5BXHC2ttkGHy
JkZ6+02c19Dw=="}]} -/
def laterEnvelopeBytes : List UInt8 := [
  123,34,112,97,121,108,111,97,100,84,121,112,101,34,58,34,97,112,112,108,105,99,97,116,105,111,
  110,47,118,110,100,46,102,108,111,97,116,105,108,101,46,112,97,99,107,97,103,101,45,100,105,103,
  101,115,116,46,118,49,34,44,34,112,97,121,108,111,97,100,34,58,34,117,43,105,98,83,83,100,118,
  81,81,97,119,119,100,86,112,98,121,74,81,66,84,43,105,57,86,66,105,119,55,47,101,76,108,80,87,
  49,90,107,103,90,77,48,61,34,44,34,115,105,103,110,97,116,117,114,101,115,34,58,91,123,34,107,
  101,121,105,100,34,58,34,50,49,102,101,51,49,100,102,97,49,53,52,97,50,54,49,54,50,54,98,102,56,
  53,52,48,52,54,102,100,50,50,55,49,98,55,98,101,100,52,98,54,97,98,101,52,53,97,97,53,56,56,55,
  55,101,102,52,55,102,57,55,50,49,98,57,34,44,34,115,105,103,34,58,34,56,55,53,109,67,47,109,50,
  54,57,53,48,57,118,52,70,70,101,77,114,51,57,118,57,80,56,112,88,69,118,109,97,80,104,70,122,
  100,76,71,86,83,70,71,112,89,121,109,54,69,98,122,90,56,90,85,68,117,87,67,112,122,112,53,66,88,
  72,67,50,116,116,107,71,72,121,74,107,90,54,43,48,50,99,49,57,68,119,61,61,34,125,93,125]

/-- The next version of the clock with timers. -/
def later : Release where
  manifest := timerManifest "2.0.0"
  manifestBytes := manifestJson "2.0.0" "org.example" timerPermissions
  manifestCrc := 1734399071
  manifestDigest := "2e12e1f14a34b13eca951106c85ab3e1e041d85e1c16b70f198ad8c416f5f7ac"
  key := authorKey
  keyId := "21fe31dfa154a261626bf854046fd2271b7bed4b6abe45aa58877ef47f9721b9"
  signedDigest := "bbe89b49276f4106b0c1d5696f2250053fa2f55062c3bfde2e53d6d5992064cd"
  payload := "u+ibSSdvQQawwdVpbyJQBT+i9VBiw7/eLlPW1ZkgZM0="
  signature := [
    243,190,102,11,249,182,235,222,116,246,254,5,21,227,43,223,219,253,63,202,87,18,249,154,62,17,
    115,116,177,149,72,81,169,99,41,186,17,188,217,241,149,3,185,96,169,206,158,65,92,112,182,182,
    217,6,31,34,100,103,175,180,217,205,125,15]
  signatureText :=
    "875mC/m269509v4FFeMr39v9P8pXEvmaPhFzdLGVSFGpYym6EbzZ8ZUDuWCpzp5BXHC2ttkGHyJkZ6+02c19Dw=="
  envelopeBytes := laterEnvelopeBytes
  envelopeCrc := 3541712984
  envelopeDigest := "9cc07552ac9bc7f1edd4b9aa18d38dd3b17e1e921adbc7be20fec3550ccadadb"
  contentDigest := "9b68f6644fc271cab2e25e2256c719a90c1e7d2abb5f4481e0e354fe64e8cc86"

/-- The external functions on the bytes of the three packages. -/
def releasesLib : InstallLib (Fin 3) :=
  releaseLib [fork,timer,later] (sharedDigests ++ fork.digests ++ timer.digests ++ later.digests)
    [fork.metadata 20 .trusted,timer.metadata 20 .trusted,later.metadata 20 .trusted]

def releasesPackageLib : PackageLib := packageLibOf [fork.files,timer.files,later.files]

def nextTransaction : TransactionId := ⟨"4711-1763500001000000000",by decide⟩

/-- The installation of a second package. -/
def nextCallOf (files : List StoredFile) : InstallCall := { callOf files with
  transaction := nextTransaction }

def releasesNext (disk : Disk) (label : InstallerLabel) : Disk :=
  disk.next releasesLib releasesPackageLib label

/-- Both publishers are trusted. -/
def trustedDisk : Disk :=
  releasesNext (releasesNext Disk.empty (.upsertKey "net.example" forkKey .active 10 none))
    (.upsertKey "org.example" authorKey .active 10 none)

/-- The fork is installed, and then the older version with timers. -/
def forkDisk : Disk := releasesNext trustedDisk (.installTrustedPackage (callOf fork.files) false)

def forkTimerDisk : Disk :=
  releasesNext forkDisk (.installTrustedPackage (nextCallOf timer.files) false)

/-- The versions with timers are installed in their order. -/
def timerDisk : Disk := releasesNext trustedDisk (.installTrustedPackage (callOf timer.files) false)

def timerLaterDisk : Disk :=
  releasesNext timerDisk (.installTrustedPackage (nextCallOf later.files) false)

/-- The runs on the three packages, evaluated together. -/
theorem releases_evaluated :
    listing forkDisk.dirs = [("org.example.clock/2.0.0",some fork.manifestBytes)] ∧
    listing forkTimerDisk.dirs = [("org.example.clock/1.10.0",some timer.manifestBytes),
      ("org.example.clock/2.0.0",some fork.manifestBytes)] ∧
    listing timerDisk.dirs = [("org.example.clock/1.10.0",some timer.manifestBytes)] ∧
    listing timerLaterDisk.dirs = [("org.example.clock/1.10.0",some timer.manifestBytes),
      ("org.example.clock/2.0.0",some later.manifestBytes)] ∧
    (validatePackage releasesPackageLib (nextCallOf later.files).limits releasesLib
      (nextCallOf later.files).bytes).toOption.map ValidatedPackage.manifestBytes =
        some later.manifestBytes ∧
    (validatePackage releasesPackageLib (nextCallOf timer.files).limits releasesLib
      (nextCallOf timer.files).bytes).toOption.map ValidatedPackage.manifestBytes =
        some timer.manifestBytes ∧
    (installTrustedPackage releasesLib releasesPackageLib (nextCallOf timer.files) false
      forkDisk).1.toOption.isSome = true ∧
    (installTrustedPackage releasesLib releasesPackageLib (nextCallOf later.files) false
      timerDisk).1.toOption.isSome = true := by
  -- the runs from either disk, one after the other
  have hfork : listing forkDisk.dirs = [("org.example.clock/2.0.0",some fork.manifestBytes)] ∧
      listing forkTimerDisk.dirs = [("org.example.clock/1.10.0",some timer.manifestBytes),
        ("org.example.clock/2.0.0",some fork.manifestBytes)] ∧
      (validatePackage releasesPackageLib (nextCallOf timer.files).limits releasesLib
        (nextCallOf timer.files).bytes).toOption.map ValidatedPackage.manifestBytes =
          some timer.manifestBytes ∧
      (installTrustedPackage releasesLib releasesPackageLib (nextCallOf timer.files) false
        forkDisk).1.toOption.isSome = true := by
    decide +kernel
  have htimer : listing timerDisk.dirs =
        [("org.example.clock/1.10.0",some timer.manifestBytes)] ∧
      listing timerLaterDisk.dirs = [("org.example.clock/1.10.0",some timer.manifestBytes),
        ("org.example.clock/2.0.0",some later.manifestBytes)] ∧
      (validatePackage releasesPackageLib (nextCallOf later.files).limits releasesLib
        (nextCallOf later.files).bytes).toOption.map ValidatedPackage.manifestBytes =
          some later.manifestBytes ∧
      (installTrustedPackage releasesLib releasesPackageLib (nextCallOf later.files) false
        timerDisk).1.toOption.isSome = true := by
    decide +kernel
  obtain ⟨hforkDisk,hforkTimer,htimerPackage,hforkInstall⟩ := hfork
  obtain ⟨htimerDisk,htimerLater,hlaterPackage,htimerInstall⟩ := htimer
  exact ⟨hforkDisk,hforkTimer,htimerDisk,htimerLater,hlaterPackage,htimerPackage,hforkInstall,
    htimerInstall⟩

theorem releases_differ : fork.manifestBytes ≠ timer.manifestBytes ∧
    fork.manifestBytes ≠ later.manifestBytes ∧ timer.manifestBytes ≠ later.manifestBytes := by
  decide +kernel

theorem parse_fork : releasesLib.parseManifest fork.manifestBytes = .ok fork.manifest := by
  simp [releasesLib, releaseLib]

theorem parse_timer : releasesLib.parseManifest timer.manifestBytes = .ok timer.manifest := by
  simp [releasesLib, releaseLib, releases_differ]

theorem parse_later : releasesLib.parseManifest later.manifestBytes = .ok later.manifest := by
  simp [releasesLib, releaseLib, releases_differ]

/-- A plugin store with one version. -/
theorem eq_of_installed {dirs : Dirs} {path : String} {bytes : List UInt8}
    (h : listing dirs = [(path,some bytes)]) {manifest m : Manifest}
    (hparse : releasesLib.parseManifest bytes = .ok manifest)
    (hm : Installed releasesLib dirs m) : m = manifest := by
  obtain ⟨found,hmem,hfound,-⟩ := installed_iff_mem_listing.mp hm
  rw [h, List.mem_singleton, Prod.mk.injEq, Option.some.injEq] at hmem
  rw [hmem.2, hparse] at hfound
  exact (Except.ok.inj hfound).symm

theorem manifest_of_validated {call : InstallCall} {package : ValidatedPackage releasesLib}
    {bytes : List UInt8} {manifest : Manifest}
    (hpackage : validatePackage releasesPackageLib call.limits releasesLib call.bytes = .ok package)
    (h : (validatePackage releasesPackageLib call.limits releasesLib call.bytes).toOption.map
      ValidatedPackage.manifestBytes = some bytes)
    (hparse : releasesLib.parseManifest bytes = .ok manifest) : package.manifest = manifest := by
  rw [hpackage] at h
  have hparsed := package.parsed
  rw [Option.some.inj h, hparse] at hparsed
  exact (Except.ok.inj hparsed).symm

theorem reachable_releasesNext {C : Disk → InstallerLabel → Prop} {disk : Disk}
    (h : (installer releasesLib releasesPackageLib).ReachableWhen C disk) (label : InstallerLabel)
    (hC : C disk label) :
    (installer releasesLib releasesPackageLib).ReachableWhen C (releasesNext disk label) :=
  h.apply hC

theorem advancing_trustedDisk : (installer releasesLib releasesPackageLib).ReachableWhen
    (Advancing releasesLib releasesPackageLib) trustedDisk := by
  have hempty : (installer releasesLib releasesPackageLib).ReachableWhen
      (Advancing releasesLib releasesPackageLib) Disk.empty := System.ReachableWhen.of_init rfl
  have hfork := reachable_releasesNext hempty (.upsertKey "net.example" forkKey .active 10 none)
    trivial
  exact reachable_releasesNext hfork (.upsertKey "org.example" authorKey .active 10 none) trivial

theorem advancing_timerLaterDisk : (installer releasesLib releasesPackageLib).ReachableWhen
    (Advancing releasesLib releasesPackageLib) timerLaterDisk := by
  have htimer : (installer releasesLib releasesPackageLib).ReachableWhen
      (Advancing releasesLib releasesPackageLib) timerDisk := by
    refine reachable_releasesNext advancing_trustedDisk _ ?_
    rintro - package - m ⟨dir,hdir,-⟩
    cases hdir
  refine reachable_releasesNext htimer _ ?_
  intro _ package hpackage m hm _
  obtain ⟨-,-,htimer,-,hlater,-⟩ := releases_evaluated
  rw [manifest_of_validated hpackage hlater parse_later, eq_of_installed htimer parse_timer hm]
  exact ⟨2,1,rfl,rfl,by decide⟩

theorem timer_and_later_publisher :
    Installed releasesLib timerLaterDisk.dirs timer.manifest ∧
    Installed releasesLib timerLaterDisk.dirs later.manifest ∧
    timer.manifest.publisher.id = later.manifest.publisher.id := by
  obtain ⟨-,-,-,hlisting,-⟩ := releases_evaluated
  have htimer : Installed releasesLib timerLaterDisk.dirs timer.manifest :=
    installed_of_listing hlisting List.mem_cons_self parse_timer rfl
  have hlater : Installed releasesLib timerLaterDisk.dirs later.manifest :=
    installed_of_listing hlisting (List.mem_cons_of_mem _ List.mem_cons_self) parse_later rfl
  exact ⟨htimer,hlater,onePublisher_of_advancing releasesPackageLib advancing_timerLaterDisk
    _ _ htimer hlater rfl⟩

theorem reachable_forkDisk : (installer releasesLib releasesPackageLib).Reachable forkDisk :=
  reachable_releasesNext advancing_trustedDisk.reachable _ trivial

/-- Two trusted installations leave versions of one plugin by two publishers. -/
theorem two_publishers_installed :
    (installer releasesLib releasesPackageLib).Reachable forkTimerDisk ∧
    Installed releasesLib forkTimerDisk.dirs fork.manifest ∧
    Installed releasesLib forkTimerDisk.dirs timer.manifest ∧
    fork.manifest.id = timer.manifest.id ∧
    fork.manifest.publisher.id ≠ timer.manifest.publisher.id := by
  obtain ⟨-,hlisting,-⟩ := releases_evaluated
  refine ⟨reachable_releasesNext reachable_forkDisk _ trivial,?_,?_,rfl,by decide⟩
  · exact installed_of_listing hlisting (List.mem_cons_of_mem _ List.mem_cons_self) parse_fork rfl
  · exact installed_of_listing hlisting List.mem_cons_self parse_timer rfl

end Floatile.Cli
