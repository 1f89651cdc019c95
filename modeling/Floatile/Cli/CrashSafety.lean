import Floatile.Cli.Recovery
import Floatile.Core.SignatureOrder

/-! Crash safety of the trusted installation: over every run of installations that may stop after
any step, the states from which a recovery puts everything in order. -/
namespace Floatile.Cli

open Floatile.Core
open Floatile.Core.Signature
open Floatile.Lib Floatile.Lib.Register
open Floatile.Store

section Steps

variable {Version : Type} {lib : InstallLib Version}

/-- Accepted packages are those of directories that are in place. -/
def AcceptedInPlace (lib : InstallLib Version) (disk : Disk) : Prop :=
  ∀ key row, disk.tables.accepted.get key = some row → ∃ v, row.version = lib.versions.toText v ∧
    disk.dirs.has (installDir (ofLex key).2 row.version) = true

theorem AcceptedInPlace.readable {disk : Disk} (h : AcceptedInPlace lib disk) :
    Readable lib.versions disk.tables.accepted := by
  intro key row hrow
  obtain ⟨v,hv,-⟩ := h key row hrow
  exact ⟨v,by rw [hv, lib.versions.parse_toText]⟩

/-- An accepted version has its directory. -/
theorem AcceptedInPlace.has {disk : Disk} (h : AcceptedInPlace lib disk)
    {p : PendingInstallation Version} (hp : Wellformed lib p) {d : Bytes32}
    (haccepted : Accepted lib.versions disk.tables (claim p).1 p.version d) :
    disk.dirs.has p.finalRelative = true := by
  obtain ⟨row,hrow,hparse,-⟩ := haccepted
  obtain ⟨v,hv,hhas⟩ := h _ row hrow
  rw [hv, lib.versions.parse_toText] at hparse
  obtain rfl := Except.ok.inj hparse
  rw [hv] at hhas
  rw [hp.final]
  exact hhas

/-- A step that announces nothing: no final directory is lost, and what is newly accepted is in
place. -/
structure DiskStep (lib : InstallLib Version) (disk disk' : Disk) : Prop where
  dirs : ∀ id version, disk.dirs.has (installDir id version) = true →
    disk'.dirs.has (installDir id version) = true
  pending : ∀ t row, disk'.tables.pending.get t = some row → disk.tables.pending.get t = some row
  accepted : ∀ key row, disk'.tables.accepted.get key = some row →
    disk.tables.accepted.get key = some row ∨ ∃ v, row.version = lib.versions.toText v ∧
      disk'.dirs.has (installDir (ofLex key).2 row.version) = true

/-- The only installation announced under its transaction. -/
structure Owns (lib : InstallLib Version) (disk : Disk) (p : PendingInstallation Version) :
    Prop where
  wellformed : Wellformed lib p
  only : ∀ q, Announced lib disk.tables q → q.transactionId = p.transactionId → q = p

namespace DiskStep

theorem refl (disk : Disk) : DiskStep lib disk disk :=
  ⟨fun _ _ h => h,fun _ _ h => h,fun _ _ h => Or.inl h⟩

theorem trans {disk disk' disk'' : Disk} (h : DiskStep lib disk disk')
    (h' : DiskStep lib disk' disk'') : DiskStep lib disk disk'' := by
  refine ⟨fun id version hhas => h'.dirs id version (h.dirs id version hhas),
    fun t row hrow => h.pending t row (h'.pending t row hrow),?_⟩
  intro key row hrow
  rcases h'.accepted key row hrow with hold | hnew
  · rcases h.accepted key row hold with hold | ⟨v,hv,hhas⟩
    · exact Or.inl hold
    · exact Or.inr ⟨v,hv,h'.dirs _ _ hhas⟩
  · exact Or.inr hnew

theorem rowsReadable {disk disk' : Disk} (h : DiskStep lib disk disk')
    (hrows : RowsReadable lib disk.tables) : RowsReadable lib disk'.tables :=
  fun t row hrow => hrows t row (h.pending t row hrow)

theorem acceptedInPlace {disk disk' : Disk} (h : DiskStep lib disk disk')
    (haccepted : AcceptedInPlace lib disk) : AcceptedInPlace lib disk' := by
  intro key row hrow
  rcases h.accepted key row hrow with hold | hnew
  · obtain ⟨v,hv,hhas⟩ := haccepted key row hold
    exact ⟨v,hv,h.dirs _ _ hhas⟩
  · exact hnew

theorem announced {disk disk' : Disk} (h : DiskStep lib disk disk')
    {p : PendingInstallation Version} (hp : Announced lib disk'.tables p) :
    Announced lib disk.tables p :=
  ⟨h.pending _ _ hp.row,hp.wellformed⟩

/-- A directory is created or a file is written to it. -/
theorem insertDir (disk : Disk) (path : String) (files : Files) :
    DiskStep lib disk ⟨OrdMap.insert disk.dirs path files,disk.tables⟩ := by
  refine ⟨fun id version hhas => ?_,fun _ _ h => h,fun _ _ h => Or.inl h⟩
  simp only [Dirs.has, OrdMap.get_insert] at hhas ⊢
  split_ifs
  · rfl
  · exact hhas

/-- A staging directory is removed. -/
theorem eraseDir (disk : Disk) {transactionId : String}
    (h : validateTransactionId transactionId = .ok ()) :
    DiskStep lib disk ⟨OrdMap.erase disk.dirs (stagingDir transactionId),disk.tables⟩ := by
  refine ⟨fun id version hhas => ?_,fun _ _ h => h,fun _ _ h => Or.inl h⟩
  simp only [Dirs.has] at hhas ⊢
  rw [OrdMap.get_erase_of_ne _ (installDir_ne_stagingDir h id version)]
  exact hhas

theorem ofTables (disk : Disk) (tables : TrustTables)
    (hpending : ∀ t row, tables.pending.get t = some row → disk.tables.pending.get t = some row)
    (haccepted : tables.accepted = disk.tables.accepted) :
    DiskStep lib disk ⟨disk.dirs,tables⟩ := by
  refine ⟨fun _ _ h => h,hpending,fun key row hrow => Or.inl ?_⟩
  rw [← haccepted]
  exact hrow

theorem abort (disk : Disk) (fault : Option ℕ) (transactionId : String) :
    DiskStep lib disk ⟨disk.dirs,(abortInstall fault disk.tables transactionId).2⟩ := by
  refine ofTables disk _ ?_ ?_
  · intro t row hrow
    unfold abortInstall at hrow
    split at hrow
    · exact hrow
    · rw [write_snd] at hrow
      split_ifs at hrow
      · exact hrow
      · rw [OrdMap.get_erase] at hrow
        split_ifs at hrow
        exact hrow
  · unfold abortInstall
    split
    · rfl
    · rw [write_snd]
      split_ifs <;> rfl

variable [LinearOrder Version]

/-- The acceptance of an announced installation whose directory is in place. -/
theorem finalize {disk : Disk} (fault : Option ℕ) {transactionId : String} (acceptedAt : ℕ)
    (hrows : RowsReadable lib disk.tables)
    (hfinal : ∀ p, Announced lib disk.tables p → p.transactionId = transactionId →
      disk.dirs.has p.finalRelative = true) :
    DiskStep lib disk
      ⟨disk.dirs,(finalizeInstall lib.versions fault disk.tables transactionId acceptedAt).2⟩ := by
  unfold finalizeInstall
  cases hfound : pendingInstall lib.versions disk.tables transactionId with
  | error e => exact refl disk
  | ok found =>
    cases found with
    | none => exact refl disk
    | some p =>
      obtain ⟨hid,hp⟩ := hrows.of_pendingInstall hfound
      have haccept : ∀ accepted, (accepted = disk.tables.accepted ∨ ∃ time, accepted =
          disk.tables.accepted.insert (toLex (p.publisherId,p.pluginId))
            (AcceptedRow.mk (lib.versions.toText p.version) p.signedDigest time)) →
          ∀ key row, accepted.get key = some row → disk.tables.accepted.get key = some row ∨
            ∃ v, row.version = lib.versions.toText v ∧
              disk.dirs.has (installDir (ofLex key).2 row.version) = true := by
        rintro accepted (rfl | ⟨time,rfl⟩) key row hrow
        · exact Or.inl hrow
        · rw [OrdMap.get_insert] at hrow
          split_ifs at hrow with hkey
          · obtain rfl := Option.some.inj hrow
            subst hkey
            have hhas := hfinal p hp hid
            rw [hp.wellformed.final] at hhas
            exact Or.inr ⟨p.version,rfl,hhas⟩
          · exact Or.inl hrow
      obtain ⟨accepted,htables,hcases⟩ := acceptPackage_tables lib.versions fault disk.tables
        p.publisherId p.pluginId p.version p.signedDigest acceptedAt
      simp only [liftStore_ok]
      generalize acceptPackage lib.versions fault disk.tables p.publisherId p.pluginId p.version
        p.signedDigest acceptedAt = r at htables ⊢
      obtain ⟨result,tables⟩ := r
      obtain rfl : tables = { disk.tables with accepted := accepted } := htables
      cases result with
      | error e => exact ⟨fun _ _ h => h,fun _ _ h => h,haccept accepted hcases⟩
      | ok outcome =>
        simp only [write_snd]
        split_ifs
        · exact ⟨fun _ _ h => h,fun _ _ h => h,haccept accepted hcases⟩
        · refine ⟨fun _ _ h => h,fun t row hrow => ?_,haccept accepted hcases⟩
          rw [OrdMap.get_erase] at hrow
          split_ifs at hrow
          exact hrow

theorem recoverRow {disk : Disk} {p : PendingInstallation Version} (hp : Owns lib disk p)
    (hrows : RowsReadable lib disk.tables) (now : UnixSeconds) :
    DiskStep lib disk (Cli.recoverRow lib now disk p).2 := by
  cases hfinal : disk.dirs.has p.finalRelative with
  | false =>
    cases hstaging : disk.dirs.has p.stagingName with
    | false =>
      have habort : DiskStep lib disk _ := abort disk none p.transactionId
      simp only [Cli.recoverRow, hstaging, hfinal, Bool.false_eq_true, if_false]
      split
      · next h => rw [h] at habort; exact habort
      · next h => rw [h] at habort; exact habort
    | true =>
      have hremove : DiskStep lib disk _ := eraseDir disk hp.wellformed.transaction
      have habort := hremove.trans (abort _ none p.transactionId)
      rw [← hp.wellformed.staging] at habort
      simp only [Cli.recoverRow, hstaging, hfinal, if_true]
      split
      · next h => rw [h] at habort; exact habort
      · next h => rw [h] at habort; exact habort
  | true =>
    cases hstaging : disk.dirs.has p.stagingName with
    | true =>
      simp only [Cli.recoverRow, hstaging, hfinal]
      exact refl disk
    | false =>
      have hfinalize : DiskStep lib disk _ := finalize none now.value hrows
        (fun q hq hid => by rw [hp.only q hq hid]; exact hfinal)
      simp only [Cli.recoverRow, hstaging, hfinal]
      split
      · exact refl disk
      · split
        · next h => rw [h] at hfinalize; exact hfinalize
        · next h => rw [h] at hfinalize; exact hfinalize

omit [LinearOrder Version] in
theorem owns {disk disk' : Disk} (h : DiskStep lib disk disk') {p : PendingInstallation Version}
    (hp : Owns lib disk p) : Owns lib disk' p :=
  ⟨hp.wellformed,fun q hq hid => hp.only q (h.announced hq) hid⟩

theorem recoverRows (now : UnixSeconds) (ps : List (PendingInstallation Version))
    (report : RecoveryReport) (disk : Disk) (hps : ∀ p ∈ ps, Owns lib disk p)
    (hrows : RowsReadable lib disk.tables) :
    DiskStep lib disk (Cli.recoverRows lib now ps report disk).2 := by
  induction ps generalizing report disk with
  | nil => exact refl disk
  | cons p ps ih =>
    rw [List.forall_mem_cons] at hps
    have hturn := recoverRow hps.1 hrows now
    simp only [Cli.recoverRows]
    generalize Cli.recoverRow lib now disk p = turn at hturn ⊢
    obtain ⟨result,disk'⟩ := turn
    cases result with
    | error e => exact hturn
    | ok finalized =>
      exact hturn.trans (ih _ disk' (fun q hq => hturn.owns (hps.2 q hq))
        (hturn.rowsReadable hrows))

theorem recover (now : UnixSeconds) {disk : Disk} (hrows : RowsReadable lib disk.tables) :
    DiskStep lib disk (recoverTrustedInstalls lib now disk).2 := by
  obtain ⟨ps,hps,-,hmem⟩ := hrows.pendingInstalls
  rw [recoverTrustedInstalls, hps]
  refine recoverRows now ps _ disk (fun p hp => ?_) hrows
  have hann := (hmem p).mp hp
  exact ⟨hann.wellformed,fun q hq hid => hq.unique hann hid⟩

end DiskStep

end Steps

section Disk

variable {Version : Type} [LinearOrder Version] {lib : InstallLib Version}

/-- What a recovery is to leave behind: it succeeds, no announced installation and no staging
directory is left, and the final directory of an installation that was announced is in place
exactly when its version and digest are the accepted ones. -/
structure Recovered (lib : InstallLib Version) (now : UnixSeconds) (disk : Disk) : Prop where
  succeeds : ∃ report, (recoverTrustedInstalls lib now disk).1 = .ok report
  rows : (recoverTrustedInstalls lib now disk).2.tables.pending.entries = []
  staging : ∀ transactionId,
    (recoverTrustedInstalls lib now disk).2.dirs.has (stagingDir transactionId) = false
  inPlace : ∀ p, Announced lib disk.tables p →
    ((recoverTrustedInstalls lib now disk).2.dirs.has p.finalRelative = true ↔
      Accepted lib.versions (recoverTrustedInstalls lib now disk).2.tables
        (toLex (p.publisherId,p.pluginId)) p.version p.signedDigest)

/-- Every staging directory is announced; no installation has both directories; what was renamed
still verifies and is neither behind nor beside what is accepted; and two renamed installations
of one plugin are of the same version and digest. -/
structure Recoverable (lib : InstallLib Version) (disk : Disk) : Prop where
  announced : ∀ transactionId, disk.dirs.has (stagingDir transactionId) = true →
    (disk.tables.pending.get transactionId).isSome
  recovers : ∀ p, Announced lib disk.tables p → RowRecovers lib disk p
  admitted : ∀ p, Announced lib disk.tables p → disk.dirs.has p.finalRelative = true →
    ∀ v d, Accepted lib.versions disk.tables (toLex (p.publisherId,p.pluginId)) v d →
      v < p.version ∨ v = p.version ∧ d = p.signedDigest
  agree : ∀ p q, Announced lib disk.tables p → Announced lib disk.tables q →
    disk.dirs.has p.finalRelative = true → disk.dirs.has q.finalRelative = true →
    p.publisherId = q.publisherId → p.pluginId = q.pluginId →
    p.version = q.version ∧ p.signedDigest = q.signedDigest

theorem admits_claim_iff {disk : Disk} {p : PendingInstallation Version} :
    Admits Replaces (acceptedOf lib disk.tables.accepted) (claim p) ↔
      ∀ v d, Accepted lib.versions disk.tables (toLex (p.publisherId,p.pluginId)) v d →
        v < p.version ∨ v = p.version ∧ d = p.signedDigest := by
  simp only [Admits, Replaces, Prod.forall, Option.mem_def, acceptedOf_eq_some, claim,
    Prod.mk.injEq]

omit [LinearOrder Version] in
theorem mem_renamed {disk : Disk} {ps : List (PendingInstallation Version)}
    {x : (String ×ₗ String) × (Version × Bytes32)} :
    x ∈ renamed disk ps ↔ ∃ p ∈ ps, disk.dirs.has p.finalRelative = true ∧ claim p = x := by
  simp [renamed, and_assoc]

omit [LinearOrder Version] in
/-- Recovery leaves the final directories alone. -/
theorem LoopDone.has_final {disk disk' : Disk} {ps : List (PendingInstallation Version)}
    (h : LoopDone lib disk ps disk') (hann : ∀ p ∈ ps, Announced lib disk.tables p)
    {p : PendingInstallation Version} (hp : Announced lib disk.tables p) :
    disk'.dirs.has p.finalRelative = disk.dirs.has p.finalRelative := by
  rw [Dirs.has, h.others, Dirs.has]
  exact fun q hq => (hann q hq).wellformed.final_ne_staging hp.wellformed

/-- Recovery as the loop over all announced installations. -/
theorem recover_spec {disk : Disk} (hrows : RowsReadable lib disk.tables)
    (hread : Readable lib.versions disk.tables.accepted) (now : UnixSeconds) :
    let r := recoverTrustedInstalls lib now disk
    ∃ ps : List (PendingInstallation Version), (∀ p, p ∈ ps ↔ Announced lib disk.tables p) ∧
      (LoopReady lib disk ps → (∃ report, r.1 = .ok report) ∧ LoopDone lib disk ps r.2) ∧
      (¬LoopReady lib disk ps → ∃ e, r.1 = .error e) := by
  obtain ⟨ps,hps,hnames,hmem⟩ := hrows.pendingInstalls
  have hspec := recoverRows_spec now ps ⟨0,0⟩ disk hnames (fun p hp => (hmem p).mp hp) hread
  simp only [recoverTrustedInstalls, hps]
  exact ⟨ps,hmem,hspec⟩

namespace LoopDone

variable {disk disk' : Disk} {ps : List (PendingInstallation Version)}

omit [LinearOrder Version] in
/-- No announced installation is left. -/
theorem pending_nil (h : LoopDone lib disk ps disk') (hrows : RowsReadable lib disk.tables)
    (hmem : ∀ p, p ∈ ps ↔ Announced lib disk.tables p) :
    disk'.tables.pending.entries = [] := by
  rw [List.eq_nil_iff_forall_not_mem]
  rintro ⟨t,row⟩ he
  obtain ⟨hrow,hids⟩ := h.pending t row ((disk'.tables.pending.mem_entries_iff t row).mp he)
  obtain ⟨p,hid,hp⟩ := hrows.announced hrow
  exact hids p ((hmem p).mpr hp) hid

omit [LinearOrder Version] in
/-- The staging directories that are left are those that nothing announces. -/
theorem staging_iff (h : LoopDone lib disk ps disk') (hrows : RowsReadable lib disk.tables)
    (hmem : ∀ p, p ∈ ps ↔ Announced lib disk.tables p) :
    (∀ t, disk'.dirs.has (stagingDir t) = false) ↔
      ∀ t, disk.dirs.has (stagingDir t) = true → (disk.tables.pending.get t).isSome := by
  have hother : ∀ t, ¬(disk.tables.pending.get t).isSome →
      disk'.dirs.has (stagingDir t) = disk.dirs.has (stagingDir t) := by
    intro t hrow
    rw [Dirs.has, h.others, Dirs.has]
    intro p hp heq
    have hann := (hmem p).mp hp
    rw [hann.wellformed.staging] at heq
    rw [stagingDir_injective heq, hann.row] at hrow
    exact hrow rfl
  constructor
  · intro hgone t ht
    by_contra hrow
    rw [← hother t hrow, hgone t] at ht
    cases ht
  · intro hannounced t
    by_cases hrow : (disk.tables.pending.get t).isSome
    · obtain ⟨row,hrow⟩ := Option.isSome_iff_exists.mp hrow
      obtain ⟨p,rfl,hp⟩ := hrows.announced hrow
      rw [has_eq_false, ← hp.wellformed.staging]
      exact h.staging p ((hmem p).mpr hp)
    · rw [hother t hrow, ← Bool.not_eq_true]
      exact fun ht => hrow (hannounced t ht)

omit [LinearOrder Version] in
/-- Final directories stand for accepted packages exactly when no renamed installation has been
overtaken by another one. -/
theorem inPlace_iff (h : LoopDone lib disk ps disk')
    (hmem : ∀ p, p ∈ ps ↔ Announced lib disk.tables p) (hafter : AcceptedInPlace lib disk') :
    (∀ p, Announced lib disk.tables p → (disk'.dirs.has p.finalRelative = true ↔
      Accepted lib.versions disk'.tables (toLex (p.publisherId,p.pluginId)) p.version
        p.signedDigest)) ↔
      ∀ x ∈ renamed disk ps,
        putAll (acceptedOf lib disk.tables.accepted) (renamed disk ps) x.1 = some x.2 := by
  have hann : ∀ p ∈ ps, Announced lib disk.tables p := fun p hp => (hmem p).mp hp
  constructor
  · intro hinPlace x hx
    obtain ⟨p,hp,hhas,rfl⟩ := mem_renamed.mp hx
    rw [← h.has_final hann (hann p hp), hinPlace p (hann p hp), ← acceptedOf_eq_some,
      h.accepted] at hhas
    exact hhas
  · intro hvalues p hp
    constructor
    · intro hhas
      rw [h.has_final hann hp] at hhas
      rw [← acceptedOf_eq_some, h.accepted]
      exact hvalues _ (mem_renamed.mpr ⟨p,(hmem p).mpr hp,hhas,rfl⟩)
    · exact fun haccepted => hafter.has hp.wellformed haccepted

end LoopDone

/-- From a disk whose rows can be read and whose accepted packages are in place, a recovery puts
everything in order exactly when the disk is recoverable. -/
theorem recovered_iff {disk : Disk} (hrows : RowsReadable lib disk.tables)
    (haccepted : AcceptedInPlace lib disk) (now : UnixSeconds) :
    Recovered lib now disk ↔ Recoverable lib disk := by
  obtain ⟨ps,hmem,hready,hnotReady⟩ := recover_spec hrows haccepted.readable now
  have hafter := (DiskStep.recover now hrows).acceptedInPlace haccepted
  have hann : ∀ p ∈ ps, Announced lib disk.tables p := fun p hp => (hmem p).mp hp
  have hkept := allAdmitted_and_kept_iff Replaces.refl (acceptedOf lib disk.tables.accepted)
    (renamed disk ps)
  constructor
  · rintro ⟨⟨report,hreport⟩,-,hstaging,hinPlace⟩
    have hloop : LoopReady lib disk ps := by
      by_contra h
      obtain ⟨e,he⟩ := hnotReady h
      rw [he] at hreport
      cases hreport
    obtain ⟨-,hdone⟩ := hready hloop
    obtain ⟨hadmits,hagree⟩ :=
      hkept.mp ⟨hloop.admitted,(hdone.inPlace_iff hmem hafter).mp hinPlace⟩
    refine ⟨(hdone.staging_iff hrows hmem).mp hstaging,
      fun p hp => hloop.recovers p ((hmem p).mpr hp),?_,?_⟩
    · intro p hp hhas
      exact admits_claim_iff.mp (hadmits _ (mem_renamed.mpr ⟨p,(hmem p).mpr hp,hhas,rfl⟩))
    · intro p q hp hq hhas hhas' hpublisher hplugin
      have hvalue := hagree _ (mem_renamed.mpr ⟨p,(hmem p).mpr hp,hhas,rfl⟩) _
        (mem_renamed.mpr ⟨q,(hmem q).mpr hq,hhas',rfl⟩) (by simp [claim, hpublisher, hplugin])
      simpa [claim] using hvalue
  · rintro ⟨hannounced,hrecovers,hadmitted,hagree⟩
    have hadmits : ∀ x ∈ renamed disk ps,
        Admits Replaces (acceptedOf lib disk.tables.accepted) x := by
      intro x hx
      obtain ⟨p,hp,hhas,rfl⟩ := mem_renamed.mp hx
      exact admits_claim_iff.mpr (hadmitted p (hann p hp) hhas)
    have hvalue : ∀ x ∈ renamed disk ps, ∀ y ∈ renamed disk ps, x.1 = y.1 → x.2 = y.2 := by
      intro x hx y hy hkey
      obtain ⟨p,hp,hhas,rfl⟩ := mem_renamed.mp hx
      obtain ⟨q,hq,hhas',rfl⟩ := mem_renamed.mp hy
      obtain ⟨hpublisher,hplugin⟩ := Prod.ext_iff.mp (toLex_inj.mp hkey)
      exact Prod.ext_iff.mpr (hagree p q (hann p hp) (hann q hq) hhas hhas' hpublisher hplugin)
    obtain ⟨hadmitted,hvalues⟩ := hkept.mpr ⟨hadmits,hvalue⟩
    obtain ⟨hsucceeds,hdone⟩ := hready ⟨fun p hp => hrecovers p (hann p hp),hadmitted⟩
    exact ⟨hsucceeds,hdone.pending_nil hrows hmem,(hdone.staging_iff hrows hmem).mpr hannounced,
      (hdone.inPlace_iff hmem hafter).mpr hvalues⟩

end Disk

section Runs

variable {Version : Type} [LinearOrder Version] {lib : InstallLib Version}

omit [LinearOrder Version] in
theorem upsertKey_installs (publisherKeyId : Bytes32 → String) (fault : Option ℕ) (t : TrustTables)
    (publisherId : String) (publicKey : Bytes32) (state : TrustState) (updatedAt : ℕ) :
    let t' := (upsertKey publisherKeyId fault t publisherId publicKey state updatedAt).2
    t'.pending = t.pending ∧ t'.accepted = t.accepted := by
  unfold upsertKey
  split
  · exact ⟨rfl,rfl⟩
  · simp only [write_snd]
    split_ifs <;> exact ⟨rfl,rfl⟩

omit [LinearOrder Version] in
theorem setPublisherState_installs (fault : Option ℕ) (t : TrustTables) (publisherId : String)
    (state : TrustState) (updatedAt : ℕ) :
    let t' := (setPublisherState fault t publisherId state updatedAt).2
    t'.pending = t.pending ∧ t'.accepted = t.accepted := by
  unfold setPublisherState
  split
  · exact ⟨rfl,rfl⟩
  · split
    · simp only [write_snd]
      split_ifs <;> exact ⟨rfl,rfl⟩
    · simp only [write_snd]
      split_ifs <;> exact ⟨rfl,rfl⟩

/-- What is known about an installation that has come as far as the given phase. -/
structure PhaseInv (lib : InstallLib Version) (disk : Disk) (t : String)
    (phase : InstallPhase Version) : Prop where
  name : validateTransactionId t = .ok ()
  prepared : ∀ pending, phase = .prepared pending → ∀ p, Announced lib disk.tables p →
    p.transactionId = t → p.finalRelative = pending.finalRelative
  renamed : ∀ pending, phase = .renamed pending → ∀ p, Announced lib disk.tables p →
    p.transactionId = t → disk.dirs.has p.finalRelative = true

/-- What holds of a site between the steps of the installations. -/
structure SiteInv (s : Site lib) : Prop where
  rows : RowsReadable lib s.tables
  accepted : AcceptedInPlace lib s.disk
  running : ∀ t i, s.running.get t = some i → PhaseInv lib s.disk t i.phase

omit [LinearOrder Version] in
theorem PhaseInv.step {disk disk' : Disk} (h : DiskStep lib disk disk') {t : String}
    {phase : InstallPhase Version} (hphase : PhaseInv lib disk t phase) :
    PhaseInv lib disk' t phase := by
  refine ⟨hphase.name,fun pending heq p hp hid => ?_,fun pending heq p hp hid => ?_⟩
  · exact hphase.prepared pending heq p (h.announced hp) hid
  · have hhas := hphase.renamed pending heq p (h.announced hp) hid
    rw [hp.wellformed.final] at hhas ⊢
    exact h.dirs _ _ hhas

omit [LinearOrder Version] in
/-- A phase in which nothing is announced and in place yet. -/
theorem PhaseInv.quiet {disk : Disk} {t : String} (h : validateTransactionId t = .ok ())
    {phase : InstallPhase Version} (hprepared : ∀ pending, phase ≠ .prepared pending)
    (hrenamed : ∀ pending, phase ≠ .renamed pending) : PhaseInv lib disk t phase :=
  ⟨h,fun pending heq => absurd heq (hprepared pending),
    fun pending heq => absurd heq (hrenamed pending)⟩

namespace SiteInv

variable {s : Site lib} {dirs : Dirs} {tables : TrustTables}

omit [LinearOrder Version] in
/-- A step of the disk, and one installation in another phase. -/
theorem withPhase (h : SiteInv s) (hdisk : DiskStep lib s.disk ⟨dirs,tables⟩) {t : String}
    (i : Install lib) {phase : InstallPhase Version}
    (hphase : PhaseInv lib ⟨dirs,tables⟩ t phase) :
    SiteInv (Site.withPhase ⟨dirs,tables,s.running⟩ t i phase) := by
  refine ⟨hdisk.rowsReadable h.rows,hdisk.acceptedInPlace h.accepted,fun u j hj => ?_⟩
  simp only [Site.withPhase, OrdMap.get_insert] at hj
  split_ifs at hj with hu
  · obtain rfl := Option.some.inj hj
    subst hu
    exact hphase
  · exact (h.running u j hj).step hdisk

omit [LinearOrder Version] in
theorem ofDisk (h : SiteInv s) (hdisk : DiskStep lib s.disk ⟨dirs,tables⟩) :
    SiteInv (Site.mk dirs tables s.running) :=
  ⟨hdisk.rowsReadable h.rows,hdisk.acceptedInPlace h.accepted,
    fun u j hj => (h.running u j hj).step hdisk⟩

omit [LinearOrder Version] in
theorem finish (h : SiteInv s) (t : String) : SiteInv (s.finish t) := by
  refine ⟨h.rows,h.accepted,fun u j hj => ?_⟩
  simp only [Site.finish, OrdMap.get_erase] at hj
  split_ifs at hj with hu
  exact h.running u j hj

theorem start (h : SiteInv s) (t : TransactionId) (package : ValidatedPackage lib)
    (source : String) (installedAt : UnixSeconds) (accept : Bool) :
    SiteInv (s.start t.text package source installedAt accept) := by
  unfold Site.start
  split
  · exact h
  · split
    · exact h
    · exact h.withPhase (DiskStep.refl s.disk) ⟨package,source,installedAt,.making⟩
        (PhaseInv.quiet t.valid (by simp) (by simp))

variable (lib) in
/-- A failed announcement leaves the tables alone, a successful one adds the row. -/
theorem prepareInstall_spec (fault : Option ℕ) (t : TrustTables)
    (pending : PendingInstallation Version) :
    let r := prepareInstall lib.versions (keyId lib) fault t pending
    (∀ e, r.1 = .error e → r.2 = t) ∧
    (∀ u, r.1 = .ok u → Wellformed lib pending ∧ r.2 = { t with
      pending := t.pending.insert pending.transactionId
        (pending.row lib.versions pending.createdAt) }) := by
  unfold prepareInstall
  split
  · exact ⟨fun _ _ => rfl,by simp⟩
  · next createdAt hchecked =>
    simp only [Checked.check_bind_eq_ok] at hchecked
    obtain ⟨hvalid,-,htime⟩ := hchecked
    have hwellformed : Wellformed lib pending := by
      rw [liftStore, Checked.mapError_eq_ok] at hvalid
      exact (validatePending_eq_ok_iff pending).mp hvalid
    have hcreated : createdAt = pending.createdAt := by
      rw [liftStore, Checked.mapError_eq_ok, sqliteTime] at htime
      split_ifs at htime
      · exact (Except.ok.inj htime).symm
      · cases htime
    subst hcreated
    split
    · exact ⟨fun _ _ => rfl,by simp⟩
    · unfold write
      split_ifs
      · exact ⟨fun _ _ => rfl,by simp⟩
      · exact ⟨by simp,fun _ _ => ⟨hwellformed,rfl⟩⟩

omit [LinearOrder Version] in
/-- The announcement: the new row is that of the installation. -/
theorem prepare (h : SiteInv s) {t : String} {i : Install lib}
    (hi : s.running.get t = some i) {pending : PendingInstallation Version}
    (hid : pending.transactionId = t) (hwellformed : Wellformed lib pending)
    (htables : tables = { s.tables with
      pending := s.tables.pending.insert pending.transactionId
        (pending.row lib.versions pending.createdAt) }) :
    SiteInv (Site.withPhase ⟨s.dirs,tables,s.running⟩ t i (.prepared pending)) := by
  have hannounced : ∀ p, Announced lib tables p →
      p = pending ∨ p.transactionId ≠ t ∧ Announced lib s.tables p := by
    intro p hp
    have hnew : Announced lib tables pending := by
      refine ⟨?_,hwellformed⟩
      rw [htables, OrdMap.get_insert_self]
    by_cases hpid : p.transactionId = t
    · exact Or.inl (hp.unique hnew (hpid.trans hid.symm))
    · have hrow := hp.row
      rw [htables, OrdMap.get_insert_of_ne _ (hid ▸ hpid)] at hrow
      exact Or.inr ⟨hpid,hrow,hp.wellformed⟩
  refine ⟨?_,?_,?_⟩
  · intro u row hrow
    simp only [Site.withPhase, htables, OrdMap.get_insert] at hrow
    split_ifs at hrow with hu
    · exact ⟨pending,hu.symm,(Option.some.inj hrow).symm,hwellformed⟩
    · exact h.rows u row hrow
  · subst htables
    exact h.accepted
  · intro u j hj
    simp only [Site.withPhase, OrdMap.get_insert] at hj
    split_ifs at hj with hu
    · obtain rfl := Option.some.inj hj
      subst hu
      refine ⟨(h.running u i hi).name,?_,by simp⟩
      intro announced heq p hp hpid
      obtain rfl : pending = announced := by simpa using heq
      rcases hannounced p hp with rfl | ⟨hne,-⟩
      · rfl
      · exact absurd hpid hne
    · -- another installation: no row of its own is new
      have hold : ∀ p, Announced lib tables p → p.transactionId = u → Announced lib s.tables p := by
        intro p hp hpid
        rcases hannounced p hp with rfl | ⟨-,hold⟩
        · exact absurd (hpid.symm.trans hid) hu
        · exact hold
      obtain ⟨hname,hprepared,hrenamed⟩ := h.running u j hj
      exact ⟨hname,fun q hq p hp hpid => hprepared q hq p (hold p hp hpid) hpid,
        fun q hq p hp hpid => hrenamed q hq p (hold p hp hpid) hpid⟩

theorem advance (h : SiteInv s) (t : String) (fault : Option ℕ) : SiteInv (s.advance t fault) := by
  unfold Site.advance
  cases hi : s.running.get t with
  | none => exact h
  | some i =>
    have hinv := h.running t i hi
    have hquiet : ∀ {disk : Disk} {abort : Bool}, PhaseInv lib disk t (.discarding abort) :=
      PhaseInv.quiet hinv.name (by simp) (by simp)
    have hdiscard : ∀ abort, SiteInv (s.withPhase t i (.discarding abort)) :=
      fun abort => h.withPhase (DiskStep.refl s.disk) i hquiet
    have hwriting : ∀ {disk : Disk} {rest}, PhaseInv lib disk t (.writing rest) :=
      PhaseInv.quiet hinv.name (by simp) (by simp)
    simp only
    cases hphase : i.phase with
    | making =>
      simp only
      split_ifs
      · exact hdiscard false
      · exact h.withPhase (DiskStep.insertDir s.disk _ _) i hwriting
    | writing rest =>
      cases rest with
      | nil =>
        simp only
        split_ifs
        · exact hdiscard false
        · exact h.withPhase (DiskStep.insertDir s.disk _ _) i
            (PhaseInv.quiet hinv.name (fun _ => by simp) (fun _ => by simp))
      | cons file rest =>
        obtain ⟨name,bytes⟩ := file
        simp only
        split_ifs
        · exact hdiscard false
        · exact h.withPhase (DiskStep.insertDir s.disk _ _) i hwriting
    | staged =>
      simp only
      split
      · exact h.finish t
      · next version hversion =>
        obtain ⟨herror,hok⟩ := prepareInstall_spec lib fault s.tables
          (i.package.pending t version i.installedAt)
        split
        · next e tables hr =>
          rw [hr] at herror
          obtain rfl : tables = s.tables := herror e rfl
          exact hdiscard false
        · next u tables hr =>
          rw [hr] at hok
          obtain ⟨hwellformed,htables⟩ := hok u rfl
          exact h.prepare hi rfl hwellformed htables
    | prepared pending =>
      simp only
      split
      · exact hdiscard true
      · split_ifs
        · exact hdiscard true
        · refine h.withPhase ((DiskStep.eraseDir s.disk hinv.name).trans
            (DiskStep.insertDir _ _ _)) i ⟨hinv.name,by simp,fun _ _ p hp hid => ?_⟩
          rw [hinv.prepared pending hphase p hp hid]
          simp [Dirs.has]
    | renamed pending =>
      simp only
      exact (h.ofDisk (DiskStep.finalize fault _ h.rows (hinv.renamed pending hphase))).finish t
    | discarding abort =>
      have hcleaned : SiteInv (if fault.isSome then s else s.removeDir (stagingDir t)) := by
        split_ifs
        · exact h
        · exact h.ofDisk (DiskStep.eraseDir s.disk hinv.name)
      cases abort with
      | true =>
        exact hcleaned.withPhase (DiskStep.refl _) i
          (PhaseInv.quiet hinv.name (by simp) (by simp))
      | false => exact hcleaned.finish t
    | aborting =>
      simp only
      exact (h.ofDisk (DiskStep.abort s.disk fault t)).finish t

omit [LinearOrder Version] in
/-- Keys and publisher states have no influence on installations. -/
theorem ofTrust (h : SiteInv s) (hpending : tables.pending = s.tables.pending)
    (haccepted : tables.accepted = s.tables.accepted) :
    SiteInv { s with tables := tables } :=
  h.ofDisk (DiskStep.ofTables s.disk tables (fun _ _ hrow => hpending ▸ hrow) haccepted)

theorem next (h : SiteInv s) (label : SiteLabel lib) : SiteInv (s.next label) := by
  cases label with
  | upsertKey publisherId publicKey state updatedAt fault =>
    have htables := upsertKey_installs (keyId lib) fault s.tables publisherId publicKey state
      updatedAt
    exact h.ofTrust htables.1 htables.2
  | setPublisherState publisherId state updatedAt fault =>
    have htables := setPublisherState_installs fault s.tables publisherId state updatedAt
    exact h.ofTrust htables.1 htables.2
  | start transactionId package source installedAt accept =>
    exact h.start transactionId package source installedAt accept
  | advance transactionId fault => exact h.advance transactionId fault
  | crash transactionId => exact h.finish transactionId
  | recover now => exact h.ofDisk (DiskStep.recover now h.rows)

/-- Over every run rows can be read and accepted packages are in place. -/
theorem run (labels : List (SiteLabel lib)) : SiteInv (Site.run labels) := by
  have hfold : ∀ s : Site lib, SiteInv s → SiteInv (labels.foldl Site.next s) := by
    induction labels with
    | nil => exact fun _ h => h
    | cons label labels ih => exact fun s h => ih (s.next label) (h.next label)
  refine hfold _ ⟨?_,?_,?_⟩
  · intro t row hrow
    cases hrow
  · intro key row hrow
    cases hrow
  · intro t i hi
    cases hi

end SiteInv

/-- Whatever happened before the crash, recovery puts everything in order exactly when every
staging directory is announced, no installation has both of its directories, and what was renamed
verifies, may be accepted and agrees with the rest. -/
theorem recovered_run_iff (labels : List (SiteLabel lib)) (now : UnixSeconds) :
    Recovered lib now (Site.run labels).disk ↔ Recoverable lib (Site.run labels).disk :=
  recovered_iff (SiteInv.run labels).rows (SiteInv.run labels).accepted now

end Runs

/-- A key pair's public half. -/
def authorKey : Bytes32 where
  bytes := [
    215,90,152,1,130,177,10,183,213,75,254,211,201,100,7,58,14,225,114,243,218,166,35,37,175,2,26,
    104,247,7,81,26]
  length_eq := signerKey.length_eq

/-- The SHA-256 digest of the key. -/
def authorKeyDigest : Bytes32 where
  bytes := [
    33,254,49,223,161,84,162,97,98,107,248,84,4,111,210,39,27,123,237,75,106,190,69,170,88,135,
    126,244,127,151,33,185]
  length_eq := signerKeyDigest.length_eq

/-- The digest of the files of the package without its envelope. -/
def clockDigest : Bytes32 where
  bytes := [
    171,86,154,129,0,221,190,160,255,84,153,32,185,108,181,139,58,227,128,207,100,118,145,164,211,
    94,201,85,6,136,66,196]
  length_eq := by decide

def clockSignature : List UInt8 := [
  48,243,129,118,241,42,126,255,159,192,234,246,45,244,62,183,252,185,99,106,248,197,60,44,16,192,
  51,66,124,156,84,127,118,245,53,193,165,201,234,157,17,135,184,12,31,118,253,121,35,8,116,194,4,
  84,32,141,233,175,60,167,152,79,187,15]

def clockManifestBytes : List UInt8 := utf8 <|
  "\x7b\"manifestVersion\":1,\"id\":\"org.example.clock\",\"name\":\"Clock\",\"version\"" ++
  ":\"1.9.0\",\"publisher\":\x7b\"id\":\"org.example\",\"name\":\"Example\"\x7d,\"engineApiV" ++
  "ersion\":\"1.2.0\",\"uiApiVersion\":\"1.6.0\",\"type\":\"widget\",\"entrypoints\":\x7b" ++
  "\"ui\":\"ui/widget.ftui\",\"logic\":\"logic/plugin.wasm\"\x7d,\"sizes\":\x7b\"default\":" ++
  "\x7b\"width\":200,\"height\":100\x7d,\"min\":\x7b\"width\":100,\"height\":50\x7d,\"max\":\x7b\"wid" ++
  "th\":400,\"height\":200\x7d,\"resizable\":true\x7d,\"permissions\":[]\x7d"

def clockUiBytes : List UInt8 := utf8 <|
  "\x7b\"uiApiVersion\":\"1.0.0\",\"state\":\x7b\"initial\":\x7b\x7d,\"schema\":\x7b\"type\":\"object" ++
  "\",\"additionalProperties\":false,\"properties\":\x7b\x7d\x7d\x7d,\"events\":\x7b\x7d,\"root\":\x7b\"" ++
  "type\":\"Column\",\"props\":\x7b\x7d,\"children\":[]\x7d\x7d"

/-- A component that exports an empty instance under the name of the contract. -/
def clockWasm : List UInt8 := [
  0,97,115,109,13,0,1,0,5,3,1,1,0,11,43,1,0,37,102,108,111,97,116,105,108,101,58,119,105,100,103,
  101,116,47,119,105,100,103,101,116,45,99,111,110,116,114,97,99,116,64,49,46,48,46,48,5,0,0]

def clockEnvelopeBytes : List UInt8 := utf8 <|
  "\x7b\"payloadType\":\"application/vnd.floatile.package-digest.v1\",\"payload\":" ++
  "\"q1aagQDdvqD/VJkguWy1izrjgM9kdpGk017JVQaIQsQ=\",\"signatures\":[\x7b\"keyid\":" ++
  "\"21fe31dfa154a261626bf854046fd2271b7bed4b6abe45aa58877ef47f9721b9\",\"si" ++
  "g\":\"MPOBdvEqfv+fwOr2LfQ+t/y5Y2r4xTwsEMAzQnycVH929TXBpcnqnRGHuAwfdv15Iw" ++
  "h0wgRUII3przynmE+7Dw==\"\x7d]\x7d"

def clockEnvelope : SignatureEnvelope where
  payloadType := "application/vnd.floatile.package-digest.v1"
  payload := "q1aagQDdvqD/VJkguWy1izrjgM9kdpGk017JVQaIQsQ="
  signatures := [⟨"21fe31dfa154a261626bf854046fd2271b7bed4b6abe45aa58877ef47f9721b9",
    "MPOBdvEqfv+fwOr2LfQ+t/y5Y2r4xTwsEMAzQnycVH929TXBpcnqnRGHuAwfdv15Iwh0wgRUII3przynmE+7Dw=="⟩]

def clockManifest : Manifest where
  manifestVersion := 1
  id := ⟨"org.example.clock"⟩
  name := "Clock"
  description := none
  version := "1.9.0"
  publisher := ⟨"org.example","Example"⟩
  engineApiVersion := "1.2.0"
  uiApiVersion := "1.6.0"
  kind := .widget
  entrypoints := ⟨⟨"ui/widget.ftui",widgetUi_valid⟩,⟨"logic/plugin.wasm",pluginLogic_valid⟩⟩
  sizes := ⟨⟨200,100⟩,⟨100,50⟩,⟨400,200⟩⟩
  permissions := []
  httpTemplates := []
  storage := none

/-- The external functions on the bytes of this package. -/
def clockLib : InstallLib (Fin 3) where
  signature := {
    sha256 := fun input => if input = authorKey.bytes then authorKeyDigest else clockDigest
    parseEnvelope := fun bytes => if bytes = clockEnvelopeBytes then some clockEnvelope else none
    base64Decode := fun text =>
      if text = clockEnvelope.payload then some clockDigest.bytes else some clockSignature
    base64Encode := fun bytes =>
      if bytes = clockDigest.bytes then clockEnvelope.payload
      else "MPOBdvEqfv+fwOr2LfQ+t/y5Y2r4xTwsEMAzQnycVH929TXBpcnqnRGHuAwfdv15Iwh0wgRUII3przynmE+7Dw=="
    verifyingKey := fun key => key = authorKey
    verifyStrict := fun key _ signature => key = authorKey ∧ signature = clockSignature }
  versions := threeReleases
  parseManifest := fun bytes =>
    if bytes = clockManifestBytes then .ok clockManifest else .error "expected value"
  encodeMeta := fun _ => []
  decodeMeta := fun _ => .error "expected value"

def clockPackage : ValidatedPackage clockLib where
  manifest := clockManifest
  files := OrdMap.ofList [("logic/plugin.wasm",clockWasm),("manifest.json",clockManifestBytes),
    ("signature.json",clockEnvelopeBytes),("ui/widget.ftui",clockUiBytes)]
  manifestBytes := clockManifestBytes
  manifestFile := by simp [OrdMap.get, OrdMap.ofList, SortedMap.find_ofList]
  parsed := by
    simp only [clockLib, if_true]
  valid := rfl

def clockTransaction : TransactionId := ⟨"4711-1763500000000000000",by decide⟩

/-- A trusted key, the checks of an installation, its staging directory, and a crash. -/
def crashedRun : List (SiteLabel clockLib) :=
  [.upsertKey "org.example" authorKey .active 10 none,
   .start clockTransaction clockPackage "clock.floatile" ⟨20,by decide⟩ false,
   .advance clockTransaction.text none,
   .crash clockTransaction.text]

theorem crashedRun_left_behind :
    ¬Recovered clockLib ⟨30,by decide⟩ (Site.run crashedRun).disk := by
  intro h
  have hstaging := h.staging clockTransaction.text
  have hleft : (recoverTrustedInstalls clockLib ⟨30,by decide⟩
      (Site.run crashedRun).disk).2.dirs.has (stagingDir clockTransaction.text) = true := by
    decide +kernel
  rw [hleft] at hstaging
  cases hstaging

end Floatile.Cli
