import Floatile.Cli.Install
import Floatile.Lib.Register
import Floatile.Store.Watermark

/-! Recovery after a crash: when it succeeds, what it leaves behind, and the states of a run in
which it puts everything in order. -/
namespace Floatile.Cli

open Floatile.Core
open Floatile.Core.Signature
open Floatile.Lib Floatile.Lib.Register
open Floatile.Lib.Checked (reject)
open Floatile.Store

theorem installDir_eq (id version : String) : installDir id version = id ++ "/" ++ version := rfl

theorem stagingDir_eq (transactionId : String) :
    stagingDir transactionId = ".staging-" ++ transactionId := rfl

theorem slash_mem_installDir (id version : String) : '/' ∈ (installDir id version).toList := by
  simp [installDir_eq]

theorem slash_notMem_stagingDir {transactionId : String}
    (h : validateTransactionId transactionId = .ok ()) :
    '/' ∉ (stagingDir transactionId).toList := by
  intro hmem
  have hslash : '/' ∈ transactionId.toList := by simpa [stagingDir_eq] using hmem
  simp [validateTransactionId, corrupt] at h
  have hchar := h.2 '/' hslash
  revert hchar
  decide

theorem installDir_ne_stagingDir {transactionId : String}
    (h : validateTransactionId transactionId = .ok ()) (id version : String) :
    installDir id version ≠ stagingDir transactionId := by
  intro heq
  exact slash_notMem_stagingDir h (heq ▸ slash_mem_installDir id version)

theorem stagingDir_injective : Function.Injective stagingDir := by
  intro t t' h
  have hlist := congrArg String.toList h
  simpa [stagingDir_eq, String.ext_iff] using hlist

section Rows

variable {Version : Type} {lib : InstallLib Version}

/-- What `validate_pending` demands. -/
structure Wellformed (lib : InstallLib Version) (p : PendingInstallation Version) : Prop where
  transaction : validateTransactionId p.transactionId = .ok ()
  publisher : Store.validatePublisherId p.publisherId = .ok ()
  plugin : Store.validatePluginId p.pluginId = .ok ()
  staging : p.stagingName = stagingDir p.transactionId
  final : p.finalRelative = installDir p.pluginId (lib.versions.toText p.version)

theorem validatePending_eq_ok_iff (p : PendingInstallation Version) :
    validatePending lib.versions p = .ok () ↔ Wellformed lib p := by
  simp only [validatePending, Checked.check_bind_eq_ok, Checked.reject_eq_ok, not_or, not_not]
  constructor
  · rintro ⟨h1,h2,h3,h4,h5⟩
    exact ⟨h1,h2,h3,h4,h5⟩
  · rintro ⟨h1,h2,h3,h4,h5⟩
    exact ⟨h1,h2,h3,h4,h5⟩

theorem Wellformed.final_ne_staging {p q : PendingInstallation Version} (hp : Wellformed lib p)
    (hq : Wellformed lib q) : q.finalRelative ≠ p.stagingName := by
  rw [hp.staging, hq.final]
  exact installDir_ne_stagingDir hp.transaction _ _

theorem Wellformed.staging_ne {p q : PendingInstallation Version} (hp : Wellformed lib p)
    (hq : Wellformed lib q) (h : p.transactionId ≠ q.transactionId) :
    q.stagingName ≠ p.stagingName := by
  rw [hp.staging, hq.staging]
  exact stagingDir_injective.ne h.symm

/-- An installation announced in the database, in a row that can be read back. -/
structure Announced (lib : InstallLib Version) (tables : TrustTables)
    (p : PendingInstallation Version) : Prop where
  row : tables.pending.get p.transactionId = some (p.row lib.versions p.createdAt)
  wellformed : Wellformed lib p

theorem rowToPending_row (p : PendingInstallation Version) (h : Wellformed lib p) :
    rowToPending lib.versions p.transactionId (p.row lib.versions p.createdAt) = .ok p := by
  simp only [rowToPending, PendingInstallation.row, lib.versions.parse_toText]
  rw [show (Except.ok p.version : Except String Version).mapError
    (fun error => StoreError.corrupt s!"pending version 非法: {error}") = .ok p.version from rfl]
  simp only [Checked.ok_bind]
  rw [(validatePending_eq_ok_iff p).mpr h]
  rfl

theorem Announced.pendingInstall {tables : TrustTables} {p : PendingInstallation Version}
    (h : Announced lib tables p) :
    pendingInstall lib.versions tables p.transactionId = .ok (some p) := by
  simp only [Store.pendingInstall, h.wellformed.transaction, h.row, Checked.ok_bind,
    rowToPending_row p h.wellformed]

/-- Two announcements under one transaction are the same. -/
theorem Announced.unique {tables : TrustTables} {p q : PendingInstallation Version}
    (hp : Announced lib tables p) (hq : Announced lib tables q)
    (h : p.transactionId = q.transactionId) : p = q := by
  have heq := hp.pendingInstall
  rw [h, hq.pendingInstall] at heq
  exact (Option.some.inj (Except.ok.inj heq)).symm

/-- All rows can be read back. -/
def RowsReadable (lib : InstallLib Version) (tables : TrustTables) : Prop :=
  ∀ t row, tables.pending.get t = some row → ∃ p, p.transactionId = t ∧
    row = p.row lib.versions p.createdAt ∧ Wellformed lib p

theorem RowsReadable.announced {tables : TrustTables} (h : RowsReadable lib tables)
    {t : String} {row : PendingRow} (hrow : tables.pending.get t = some row) :
    ∃ p, p.transactionId = t ∧ Announced lib tables p := by
  obtain ⟨p,rfl,rfl,hp⟩ := h t row hrow
  exact ⟨p,rfl,hrow,hp⟩

/-- What is found under a transaction is announced. -/
theorem RowsReadable.of_pendingInstall {tables : TrustTables} (h : RowsReadable lib tables)
    {t : String} {p : PendingInstallation Version}
    (hp : pendingInstall lib.versions tables t = .ok (some p)) :
    p.transactionId = t ∧ Announced lib tables p := by
  cases hrow : tables.pending.get t with
  | none =>
    simp [Store.pendingInstall, hrow, Checked.check_bind_eq_ok] at hp
  | some row =>
    obtain ⟨q,rfl,hq⟩ := h.announced hrow
    rw [hq.pendingInstall] at hp
    obtain rfl := Option.some.inj (Except.ok.inj hp)
    exact ⟨rfl,hq⟩

/-- The list that recovery works through: every announced installation, once. -/
theorem RowsReadable.pendingInstalls {tables : TrustTables} (h : RowsReadable lib tables) :
    ∃ ps, pendingInstalls lib.versions tables = .ok ps ∧
      ps.Pairwise (fun p q => p.transactionId ≠ q.transactionId) ∧
      ∀ p, p ∈ ps ↔ Announced lib tables p := by
  have hread : ∀ e ∈ tables.pending.entries, ∃ p : PendingInstallation Version,
      rowToPending lib.versions e.1 e.2 = .ok p ∧ p.transactionId = e.1 ∧
        Announced lib tables p := by
    rintro ⟨t,row⟩ he
    have hrow := (tables.pending.mem_entries_iff t row).mp he
    obtain ⟨p,rfl,rfl,hp⟩ := h t row hrow
    exact ⟨p,rowToPending_row p hp,rfl,hrow,hp⟩
  refine ⟨_,Checked.mapM_eq_ok_of_forall (fun e he => (hread e he).imp fun _ hp => hp.1),?_,?_⟩
  · rw [List.pairwise_filterMap]
    refine tables.pending.ordered.imp_of_mem ?_
    intro e e' he he' hlt p hp q hq
    obtain ⟨p,hp',hpid,-⟩ := hread e he
    obtain ⟨q,hq',hqid,-⟩ := hread e' he'
    rw [hp'] at hp
    rw [hq'] at hq
    obtain rfl := Option.some.inj hp
    obtain rfl := Option.some.inj hq
    rw [hpid, hqid]
    exact hlt.ne
  · intro p
    simp only [List.mem_filterMap, Checked.toOption_eq_some]
    constructor
    · rintro ⟨e,he,hp⟩
      obtain ⟨p',hp',-,hann⟩ := hread e he
      rw [hp'] at hp
      exact Except.ok.inj hp ▸ hann
    · intro hp
      exact ⟨_,(tables.pending.mem_entries_iff _ _).mpr hp.row,rowToPending_row p hp.wellformed⟩

end Rows

section Acceptance

variable {Version : Type} {lib : InstallLib Version}

/-- The accepted version and digest of each plugin. -/
def acceptedOf (lib : InstallLib Version) (accepted : OrdMap (String ×ₗ String) AcceptedRow)
    (key : String ×ₗ String) : Option (Version × Bytes32) :=
  (accepted.get key).bind (fun row =>
    (lib.versions.parse row.version).toOption.map (fun v => (v,row.digest)))

theorem acceptedOf_eq_some {t : TrustTables} {key : String ×ₗ String} {v : Version}
    {d : Bytes32} : acceptedOf lib t.accepted key = some (v,d) ↔
      Accepted lib.versions t key v d := by
  simp [acceptedOf, Accepted, Option.bind_eq_some_iff, Checked.toOption_eq_some]

/-- The register and the value of an installation. -/
def claim (p : PendingInstallation Version) : (String ×ₗ String) × (Version × Bytes32) :=
  (toLex (p.publisherId,p.pluginId),(p.version,p.signedDigest))

variable (lib) in
theorem acceptedOf_insert (accepted : OrdMap (String ×ₗ String) AcceptedRow)
    (p : PendingInstallation Version) (acceptedAt : ℕ) :
    acceptedOf lib (accepted.insert (claim p).1
      (AcceptedRow.mk (lib.versions.toText p.version) p.signedDigest acceptedAt)) =
      put (acceptedOf lib accepted) (claim p) := by
  funext key
  by_cases hkey : key = (claim p).1
  · subst hkey
    simp [acceptedOf, lib.versions.parse_toText]
    rfl
  · rw [put_of_ne _ _ hkey]
    simp [acceptedOf, OrdMap.get_insert_of_ne _ hkey]

theorem liftStore_ok {α : Type} (a : α) :
    (liftStore (.ok a) : Except (TrustPolicyError Version) α) = .ok a := rfl

variable [LinearOrder Version]

/-- A newer version replaces an older one, and a version only itself. -/
def Replaces (a b : Version × Bytes32) : Prop := a.1 < b.1 ∨ a = b

theorem Replaces.refl (a : Version × Bytes32) : Replaces a a := Or.inr rfl

/-- For an active publisher the decision depends on the accepted version and digest only. -/
theorem acceptanceOf_eq {t : TrustTables} {p : PendingInstallation Version}
    (hp : Wellformed lib p) (hread : Readable lib.versions t.accepted)
    (hactive : publisherState t p.publisherId = some .active) (now : UnixSeconds) :
    acceptanceOf lib.versions t p.publisherId p.pluginId p.version p.signedDigest now.value =
      match acceptedOf lib t.accepted (claim p).1 with
      | none => .ok (now.value,.firstAccepted)
      | some (v,d) =>
        if p.version < v then .error (.rollback p.version v)
        else if p.version = v then
          if p.signedDigest = d then .ok (now.value,.alreadyAccepted)
          else .error .sameVersionDifferentDigest
        else .ok (now.value,.newerAccepted) := by
  have htime : sqliteTime now.value = .ok now.value := if_pos now.bounded
  rw [publisherState] at hactive
  simp only [acceptanceOf, hp.publisher, hp.plugin, htime, hactive, liftStore_ok, Checked.ok_bind,
    requireActive, acceptedOf, claim]
  cases hrow : t.accepted.get (toLex (p.publisherId,p.pluginId)) with
  | none => rfl
  | some row =>
    obtain ⟨v,hv⟩ := hread _ row hrow
    simp only [parseVersion, hv, Checked.mapError_ok, liftStore_ok, Checked.ok_bind,
      Option.bind_some, Checked.toOption_ok, Option.map_some]

/-- An announced package is accepted exactly for an active publisher and when it may replace what
is accepted, and its version and digest are accepted from then on. -/
theorem acceptPackage_spec {t : TrustTables} {p : PendingInstallation Version}
    (hp : Wellformed lib p) (hread : Readable lib.versions t.accepted)
    (hactive : publisherState t p.publisherId = some .active) (now : UnixSeconds) :
    let r := acceptPackage lib.versions none t p.publisherId p.pluginId p.version p.signedDigest
      now.value
    (Admits Replaces (acceptedOf lib t.accepted) (claim p) →
      (∃ outcome, r.1 = .ok outcome) ∧
        acceptedOf lib r.2.accepted = put (acceptedOf lib t.accepted) (claim p)) ∧
    (¬Admits Replaces (acceptedOf lib t.accepted) (claim p) → ∃ e, r.1 = .error e) := by
  simp only [acceptPackage, acceptanceOf_eq hp hread hactive now]
  cases hcurrent : acceptedOf lib t.accepted (claim p).1 with
  | none =>
    have hadmits : Admits Replaces (acceptedOf lib t.accepted) (claim p) := by
      intro a ha
      rw [hcurrent] at ha
      cases ha
    exact ⟨fun _ => ⟨⟨_,rfl⟩,acceptedOf_insert lib t.accepted p now.value⟩,fun h => absurd hadmits h⟩
  | some current =>
    obtain ⟨v,d⟩ := current
    have hadmits : Admits Replaces (acceptedOf lib t.accepted) (claim p) ↔
        v < p.version ∨ (v,d) = (p.version,p.signedDigest) := by
      rw [Admits, hcurrent]
      simp [Replaces, claim]
    rw [hadmits]
    rcases lt_trichotomy p.version v with hlt | heq | hgt
    · have hne : p.version ≠ v := hlt.ne
      simp [hlt, hlt.not_gt, hne.symm]
    · subst heq
      by_cases hdigest : p.signedDigest = d
      · subst hdigest
        -- the same package again: nothing is written
        have hput : put (acceptedOf lib t.accepted) (claim p) = acceptedOf lib t.accepted := by
          rw [put, Function.update_eq_self_iff, hcurrent]
          rfl
        simp [hput]
      · simp [hdigest, Ne.symm hdigest]
    · have hinsert := acceptedOf_insert lib t.accepted p now.value
      simp only [hgt.not_gt, hgt.ne', if_false]
      exact ⟨fun _ => ⟨⟨_,rfl⟩,hinsert⟩,fun h => absurd (Or.inl hgt) h⟩

end Acceptance

section Final

variable {Version : Type} {lib : InstallLib Version}

/-- The files that recovery collects are the files that were read. -/
theorem installedFiles_eq {dir : Files} {installed : InstalledInstallation}
    (h : loadFromDir lib dir = .ok installed) :
    ∃ entries, (installedFiles installed : Except (InstallError Version) _) = .ok entries ∧
      OrdMap.ofList entries = installed.files :=
  (loadFromDir_eq_ok_iff.mp h).collect
    (fun name => (InstallError.recovery s!"安装文件缺失: {name}" : InstallError Version))

/-- What the checks on a final directory ask for. -/
def FinalVerifies (lib : InstallLib Version) (disk : Disk) (p : PendingInstallation Version) :
    Prop :=
  ∃ installed trust envelope,
    loadExact lib disk.dirs p.pluginId (lib.versions.toText p.version) = .ok (some installed) ∧
    contentDigest lib.signature.sha256 installed.files = p.installDigest ∧
    signableContentDigest lib.signature installed.files = p.signedDigest ∧
    Store.get (keyId lib) disk.tables p.publisherId = .ok (some trust) ∧
    installed.files.get signatureFile = some envelope ∧
    verifySignatureEnvelope lib.signature envelope installed.files installed.manifest.publisher.id
      trust.verifierBinding = .ok ()

theorem trustOf_eq_ok {tables : TrustTables} {publisherId : String}
    {trust : PublisherTrustRecord} : trustOf lib tables publisherId = .ok trust ↔
      Store.get (keyId lib) tables publisherId = .ok (some trust) := by
  unfold trustOf
  split <;> simp_all

theorem envelopeOf_eq_ok {files : Files} {envelope : List UInt8} :
    (envelopeOf files : Except (InstallError Version) _) = .ok envelope ↔
      files.get signatureFile = some envelope := by
  unfold envelopeOf
  split <;> simp_all

theorem verifyFinal_eq_ok_iff (disk : Disk) (p : PendingInstallation Version) :
    verifyFinal lib disk p = .ok () ↔ FinalVerifies lib disk p := by
  cases hload : loadExact lib disk.dirs p.pluginId (lib.versions.toText p.version) with
  | error e => simp [verifyFinal, FinalVerifies, hload, Except.mapError]
  | ok found =>
    cases found with
    | none => simp [verifyFinal, FinalVerifies, hload]
    | some installed =>
      obtain ⟨entries,hentries,hfiles⟩ : ∃ entries,
          (installedFiles installed : Except (InstallError Version) _) = .ok entries ∧
            OrdMap.ofList entries = installed.files := by
        obtain ⟨dir,-,hdir⟩ := loadExact_eq_some_iff.mp hload
        exact installedFiles_eq hdir
      simp only [verifyFinal, hload, Checked.mapError_ok, Checked.ok_bind, hentries, hfiles]
      rw [Checked.check_bind_eq_ok]
      simp only [Checked.reject_eq_ok, not_or, not_not, Checked.bind_eq_ok, trustOf_eq_ok,
        envelopeOf_eq_ok, Checked.mapError_eq_ok]
      constructor
      · rintro ⟨⟨hcontent,hsigned⟩,trust,htrust,envelope,henvelope,hverify⟩
        exact ⟨installed,trust,envelope,hload,hcontent,hsigned,htrust,henvelope,hverify⟩
      · rintro ⟨installed',trust,envelope,hload',hcontent,hsigned,htrust,henvelope,hverify⟩
        rw [hload] at hload'
        obtain rfl := Option.some.inj (Except.ok.inj hload')
        exact ⟨⟨hcontent,hsigned⟩,trust,htrust,envelope,henvelope,hverify⟩

/-- The checks depend on the final directory, if there is one, the publishers and the keys. -/
theorem FinalVerifies.congr {disk disk' : Disk} {p : PendingInstallation Version}
    (hhas : disk.dirs.has (installDir p.pluginId (lib.versions.toText p.version)) = true)
    (hdirs : OrdMap.get disk'.dirs (installDir p.pluginId (lib.versions.toText p.version)) =
      OrdMap.get disk.dirs (installDir p.pluginId (lib.versions.toText p.version)))
    (hpublishers : disk'.tables.publishers = disk.tables.publishers)
    (hkeys : disk'.tables.keys = disk.tables.keys) :
    FinalVerifies lib disk' p ↔ FinalVerifies lib disk p := by
  obtain ⟨dir,hdir⟩ := Option.isSome_iff_exists.mp hhas
  simp only [FinalVerifies, loadExact, Store.get, dirAt_of_get hdir,
    dirAt_of_get (hdirs.trans hdir), hpublishers, hkeys]

/-- Only packages of active publishers pass the checks. -/
theorem FinalVerifies.active {disk : Disk} {p : PendingInstallation Version}
    (h : FinalVerifies lib disk p) : publisherState disk.tables p.publisherId = some .active := by
  obtain ⟨installed,trust,envelope,-,-,-,htrust,-,hverify⟩ := h
  have hstate : trust.state = .active := by
    simp only [verifySignatureEnvelope, Checked.check_bind_eq_ok, Checked.reject_eq_ok] at hverify
    have hactive := hverify.2.2.1
    cases hs : trust.state with
    | active => rfl
    | revoked => simp [PublisherTrustRecord.verifierBinding, hs] at hactive
  simp only [Store.get, Checked.check_bind_eq_ok] at htrust
  obtain ⟨-,htrust⟩ := htrust
  rw [publisherState]
  cases hrow : disk.tables.publishers.get p.publisherId with
  | none => simp [hrow] at htrust
  | some row =>
    simp only [hrow, Checked.bind_eq_ok] at htrust
    obtain ⟨keys,-,htrust⟩ := htrust
    obtain rfl := Option.some.inj (Except.ok.inj htrust)
    exact congrArg some hstate

end Final

section Loop

variable {Version : Type} [LinearOrder Version] {lib : InstallLib Version}

/-- Acceptance writes at most the one accepted row. -/
theorem acceptPackage_tables (versions : VersionLib Version) (fault : Option ℕ) (t : TrustTables)
    (publisherId pluginId : String) (version : Version) (digest : Bytes32) (acceptedAt : ℕ) :
    ∃ accepted, (acceptPackage versions fault t publisherId pluginId version digest acceptedAt).2 =
        { t with accepted := accepted } ∧
      (accepted = t.accepted ∨ ∃ time, accepted = t.accepted.insert (toLex (publisherId,pluginId))
        (AcceptedRow.mk (versions.toText version) digest time)) := by
  unfold acceptPackage
  split
  · exact ⟨t.accepted,rfl,Or.inl rfl⟩
  · exact ⟨t.accepted,rfl,Or.inl rfl⟩
  · next time _ _ _ =>
    rw [write_snd]
    split_ifs
    · exact ⟨t.accepted,rfl,Or.inl rfl⟩
    · exact ⟨_,rfl,Or.inr ⟨time,rfl⟩⟩

/-- The tables after a successful finalization. -/
structure Finalized (lib : InstallLib Version) (t : TrustTables) (p : PendingInstallation Version)
    (t' : TrustTables) : Prop where
  publishers : t'.publishers = t.publishers
  keys : t'.keys = t.keys
  pending : t'.pending = t.pending.erase p.transactionId
  accepted : acceptedOf lib t'.accepted = put (acceptedOf lib t.accepted) (claim p)

theorem finalizeInstall_spec {t : TrustTables} {p : PendingInstallation Version}
    (hp : Announced lib t p) (hread : Readable lib.versions t.accepted)
    (hactive : publisherState t p.publisherId = some .active) (now : UnixSeconds) :
    let r := finalizeInstall lib.versions none t p.transactionId now.value
    (Admits Replaces (acceptedOf lib t.accepted) (claim p) →
      (∃ outcome, r.1 = .ok outcome) ∧ Finalized lib t p r.2) ∧
    (¬Admits Replaces (acceptedOf lib t.accepted) (claim p) → ∃ e, r.1 = .error e) := by
  have haccept := acceptPackage_spec hp.wellformed hread hactive now
  obtain ⟨accepted,htables,-⟩ := acceptPackage_tables lib.versions none t p.publisherId p.pluginId
    p.version p.signedDigest now.value
  simp only [finalizeInstall, hp.pendingInstall, liftStore_ok] at haccept ⊢
  generalize acceptPackage lib.versions none t p.publisherId p.pluginId p.version p.signedDigest
    now.value = r at haccept htables ⊢
  obtain ⟨result,t'⟩ := r
  obtain rfl : t' = { t with accepted := accepted } := htables
  obtain ⟨hadmitted,hrefused⟩ := haccept
  refine ⟨fun hadmits => ?_,fun hrefuses => ?_⟩
  · obtain ⟨⟨outcome,rfl⟩,haccepted⟩ := hadmitted hadmits
    exact ⟨⟨outcome,rfl⟩,rfl,rfl,rfl,haccepted⟩
  · obtain ⟨e,rfl⟩ := hrefused hrefuses
    exact ⟨e,rfl⟩

/-- The directories of an announced installation allow a decision. -/
structure RowRecovers (lib : InstallLib Version) (disk : Disk) (p : PendingInstallation Version) :
    Prop where
  apart : disk.dirs.has p.stagingName = true → disk.dirs.has p.finalRelative = false
  verifies : disk.dirs.has p.finalRelative = true → FinalVerifies lib disk p

/-- The turn of an announced installation goes through. -/
structure RowReady (lib : InstallLib Version) (disk : Disk) (p : PendingInstallation Version) :
    Prop where
  recovers : RowRecovers lib disk p
  admitted : disk.dirs.has p.finalRelative = true →
    Admits Replaces (acceptedOf lib disk.tables.accepted) (claim p)

/-- What a successful turn has done. -/
structure RowDone (lib : InstallLib Version) (disk : Disk) (p : PendingInstallation Version)
    (disk' : Disk) : Prop where
  staging : OrdMap.get disk'.dirs p.stagingName = none
  others : ∀ path, path ≠ p.stagingName → OrdMap.get disk'.dirs path = OrdMap.get disk.dirs path
  publishers : disk'.tables.publishers = disk.tables.publishers
  keys : disk'.tables.keys = disk.tables.keys
  pending : disk'.tables.pending = disk.tables.pending.erase p.transactionId
  accepted : acceptedOf lib disk'.tables.accepted =
    if disk.dirs.has p.finalRelative = true then
      put (acceptedOf lib disk.tables.accepted) (claim p)
    else acceptedOf lib disk.tables.accepted
  readable : Readable lib.versions disk'.tables.accepted

theorem has_eq_false {dirs : Dirs} {path : String} :
    dirs.has path = false ↔ OrdMap.get dirs path = none := by
  simp [Dirs.has]

/-- An installation that was not renamed is given up. -/
theorem recoverRow_abort {disk : Disk} {p : PendingInstallation Version}
    (hp : Announced lib disk.tables p) (hread : Readable lib.versions disk.tables.accepted)
    (hfinal : disk.dirs.has p.finalRelative = false) (now : UnixSeconds) :
    (recoverRow lib now disk p).1 = .ok false ∧
      RowDone lib disk p (recoverRow lib now disk p).2 := by
  have habort : abortInstall none disk.tables p.transactionId =
      (.ok (disk.tables.pending.get p.transactionId).isSome,
        { disk.tables with pending := disk.tables.pending.erase p.transactionId }) := by
    simp [abortInstall, hp.wellformed.transaction, write]
  cases hstaging : disk.dirs.has p.stagingName with
  | true =>
    simp only [recoverRow, hstaging, hfinal, habort, if_true]
    refine ⟨trivial,OrdMap.get_erase_self disk.dirs p.stagingName,fun path hne => ?_,rfl,rfl,rfl,
      ?_,hread⟩
    · exact OrdMap.get_erase_of_ne disk.dirs hne
    · rw [hfinal]
      rfl
  | false =>
    simp only [recoverRow, hstaging, hfinal, habort]
    refine ⟨trivial,has_eq_false.mp hstaging,fun path _ => rfl,rfl,rfl,rfl,?_,hread⟩
    rw [hfinal]
    rfl

/-- A renamed installation that verifies is accepted, or refused by the acceptance. -/
theorem recoverRow_finalize {disk : Disk} {p : PendingInstallation Version}
    (hp : Announced lib disk.tables p) (hread : Readable lib.versions disk.tables.accepted)
    (hstaging : disk.dirs.has p.stagingName = false)
    (hfinal : disk.dirs.has p.finalRelative = true) (hverifies : FinalVerifies lib disk p)
    (now : UnixSeconds) :
    let r := recoverRow lib now disk p
    (Admits Replaces (acceptedOf lib disk.tables.accepted) (claim p) →
      (∃ finalized, r.1 = .ok finalized) ∧ RowDone lib disk p r.2) ∧
    (¬Admits Replaces (acceptedOf lib disk.tables.accepted) (claim p) → ∃ e, r.1 = .error e) := by
  obtain ⟨hadmitted,hrefused⟩ := finalizeInstall_spec hp hread hverifies.active now
  have hstep : AcceptedStep lib.versions disk.tables
      (finalizeInstall lib.versions none disk.tables p.transactionId now.value).2.accepted :=
    finalizeInstall_accepted none disk.tables p.transactionId now.value
  have hreadable := hstep.readable hread
  simp only [recoverRow, hstaging, hfinal, (verifyFinal_eq_ok_iff disk p).mpr hverifies]
  generalize finalizeInstall lib.versions none disk.tables p.transactionId now.value = f
    at hadmitted hrefused hreadable ⊢
  obtain ⟨result,tables⟩ := f
  refine ⟨fun hadmits => ?_,fun hrefuses => ?_⟩
  · obtain ⟨⟨outcome,rfl⟩,hdone⟩ := hadmitted hadmits
    refine ⟨⟨true,rfl⟩,has_eq_false.mp hstaging,fun path _ => rfl,hdone.publishers,hdone.keys,
      hdone.pending,?_,hreadable⟩
    rw [if_pos hfinal]
    exact hdone.accepted
  · obtain ⟨e,rfl⟩ := hrefused hrefuses
    exact ⟨_,rfl⟩

/-- One turn of the loop: when it succeeds and what it has done then. -/
theorem recoverRow_spec {disk : Disk} {p : PendingInstallation Version}
    (hp : Announced lib disk.tables p) (hread : Readable lib.versions disk.tables.accepted)
    (now : UnixSeconds) :
    let r := recoverRow lib now disk p
    (RowReady lib disk p → (∃ finalized, r.1 = .ok finalized) ∧ RowDone lib disk p r.2) ∧
    (¬RowReady lib disk p → ∃ e, r.1 = .error e) := by
  intro r
  cases hfinal : disk.dirs.has p.finalRelative with
  | false =>
    have hready : RowReady lib disk p := ⟨⟨fun _ => hfinal,by simp [hfinal]⟩,by simp [hfinal]⟩
    obtain ⟨hok,hdone⟩ := recoverRow_abort hp hread hfinal now
    exact ⟨fun _ => ⟨⟨false,hok⟩,hdone⟩,fun h => absurd hready h⟩
  | true =>
    cases hstaging : disk.dirs.has p.stagingName with
    | true =>
      have hnot : ¬RowReady lib disk p := by
        intro hrow
        have hapart := hrow.recovers.apart hstaging
        rw [hfinal] at hapart
        cases hapart
      refine ⟨fun h => absurd h hnot,fun _ => ?_⟩
      simp only [r, recoverRow, hstaging, hfinal]
      exact ⟨_,rfl⟩
    | false =>
      by_cases hverifies : FinalVerifies lib disk p
      · have hready : RowReady lib disk p ↔
            Admits Replaces (acceptedOf lib disk.tables.accepted) (claim p) :=
          ⟨fun h => h.admitted hfinal,fun h => ⟨⟨by simp [hstaging],fun _ => hverifies⟩,fun _ => h⟩⟩
        rw [hready]
        exact recoverRow_finalize hp hread hstaging hfinal hverifies now
      · have hnot : ¬RowReady lib disk p := fun h => hverifies (h.recovers.verifies hfinal)
        refine ⟨fun h => absurd h hnot,fun _ => ?_⟩
        cases hcheck : verifyFinal lib disk p with
        | error e =>
          simp only [r, recoverRow, hstaging, hfinal, hcheck]
          exact ⟨e,rfl⟩
        | ok u => exact absurd ((verifyFinal_eq_ok_iff disk p).mp hcheck) hverifies

/-- The registers that recovery writes, in its order. -/
def renamed (disk : Disk) (ps : List (PendingInstallation Version)) :
    List ((String ×ₗ String) × (Version × Bytes32)) :=
  (ps.filter (fun p => disk.dirs.has p.finalRelative)).map claim

/-- What a successful loop has done. -/
structure LoopDone (lib : InstallLib Version) (disk : Disk)
    (ps : List (PendingInstallation Version)) (disk' : Disk) : Prop where
  staging : ∀ p ∈ ps, OrdMap.get disk'.dirs p.stagingName = none
  others : ∀ path, (∀ p ∈ ps, path ≠ p.stagingName) →
    OrdMap.get disk'.dirs path = OrdMap.get disk.dirs path
  pending : ∀ t row, disk'.tables.pending.get t = some row →
    disk.tables.pending.get t = some row ∧ ∀ p ∈ ps, p.transactionId ≠ t
  accepted : acceptedOf lib disk'.tables.accepted =
    putAll (acceptedOf lib disk.tables.accepted) (renamed disk ps)

omit [LinearOrder Version] in
/-- A turn of the loop leaves the other announced installations as they are. -/
theorem RowDone.frame {disk disk' : Disk} {p q : PendingInstallation Version}
    (h : RowDone lib disk p disk') (hp : Announced lib disk.tables p)
    (hq : Announced lib disk.tables q) (hne : p.transactionId ≠ q.transactionId) :
    Announced lib disk'.tables q ∧
      disk'.dirs.has q.finalRelative = disk.dirs.has q.finalRelative ∧
      (RowRecovers lib disk' q ↔ RowRecovers lib disk q) := by
  have hfinal := h.others q.finalRelative (hp.wellformed.final_ne_staging hq.wellformed)
  have hstaging := h.others q.stagingName (hp.wellformed.staging_ne hq.wellformed hne)
  have hverifies : disk.dirs.has q.finalRelative = true →
      (FinalVerifies lib disk' q ↔ FinalVerifies lib disk q) := by
    intro hhas
    rw [hq.wellformed.final] at hfinal hhas
    exact FinalVerifies.congr hhas hfinal h.publishers h.keys
  have hhas : disk'.dirs.has q.finalRelative = disk.dirs.has q.finalRelative := by
    rw [Dirs.has, hfinal, Dirs.has]
  have hhasStaging : disk'.dirs.has q.stagingName = disk.dirs.has q.stagingName := by
    rw [Dirs.has, hstaging, Dirs.has]
  refine ⟨⟨?_,hq.wellformed⟩,hhas,?_⟩
  · rw [h.pending, OrdMap.get_erase_of_ne _ hne.symm]
    exact hq.row
  · constructor
    · rintro ⟨hapart,hver⟩
      rw [hhas, hhasStaging] at hapart
      rw [hhas] at hver
      exact ⟨hapart,fun hfinal => (hverifies hfinal).mp (hver hfinal)⟩
    · rintro ⟨hapart,hver⟩
      refine ⟨?_,?_⟩
      · rw [hhas, hhasStaging]
        exact hapart
      · rw [hhas]
        exact fun hfinal => (hverifies hfinal).mpr (hver hfinal)

omit [LinearOrder Version] in
theorem renamed_congr {disk disk' : Disk} {ps : List (PendingInstallation Version)}
    (h : ∀ p ∈ ps, disk'.dirs.has p.finalRelative = disk.dirs.has p.finalRelative) :
    renamed disk' ps = renamed disk ps := by
  rw [renamed, List.filter_congr h, renamed]

/-- The loop goes through. -/
structure LoopReady (lib : InstallLib Version) (disk : Disk)
    (ps : List (PendingInstallation Version)) : Prop where
  recovers : ∀ p ∈ ps, RowRecovers lib disk p
  admitted : AllAdmitted Replaces (acceptedOf lib disk.tables.accepted) (renamed disk ps)

theorem RowDone.loopReady_cons {disk disk' : Disk} {p : PendingInstallation Version}
    {ps : List (PendingInstallation Version)} (h : RowDone lib disk p disk')
    (hp : Announced lib disk.tables p) (hps : ∀ q ∈ ps, Announced lib disk.tables q)
    (hne : ∀ q ∈ ps, p.transactionId ≠ q.transactionId) :
    LoopReady lib disk (p :: ps) ↔ RowReady lib disk p ∧ LoopReady lib disk' ps := by
  have hrecovers : (∀ q ∈ ps, RowRecovers lib disk' q) ↔ ∀ q ∈ ps, RowRecovers lib disk q :=
    forall₂_congr fun q hq => (h.frame hp (hps q hq) (hne q hq)).2.2
  have hrenamed : renamed disk' ps = renamed disk ps :=
    renamed_congr fun q hq => (h.frame hp (hps q hq) (hne q hq)).2.1
  constructor
  · rintro ⟨hrec,hadmitted⟩
    rw [List.forall_mem_cons] at hrec
    cases hfinal : disk.dirs.has p.finalRelative with
    | false =>
      refine ⟨⟨hrec.1,by simp [hfinal]⟩,hrecovers.mpr hrec.2,?_⟩
      rw [h.accepted, hfinal, hrenamed]
      simpa [renamed, hfinal] using hadmitted
    | true =>
      have hadmits : Admits Replaces (acceptedOf lib disk.tables.accepted) (claim p) ∧
          AllAdmitted Replaces (put (acceptedOf lib disk.tables.accepted) (claim p))
            (renamed disk ps) := by
        simpa [renamed, hfinal, AllAdmitted] using hadmitted
      refine ⟨⟨hrec.1,fun _ => hadmits.1⟩,hrecovers.mpr hrec.2,?_⟩
      rw [h.accepted, if_pos hfinal, hrenamed]
      exact hadmits.2
  · rintro ⟨hrow,hrec,hadmitted⟩
    refine ⟨List.forall_mem_cons.mpr ⟨hrow.recovers,hrecovers.mp hrec⟩,?_⟩
    rw [h.accepted, hrenamed] at hadmitted
    cases hfinal : disk.dirs.has p.finalRelative with
    | false => simpa [renamed, hfinal] using hadmitted
    | true =>
      rw [if_pos hfinal] at hadmitted
      have hboth := And.intro (hrow.admitted hfinal) hadmitted
      simpa [renamed, hfinal, AllAdmitted] using hboth

omit [LinearOrder Version] in
theorem RowDone.loopDone_cons {disk disk' disk'' : Disk} {p : PendingInstallation Version}
    {ps : List (PendingInstallation Version)} (h : RowDone lib disk p disk')
    (hp : Announced lib disk.tables p) (hps : ∀ q ∈ ps, Announced lib disk.tables q)
    (hne : ∀ q ∈ ps, p.transactionId ≠ q.transactionId) (hrest : LoopDone lib disk' ps disk'') :
    LoopDone lib disk (p :: ps) disk'' := by
  have hrenamed : renamed disk' ps = renamed disk ps :=
    renamed_congr fun q hq => (h.frame hp (hps q hq) (hne q hq)).2.1
  refine ⟨?_,?_,?_,?_⟩
  · refine List.forall_mem_cons.mpr ⟨?_,hrest.staging⟩
    rw [hrest.others p.stagingName, h.staging]
    intro q hq
    exact hps q hq |>.wellformed.staging_ne hp.wellformed (hne q hq).symm
  · intro path hpath
    rw [List.forall_mem_cons] at hpath
    rw [hrest.others path hpath.2, h.others path hpath.1]
  · intro t row hrow
    obtain ⟨hrow',hids⟩ := hrest.pending t row hrow
    rw [h.pending, OrdMap.get_erase] at hrow'
    split_ifs at hrow' with ht
    exact ⟨hrow',List.forall_mem_cons.mpr ⟨Ne.symm ht,hids⟩⟩
  · rw [hrest.accepted, hrenamed, h.accepted]
    cases hfinal : disk.dirs.has p.finalRelative with
    | false => simp [renamed, hfinal]
    | true => simp [renamed, hfinal]

/-- The whole loop succeeds exactly when every row allows a decision and the renamed
installations are admitted one after the other. -/
theorem recoverRows_spec (now : UnixSeconds) (ps : List (PendingInstallation Version))
    (report : RecoveryReport) (disk : Disk)
    (hnames : ps.Pairwise (fun p q => p.transactionId ≠ q.transactionId))
    (hann : ∀ p ∈ ps, Announced lib disk.tables p)
    (hread : Readable lib.versions disk.tables.accepted) :
    let r := recoverRows lib now ps report disk
    (LoopReady lib disk ps → (∃ report', r.1 = .ok report') ∧ LoopDone lib disk ps r.2) ∧
    (¬LoopReady lib disk ps → ∃ e, r.1 = .error e) := by
  induction ps generalizing report disk with
  | nil =>
    refine ⟨fun _ => ⟨⟨report,rfl⟩,by simp,fun _ _ => rfl,fun t row h => ⟨h,by simp⟩,rfl⟩,?_⟩
    exact fun h => absurd ⟨by simp,trivial⟩ h
  | cons p ps ih =>
    obtain ⟨hne,hnames⟩ := List.pairwise_cons.mp hnames
    obtain ⟨hp,hps⟩ := List.forall_mem_cons.mp hann
    obtain ⟨hok,herror⟩ := recoverRow_spec hp hread now
    by_cases hrow : RowReady lib disk p
    · obtain ⟨⟨finalized,hresult⟩,hdone⟩ := hok hrow
      simp only [recoverRows]
      generalize recoverRow lib now disk p = turn at hresult hdone ⊢
      obtain ⟨result,disk'⟩ := turn
      obtain rfl : result = .ok finalized := hresult
      have hps' : ∀ q ∈ ps, Announced lib disk'.tables q :=
        fun q hq => (hdone.frame hp (hps q hq) (hne q hq)).1
      obtain ⟨hready,hnotReady⟩ := ih (report.count finalized) disk' hnames hps' hdone.readable
      rw [hdone.loopReady_cons hp hps hne]
      refine ⟨fun h => ?_,fun h => hnotReady fun hrest => h ⟨hrow,hrest⟩⟩
      obtain ⟨hreport,hrest⟩ := hready h.2
      exact ⟨hreport,hdone.loopDone_cons hp hps hne hrest⟩
    · have hnot : ¬LoopReady lib disk (p :: ps) := by
        rintro ⟨hrec,hadmitted⟩
        refine hrow ⟨hrec p List.mem_cons_self,fun hfinal => ?_⟩
        have hboth : Admits Replaces (acceptedOf lib disk.tables.accepted) (claim p) ∧
            AllAdmitted Replaces (put (acceptedOf lib disk.tables.accepted) (claim p))
              (renamed disk ps) := by
          simpa [renamed, hfinal, AllAdmitted] using hadmitted
        exact hboth.1
      obtain ⟨e,hresult⟩ := herror hrow
      refine ⟨fun h => absurd h hnot,fun _ => ⟨e,?_⟩⟩
      simp only [recoverRows]
      generalize recoverRow lib now disk p = turn at hresult ⊢
      obtain ⟨result,disk'⟩ := turn
      obtain rfl : result = .error e := hresult
      rfl

end Loop

end Floatile.Cli
