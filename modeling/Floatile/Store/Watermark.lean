import Floatile.Lib.Transition
import Floatile.Store.Trust
import Mathlib.Order.Fin.Basic

/-! Runs of the operations on publisher trust: the highest accepted version of a plugin is a
watermark that only an active publisher raises. -/
namespace Floatile.Store

open Floatile.Core (Bytes32)
open Floatile.Lib
open Floatile.Lib.Transition
open Relation

section

variable {Version : Type}

/-- The error of an operation, if it returns one. -/
def failure {ε α : Type} : Except ε α → Option ε
  | .error e => some e
  | .ok _ => none

/-- An error other than a failure of the database leaves the tables as they were. -/
def FailsClean (t : TrustTables)
    (r : Option (TrustPolicyError Version) × TrustTables) : Prop :=
  ∀ e, r.1 = some e → e.isIo = false → r.2 = t

theorem failsClean_same (t : TrustTables) (e : Option (TrustPolicyError Version)) :
    FailsClean t (e,t) := fun _ _ _ => rfl

@[simp] theorem write_snd {ε α : Type} (io : ε) (fault : Option ℕ) (index : ℕ)
    (before after : TrustTables) (result : α) :
    (write io fault index before after result).2 = if fault = some index then before else after := by
  unfold write
  split_ifs <;> rfl

theorem write_failure {ε α : Type} {io e : ε} {fault : Option ℕ} {index : ℕ}
    {before after : TrustTables} {result : α}
    (h : failure (write io fault index before after result).1 = some e) : e = io := by
  unfold write at h
  split_ifs at h with hfault
  · exact (Option.some.inj h).symm
  · cases h

theorem write_failsClean (fault : Option ℕ) (index : ℕ) {t before : TrustTables}
    (after : TrustTables) {α : Type} (result : α) :
    let r := write (ε := TrustPolicyError Version) (.store (.open .io)) fault index before after
      result
    FailsClean t (failure r.1,r.2) := by
  intro r e he hio
  obtain rfl := write_failure he
  exact absurd hio (by simp [TrustPolicyError.isIo])

theorem write_store_failsClean (fault : Option ℕ) (index : ℕ) {t before : TrustTables}
    (after : TrustTables) {α : Type} (result : α) :
    let r := write (ε := StoreError) (.open .io) fault index before after result
    FailsClean t (((failure r.1).map .store : Option (TrustPolicyError Version)),r.2) := by
  intro r e he hio
  obtain ⟨e',he',rfl⟩ := Option.map_eq_some_iff.mp he
  obtain rfl := write_failure he'
  exact absurd hio (by simp [TrustPolicyError.isIo])

end

section

variable {Version : Type} [LinearOrder Version] (lib : VersionLib Version)
  (publisherKeyId : Bytes32 → String)

/-- A call of the store with its arguments. -/
inductive TrustOp (Version : Type) where
  | upsertKey (publisherId : String) (publicKey : Bytes32) (state : TrustState) (updatedAt : ℕ)
  | setPublisherState (publisherId : String) (state : TrustState) (updatedAt : ℕ)
  | acceptPackage (publisherId pluginId : String) (version : Version) (digest : Bytes32)
      (acceptedAt : ℕ)
  | prepareInstall (pending : PendingInstallation Version)
  | finalizeInstall (transactionId : String) (acceptedAt : ℕ)
  | abortInstall (transactionId : String)

/-- The error and the tables after a call. -/
def TrustOp.run (fault : Option ℕ) (t : TrustTables) :
    TrustOp Version → Option (TrustPolicyError Version) × TrustTables
  | .upsertKey publisherId publicKey state updatedAt =>
    let r := Store.upsertKey publisherKeyId fault t publisherId publicKey state updatedAt
    ((failure r.1).map .store,r.2)
  | .setPublisherState publisherId state updatedAt =>
    let r := Store.setPublisherState fault t publisherId state updatedAt
    ((failure r.1).map .store,r.2)
  | .acceptPackage publisherId pluginId version digest acceptedAt =>
    let r := Store.acceptPackage lib fault t publisherId pluginId version digest acceptedAt
    (failure r.1,r.2)
  | .prepareInstall pending =>
    let r := Store.prepareInstall lib publisherKeyId fault t pending
    (failure r.1,r.2)
  | .finalizeInstall transactionId acceptedAt =>
    let r := Store.finalizeInstall lib fault t transactionId acceptedAt
    (failure r.1,r.2)
  | .abortInstall transactionId =>
    let r := Store.abortInstall fault t transactionId
    ((failure r.1).map .store,r.2)

def publisherState (t : TrustTables) (publisherId : String) : Option TrustState :=
  (t.publishers.get publisherId).map PublisherRow.state

/-- The accepted version and digest of a plugin. -/
def Accepted (t : TrustTables) (key : String ×ₗ String) (v : Version) (d : Bytes32) : Prop :=
  ∃ row, t.accepted.get key = some row ∧ lib.parse row.version = .ok v ∧ row.digest = d

/-- Accepted versions do not decrease, and an accepted version keeps its digest. -/
def Watermark (t t' : TrustTables) : Prop :=
  ∀ key v d, Accepted lib t key v d →
    ∃ v' d', Accepted lib t' key v' d' ∧ v ≤ v' ∧ (v = v' → d = d')

theorem Watermark.refl (t : TrustTables) : Watermark lib t t :=
  fun _ v d h => ⟨v,d,h,le_refl v,fun _ => rfl⟩

variable {lib} in
theorem Watermark.trans {t₁ t₂ t₃ : TrustTables} (h₁ : Watermark lib t₁ t₂)
    (h₂ : Watermark lib t₂ t₃) : Watermark lib t₁ t₃ := by
  intro key v d h
  obtain ⟨v',d',h',hv,hd⟩ := h₁ key v d h
  obtain ⟨v'',d'',h'',hv',hd'⟩ := h₂ key v' d' h'
  refine ⟨v'',d'',h'',hv.trans hv',fun heq => ?_⟩
  -- between equal ends every version in the middle is the same one
  have hmid : v = v' := le_antisymm hv (heq ▸ hv')
  exact (hd hmid).trans (hd' (hmid.symm.trans heq))

/-- The accepted packages after an operation: as before, or with one package of an active
publisher above everything accepted for its plugin. -/
inductive AcceptedStep (t : TrustTables) (accepted : OrdMap (String ×ₗ String) AcceptedRow) :
    Prop where
  | same (h : accepted = t.accepted)
  | raised (publisherId pluginId : String) (version : Version) (digest : Bytes32)
      (acceptedAt : ℕ) (active : publisherState t publisherId = some .active)
      (above : ∀ v d, Accepted lib t (toLex (publisherId,pluginId)) v d → v < version)
      (h : accepted = t.accepted.insert (toLex (publisherId,pluginId))
        (AcceptedRow.mk (lib.toText version) digest acceptedAt))

variable {lib}

omit [LinearOrder Version] in
theorem requireActive_eq_ok {state : Option TrustState}
    (h : (requireActive state : Except (TrustPolicyError Version) Unit) = .ok ()) :
    state = some .active := by
  cases state with
  | none => cases h
  | some state =>
    cases state with
    | active => rfl
    | revoked => cases h

theorem acceptanceOf_eq_ok {t : TrustTables} {publisherId pluginId : String} {version : Version}
    {digest : Bytes32} {acceptedAt time : ℕ} {outcome : AcceptanceOutcome}
    (h : acceptanceOf lib t publisherId pluginId version digest acceptedAt = .ok (time,outcome)) :
    publisherState t publisherId = some .active ∧ (outcome ≠ .alreadyAccepted →
      ∀ v d, Accepted lib t (toLex (publisherId,pluginId)) v d → v < version) := by
  simp only [acceptanceOf, Checked.bind_eq_ok] at h
  obtain ⟨_,-,_,-,_,-,_,hactive,h⟩ := h
  refine ⟨requireActive_eq_ok hactive,?_⟩
  rintro hnew v d ⟨row,hrow,hparse,-⟩
  simp only [hrow, Checked.bind_eq_ok, liftStore, parseVersion, Checked.mapError_eq_ok] at h
  obtain ⟨highest,hhighest,h⟩ := h
  rw [hparse] at hhighest
  obtain rfl := Except.ok.inj hhighest
  rw [Checked.ite_error_eq_ok] at h
  obtain ⟨hle,h⟩ := h
  split_ifs at h with heq hdigest
  · exact absurd (Prod.ext_iff.mp (Except.ok.inj h)).2.symm hnew
  · exact lt_of_le_of_ne (not_lt.mp hle) (Ne.symm heq)

variable (lib) in
theorem acceptPackage_accepted (fault : Option ℕ) (t : TrustTables)
    (publisherId pluginId : String) (version : Version) (digest : Bytes32) (acceptedAt : ℕ) :
    AcceptedStep lib t
      (acceptPackage lib fault t publisherId pluginId version digest acceptedAt).2.accepted := by
  unfold acceptPackage
  cases hchecked : acceptanceOf lib t publisherId pluginId version digest acceptedAt with
  | error e => exact .same rfl
  | ok checked =>
    obtain ⟨time,outcome⟩ := checked
    obtain ⟨hactive,habove⟩ := acceptanceOf_eq_ok hchecked
    cases outcome with
    | alreadyAccepted => exact .same rfl
    | firstAccepted =>
      simp only [write_snd]
      split_ifs
      · exact .same rfl
      · exact .raised _ _ _ _ _ hactive (habove (by simp)) rfl
    | newerAccepted =>
      simp only [write_snd]
      split_ifs
      · exact .same rfl
      · exact .raised _ _ _ _ _ hactive (habove (by simp)) rfl

theorem finalizeInstall_accepted (fault : Option ℕ) (t : TrustTables) (transactionId : String)
    (acceptedAt : ℕ) :
    AcceptedStep lib t
      (finalizeInstall lib fault t transactionId acceptedAt).2.accepted := by
  unfold finalizeInstall
  match liftStore (pendingInstall lib t transactionId) with
  | .error e => exact .same rfl
  | .ok none => exact .same rfl
  | .ok (some pending) =>
    have haccept := acceptPackage_accepted lib fault t pending.publisherId
      pending.pluginId pending.version pending.signedDigest acceptedAt
    simp only
    generalize acceptPackage lib fault t pending.publisherId pending.pluginId pending.version
      pending.signedDigest acceptedAt = r at haccept ⊢
    obtain ⟨result,after⟩ := r
    cases result with
    | error e => exact haccept
    | ok outcome =>
      simp only [write_snd]
      split_ifs <;> exact haccept

/-- Acceptance is the only way by which the accepted packages change. -/
theorem TrustOp.run_accepted (fault : Option ℕ) (t : TrustTables) (op : TrustOp Version) :
    AcceptedStep lib t (op.run lib publisherKeyId fault t).2.accepted := by
  cases op with
  | upsertKey publisherId publicKey state updatedAt =>
    refine .same ?_
    simp only [TrustOp.run, Store.upsertKey]
    split
    · rfl
    · simp only [write_snd]
      split_ifs <;> rfl
  | setPublisherState publisherId state updatedAt =>
    refine .same ?_
    simp only [TrustOp.run, Store.setPublisherState]
    split
    · rfl
    · split <;> simp only [write_snd] <;> split_ifs <;> rfl
  | acceptPackage publisherId pluginId version digest acceptedAt =>
    exact acceptPackage_accepted lib fault t publisherId pluginId version digest acceptedAt
  | prepareInstall pending =>
    refine .same ?_
    simp only [TrustOp.run, Store.prepareInstall]
    split
    · rfl
    · split
      · rfl
      · simp only [write_snd]
        split_ifs <;> rfl
  | finalizeInstall transactionId acceptedAt =>
    exact finalizeInstall_accepted fault t transactionId acceptedAt
  | abortInstall transactionId =>
    refine .same ?_
    simp only [TrustOp.run, Store.abortInstall]
    split
    · rfl
    · simp only [write_snd]
      split_ifs <;> rfl

variable (lib) in
theorem acceptPackage_failsClean (fault : Option ℕ) (t : TrustTables)
    (publisherId pluginId : String) (version : Version) (digest : Bytes32) (acceptedAt : ℕ) :
    let r := acceptPackage lib fault t publisherId pluginId version digest acceptedAt
    FailsClean t (failure r.1,r.2) := by
  intro r
  simp only [r, acceptPackage]
  split
  · exact failsClean_same t _
  · exact failsClean_same t _
  · exact write_failsClean fault 0 _ _

theorem finalizeInstall_failsClean (fault : Option ℕ) (t : TrustTables) (transactionId : String)
    (acceptedAt : ℕ) :
    let r := finalizeInstall lib fault t transactionId acceptedAt
    FailsClean t (failure r.1,r.2) := by
  intro r
  simp only [r, finalizeInstall]
  match liftStore (pendingInstall lib t transactionId) with
  | .error e => exact failsClean_same t _
  | .ok none => exact failsClean_same t _
  | .ok (some pending) =>
    have haccept := acceptPackage_failsClean lib fault t pending.publisherId
      pending.pluginId pending.version pending.signedDigest acceptedAt
    simp only at haccept ⊢
    generalize acceptPackage lib fault t pending.publisherId pending.pluginId pending.version
      pending.signedDigest acceptedAt = r at haccept ⊢
    obtain ⟨result,after⟩ := r
    cases result with
    | error e => exact haccept
    -- the acceptance is committed, so only the removal of the intent can still fail
    | ok outcome => exact write_failsClean fault 1 _ _

theorem TrustOp.run_failsClean (fault : Option ℕ) (t : TrustTables) (op : TrustOp Version) :
    FailsClean t (op.run lib publisherKeyId fault t) := by
  cases op with
  | upsertKey publisherId publicKey state updatedAt =>
    simp only [TrustOp.run, Store.upsertKey]
    split
    · exact failsClean_same t _
    · exact write_store_failsClean fault 0 _ _
  | setPublisherState publisherId state updatedAt =>
    simp only [TrustOp.run, Store.setPublisherState]
    split
    · exact failsClean_same t _
    · split <;> exact write_store_failsClean fault 0 _ _
  | acceptPackage publisherId pluginId version digest acceptedAt =>
    exact acceptPackage_failsClean lib fault t publisherId pluginId version digest acceptedAt
  | prepareInstall pending =>
    simp only [TrustOp.run, Store.prepareInstall]
    split
    · exact failsClean_same t _
    · split
      · exact failsClean_same t _
      · exact write_failsClean fault 0 _ _
  | finalizeInstall transactionId acceptedAt =>
    exact finalizeInstall_failsClean fault t transactionId acceptedAt
  | abortInstall transactionId =>
    simp only [TrustOp.run, Store.abortInstall]
    split
    · exact failsClean_same t _
    · exact write_store_failsClean fault 0 _ _

omit [LinearOrder Version] in
/-- A publisher that is known keeps its state when a key is added or replaced. -/
theorem upsertKey_publisherState (fault : Option ℕ) {t : TrustTables}
    (owner : String) (publicKey : Bytes32) (state : TrustState) (updatedAt : ℕ)
    {publisherId : String} {s : TrustState} (h : publisherState t publisherId = some s) :
    publisherState (Store.upsertKey publisherKeyId fault t owner publicKey state updatedAt).2
      publisherId = some s := by
  simp only [Store.upsertKey]
  split
  · exact h
  · next time _ =>
    rw [write_snd]
    split_ifs
    · exact h
    · simp only [publisherState, OrdMap.get_insert]
      split_ifs with howner
      · subst howner
        obtain ⟨row,hrow,rfl⟩ := Option.map_eq_some_iff.mp h
        simp [hrow]
      · exact h

variable (lib) in
/-- Every accepted row holds a version. -/
def Readable (accepted : OrdMap (String ×ₗ String) AcceptedRow) : Prop :=
  ∀ key row, accepted.get key = some row → ∃ v, lib.parse row.version = .ok v

theorem AcceptedStep.readable {t : TrustTables}
    {accepted : OrdMap (String ×ₗ String) AcceptedRow}
    (hstep : AcceptedStep lib t accepted) (h : Readable lib t.accepted) :
    Readable lib accepted := by
  cases hstep with
  | same heq => exact heq ▸ h
  | raised publisherId pluginId version digest acceptedAt active above heq =>
    subst heq
    intro key row hrow
    rw [OrdMap.get_insert] at hrow
    split_ifs at hrow with hkey
    · obtain rfl := Option.some.inj hrow
      exact ⟨version,lib.parse_toText version⟩
    · exact h key row hrow

theorem AcceptedStep.watermark {t t' : TrustTables}
    (hstep : AcceptedStep lib t t'.accepted) : Watermark lib t t' := by
  cases hstep with
  | same heq =>
    rintro key v d ⟨row,hrow,hversion⟩
    exact ⟨v,d,⟨row,heq ▸ hrow,hversion⟩,le_refl v,fun _ => rfl⟩
  | raised publisherId pluginId version digest acceptedAt active above heq =>
    rintro key v d ⟨row,hrow,hparse,hdigest⟩
    by_cases hkey : key = toLex (publisherId,pluginId)
    · subst hkey
      have hlt := above v d ⟨row,hrow,hparse,hdigest⟩
      refine ⟨version,digest,⟨_,by rw [heq, OrdMap.get_insert_self],
        lib.parse_toText version,rfl⟩,hlt.le,?_⟩
      exact fun h => absurd h hlt.ne
    · exact ⟨v,d,⟨row,by rw [heq, OrdMap.get_insert_of_ne _ hkey]; exact hrow,hparse,hdigest⟩,
        le_refl v,fun _ => rfl⟩

/-- What an operation changes about the accepted packages belongs to an active publisher. -/
theorem AcceptedStep.active {t : TrustTables}
    {accepted : OrdMap (String ×ₗ String) AcceptedRow}
    (hstep : AcceptedStep lib t accepted) {publisherId pluginId : String}
    (hchange : accepted.get (toLex (publisherId,pluginId)) ≠
      t.accepted.get (toLex (publisherId,pluginId))) :
    publisherState t publisherId = some .active := by
  cases hstep with
  | same heq => exact absurd (by rw [heq]) hchange
  | raised owner plugin version digest acceptedAt active above heq =>
    by_cases hkey : toLex (publisherId,pluginId) = toLex (owner,plugin)
    · obtain ⟨rfl,rfl⟩ := Prod.ext_iff.mp (toLex_inj.mp hkey)
      exact active
    · rw [heq, OrdMap.get_insert_of_ne _ hkey] at hchange
      exact absurd rfl hchange

variable (lib)

/-- Runs of the operations from the empty tables, each with its failing write. -/
def trustSystem : System TrustTables (TrustOp Version × Option ℕ) :=
  .ofFunction (· = .empty) (fun t call => (call.1.run lib publisherKeyId call.2 t).2)

theorem trustSystem_readable {t : TrustTables}
    (h : (trustSystem lib publisherKeyId).Reachable t) : Readable lib t.accepted := by
  refine h.invariant (fun t => Readable lib t.accepted) ?_ ?_
  · rintro t rfl key row hrow
    cases hrow
  · rintro t ⟨op,fault⟩ t' hread - rfl
    exact (TrustOp.run_accepted publisherKeyId fault t op).readable hread

theorem trustSystem_watermark {t t' : TrustTables}
    (h : ReflTransGen ((trustSystem lib publisherKeyId).StepWhen (fun _ _ => True)) t t') :
    Watermark lib t t' := by
  induction h with
  | refl => exact Watermark.refl lib t
  | tail _ hlast ih =>
    obtain ⟨⟨op,fault⟩,-,rfl⟩ := hlast
    exact ih.trans (TrustOp.run_accepted publisherKeyId fault _ op).watermark

/-- In every run of the trust operations accepted versions only rise and keep their digests,
they are raised for active publishers, keys never reactivate a publisher, and what fails
without a failure of the database changes nothing. -/
theorem trustSystem_safe {t : TrustTables} (h : (trustSystem lib publisherKeyId).Reachable t) :
    Readable lib t.accepted ∧
    (∀ t', ReflTransGen ((trustSystem lib publisherKeyId).StepWhen (fun _ _ => True)) t t' →
      Watermark lib t t') ∧
    ∀ (op : TrustOp Version) (fault : Option ℕ),
      let r := op.run lib publisherKeyId fault t
      (∀ publisherId pluginId, r.2.accepted.get (toLex (publisherId,pluginId)) ≠
          t.accepted.get (toLex (publisherId,pluginId)) →
        publisherState t publisherId = some .active) ∧
      (∀ publisherId publicKey state updatedAt,
        op = .upsertKey publisherId publicKey state updatedAt →
        ∀ publisherId, publisherState t publisherId = some .revoked →
          publisherState r.2 publisherId = some .revoked) ∧
      FailsClean t r := by
  refine ⟨trustSystem_readable lib publisherKeyId h,
    fun _ hrun => trustSystem_watermark lib publisherKeyId hrun,fun op fault => ⟨?_,?_,?_⟩⟩
  · intro publisherId pluginId hchange
    exact (TrustOp.run_accepted publisherKeyId fault t op).active hchange
  · rintro owner publicKey state updatedAt rfl publisherId hrevoked
    exact upsertKey_publisherState publisherKeyId fault owner publicKey state updatedAt hrevoked
  · exact TrustOp.run_failsClean publisherKeyId fault t op

end

/-- Three versions with their texts. -/
def threeReleases : VersionLib (Fin 3) where
  toText
    | 0 => "1.9.0"
    | 1 => "1.10.0"
    | 2 => "2.0.0"
  parse s :=
    if s = "1.9.0" then .ok 0
    else if s = "1.10.0" then .ok 1
    else if s = "2.0.0" then .ok 2
    else .error "unexpected character"
  parse_toText := by decide

def zeroBytes : Bytes32 := ⟨List.replicate 32 0,by decide⟩

/-- The SHA-256 digest of the only key in use. -/
def zeroKeyId (_ : Bytes32) : String :=
  "66687aadf862bd776c8fc18b8e9f8e20089714856ee233b3902a591d0d5f2925"

/-- Two acceptances, a revocation and a key for the revoked publisher. -/
def revokedRun : List (TrustOp (Fin 3) × Option ℕ) :=
  [(.upsertKey "acme" zeroBytes .active 10,none),
   (.acceptPackage "acme" "org.acme.notes" 0 zeroBytes 11,none),
   (.acceptPackage "acme" "org.acme.notes" 1 zeroBytes 12,none),
   (.setPublisherState "acme" .revoked 13,none),
   (.upsertKey "acme" zeroBytes .active 14,none)]

def revokedTables : TrustTables :=
  revokedRun.foldl (fun t call => (call.1.run threeReleases zeroKeyId call.2 t).2) .empty

theorem revokedTables_safe :
    publisherState revokedTables "acme" = some .revoked ∧
    revokedTables.accepted.get (toLex ("acme","org.acme.notes")) =
      some ⟨"1.10.0",zeroBytes,12⟩ ∧
    Readable threeReleases revokedTables.accepted ∧
    ∀ (op : TrustOp (Fin 3)) (fault : Option ℕ),
      FailsClean revokedTables (op.run threeReleases zeroKeyId fault revokedTables) := by
  have hempty : (trustSystem threeReleases zeroKeyId).Reachable .empty := .of_init rfl
  have hsafe := trustSystem_safe threeReleases zeroKeyId (System.reachable_foldl hempty revokedRun)
  exact ⟨by decide,by decide,hsafe.1,fun op fault => (hsafe.2.2 op fault).2.2⟩

end Floatile.Store
