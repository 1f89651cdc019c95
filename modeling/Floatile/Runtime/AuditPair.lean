import Floatile.Runtime.HostAdapter
import Floatile.Services.Confinement

/-! The audit records of one call made on two hosts: they are the same when the arguments differ
in secrets only and the guest gets the same answer. -/
namespace Floatile.Runtime

open Floatile.Core
open Floatile.Core.Capability Floatile.Core.Operation
open Floatile.Lib Floatile.Lib.Trace
open Floatile.Services Floatile.Services.Operation

/-- Two calls whose arguments differ in secrets only, and those have the same length: in
characters for a log message, in bytes otherwise. -/
inductive SameCall : BrokerCall → BrokerCall → Prop where
  | same (call : BrokerCall) : SameCall call call
  | updateState {patchJson patchJson' : String}
      (hlength : Text.byteLen patchJson = Text.byteLen patchJson') :
      SameCall (.updateState patchJson) (.updateState patchJson')
  | log (level : LogLevel) {message message' : String}
      (hlength : Text.charCount message = Text.charCount message') :
      SameCall (.log level message) (.log level message')
  | storageSet (key : String) {value value' : String}
      (hlength : Text.byteLen value = Text.byteLen value') :
      SameCall (.storageSet key value) (.storageSet key value')
  | submitHttps (templateId : String) (connectionId : ConnectionId)
      {query query' : List QueryParam} (hquery : List.Forall₂ (fun p p' : QueryParam =>
        p.name = p'.name ∧ Text.byteLen p.value = Text.byteLen p'.value) query query') :
      SameCall (.submitHttps templateId connectionId query)
        (.submitHttps templateId connectionId query')
  | cancelOperationById (id : ℕ)
      (meanwhile meanwhile' : List (RegistryLabel ResultType OperationValue)) :
      SameCall (.cancelOperationById id meanwhile) (.cancelOperationById id meanwhile')

def operationIdOf : CallValue → Option ℕ
  | .operation id => some id
  | _ => none

/-- The same error, or two answers with the same operation in them. -/
def SameOutcome (r r' : Except HostError CallValue) : Prop :=
  r.map operationIdOf = r'.map operationIdOf

instance (r r' : Except HostError CallValue) : Decidable (SameOutcome r r') :=
  inferInstanceAs (Decidable (_ = _))

/-- Two brokers made with the same grants, identity, templates and connections. -/
structure SameSetup (b b' : Broker) : Prop where
  grants : b.grants = b'.grants
  audit : b.audit = b'.audit
  https : b.https = b'.https
  owner : b.operations.map OperationRegistry.owner = b'.operations.map OperationRegistry.owner

/-- An operation that both run is about the same capability. -/
structure Agrees (b b' : Broker) : Prop extends SameSetup b b' where
  running : ∀ id c c', b.runningCapability id = some c → b'.runningCapability id = some c' → c = c'

/-- The registry is in use and takes jobs, and there is one wherever there are templates. -/
structure Hosted (b : Broker) : Prop where
  bound : b.https.isSome → b.operations.isSome
  held : b.Held
  isOpen : ∀ operations ∈ b.operations, operations.state.jobs.isOpen = true
  drawn : ∀ operations ∈ b.operations, ∀ id operation,
    operations.state.active.get id = some operation → id < operations.state.nextId

theorem SameSetup.refl (b : Broker) : SameSetup b b := ⟨rfl,rfl,rfl,rfl⟩

theorem sameSetup_of_follows {b b' : Broker} {drawn : Option (ℕ × CapabilityId)}
    (hkept : b.Kept b') (h : b.Follows drawn b') : SameSetup b b' where
  grants := hkept.grants.symm
  audit := hkept.audit.symm
  https := hkept.https.symm
  owner := by
    unfold Broker.Follows at h
    generalize b.operations = first at h ⊢
    generalize b'.operations = last at h ⊢
    cases h with
    | none => rfl
    | some hfollows => exact congrArg some hfollows.1.symm

theorem SameSetup.symm {b b' : Broker} (h : SameSetup b b') : SameSetup b' b :=
  ⟨h.grants.symm,h.audit.symm,h.https.symm,h.owner.symm⟩

theorem SameSetup.trans {b c d : Broker} (h : SameSetup b c) (h' : SameSetup c d) :
    SameSetup b d :=
  ⟨h.grants.trans h'.grants,h.audit.trans h'.audit,h.https.trans h'.https,
    h.owner.trans h'.owner⟩

theorem Hosted.follows {b b' : Broker} {drawn : Option (ℕ × CapabilityId)} (h : Hosted b)
    (hkept : b.Kept b') (hfollows : b.Follows drawn b') : Hosted b' := by
  obtain ⟨hbound,hheld,hopen,hdrawn⟩ := h
  unfold Broker.Follows at hfollows
  unfold Broker.Held at hheld
  refine ⟨?_,?_,?_,?_⟩
  · rw [hkept.https]
    intro hhttps
    have hsome := hbound hhttps
    generalize b.operations = first at hfollows hsome
    generalize b'.operations = last at hfollows ⊢
    cases hfollows with
    | none => exact hsome
    | some _ => rfl
  all_goals
    intro operations' hoperations'
    generalize b.operations = first at hfollows hheld hopen hdrawn
    rw [hoperations'] at hfollows
    cases hfollows with
    | @some operations _ hstep =>
      have hwas := hheld operations rfl
      first
        | exact hstep.2.held.trans hwas
        | exact (hstep.2.isOpen hwas).trans (hopen operations rfl)
        | intro id operation hactive
          rcases hstep.2.active id operation hactive with hold | hnew
          · exact (hdrawn operations rfl id operation hold).trans_le hstep.2.nextId
          · exact (hstep.2.isNext _ hnew).2

/-- An operation that runs now was running before or was submitted just now. -/
theorem running_of_follows {b b' : Broker} {drawn : Option (ℕ × CapabilityId)}
    (h : b.Follows drawn b') {id : ℕ} {c : CapabilityId}
    (hrunning : b'.runningCapability id = some c) :
    b.runningCapability id = some c ∨ drawn = some (id,c) := by
  unfold Broker.Follows at h
  unfold Broker.runningCapability at hrunning ⊢
  generalize b.operations = first at h ⊢
  generalize b'.operations = last at h hrunning
  cases h with
  | none => cases hrunning
  | some hfollows =>
    obtain ⟨operation,hactive,rfl⟩ := Option.map_eq_some_iff.mp hrunning
    rcases hfollows.2.active id operation hactive with hold | hnew
    · exact .inl (by simp [OperationRegistry.activeCapability, hold])
    · exact .inr hnew

theorem not_running_of_drawn {b b' : Broker} {id : ℕ} {c : CapabilityId} (hhosted : Hosted b)
    (h : b.Follows (some (id,c)) b') : b.runningCapability id = none := by
  have hdrawn := hhosted.drawn
  unfold Broker.Follows at h
  unfold Broker.runningCapability
  generalize b.operations = first at h hdrawn ⊢
  generalize b'.operations = last at h
  cases h with
  | none => rfl
  | @some operations _ hfollows =>
    have hnext := (hfollows.2.isNext _ rfl).1
    dsimp only at hnext
    cases hactive : operations.state.active.get id with
    | none => simp [OperationRegistry.activeCapability, hactive]
    | some operation =>
      have hlt := hdrawn operations rfl id operation hactive
      omega

/-- Steps that submit the same operation, if any, keep two brokers in agreement. -/
theorem Agrees.follows {b b' c c' : Broker} {drawn : Option (ℕ × CapabilityId)}
    (h : Agrees b b') (hb : Hosted b) (hb' : Hosted b') (hkept : b.Kept c) (hkept' : b'.Kept c')
    (hfollows : b.Follows drawn c) (hfollows' : b'.Follows drawn c') : Agrees c c' where
  toSameSetup := (sameSetup_of_follows hkept hfollows).symm.trans
    (h.toSameSetup.trans (sameSetup_of_follows hkept' hfollows'))
  running := by
    intro id capability capability' hrunning hrunning'
    rcases running_of_follows hfollows hrunning with hold | rfl <;>
      rcases running_of_follows hfollows' hrunning' with hold' | hnew'
    · exact h.running id _ _ hold hold'
    · subst hnew'
      rw [not_running_of_drawn hb hfollows] at hold
      cases hold
    · rw [not_running_of_drawn hb' hfollows'] at hold'
      cases hold'
    · cases hnew'
      rfl

@[simp] theorem auditsOf_append (t t' : List BrokerEvent) :
    auditsOf (t ++ t') = auditsOf t ++ auditsOf t' := List.filterMap_append

@[simp] theorem auditsOf_effects (effects : List ServiceEffect) :
    auditsOf (effects.map .effect) = [] := by
  induction effects with
  | nil => rfl
  | cons e effects ih => exact ih

theorem SameSetup.authorize_result {b b' : Broker} (h : SameSetup b b') (c : CapabilityId)
    (request : Option CapabilityParams) (detail : String) :
    (b.authorize c request detail).result = (b'.authorize c request detail).result := by
  simp only [Broker.authorize, h.grants, h.audit]

theorem SameSetup.authorize_audits {b b' : Broker} (h : SameSetup b b') (c : CapabilityId)
    (request : Option CapabilityParams) (detail : String) :
    auditsOf (b.authorize c request detail).trace =
      auditsOf (b'.authorize c request detail).trace := by
  simp only [Broker.authorize, h.grants, h.audit]

theorem SameSetup.existingRequest {b b' : Broker} (h : SameSetup b b') (c : CapabilityId) :
    b.existingRequest c = b'.existingRequest c := by
  simp only [Broker.existingRequest, h.grants]

/-- Behind the same permission check only what the calls do themselves can differ. -/
theorem SameSetup.guarded_audits {b b' : Broker} (h : SameSetup b b') {ε α : Type}
    {c : CapabilityId} {request : Option CapabilityParams} {detail : String}
    {deny : DenyReason → ε} {execute execute' : BrokerResult Broker ε α}
    (hexecute : (Broker.guarded (b.authorize c request detail) deny execute).result = execute.result →
      (Broker.guarded (b'.authorize c request detail) deny execute').result = execute'.result →
      auditsOf execute.trace = auditsOf execute'.trace) :
    auditsOf (Broker.guarded (b.authorize c request detail) deny execute).trace =
      auditsOf (Broker.guarded (b'.authorize c request detail) deny execute').trace := by
  have hresult := h.authorize_result c request detail
  have haudits := h.authorize_audits c request detail
  generalize b.authorize c request detail = a at *
  generalize b'.authorize c request detail = a' at *
  unfold Broker.guarded at *
  cases hdecision : a.result with
  | error reason =>
    rw [hdecision] at hresult
    simpa only [← hresult] using haudits
  | ok _ =>
    rw [hdecision] at hresult
    simp only [hdecision, ← hresult, Outcome.after_result, forall_const] at hexecute
    simp [← hresult, haudits, hexecute]

/-- A service records nothing. -/
@[simp] theorem executed_audits {σ ε α : Type} (b : Broker) (c : CapabilityId)
    (request : Option CapabilityParams) (detail : String) (deny : DenyReason → ε)
    (o : Outcome σ ServiceEffect (Except ε α)) (put : σ → Broker) :
    auditsOf (Broker.guarded (b.authorize c request detail) deny (executed o put)).trace =
      auditsOf (b.authorize c request detail).trace := by
  unfold Broker.guarded
  cases (b.authorize c request detail).result with
  | error reason => rfl
  | ok _ => simp [executed]

/-- The record of a submission that the registry has refused. -/
def refusals (sink : AuditSink) (c : CapabilityId) : Except OperationSubmitError ℕ → List AuditEvent
  | .ok _ => []
  | .error e => [sink.record c false (some (Broker.submitErrorReason e))
      s!"operation submit failed={Broker.submitErrorCode e}"]

theorem submitAuthorizedOperation_audits (b : Broker) (c : CapabilityId) (timeout : ℕ) :
    auditsOf (b.submitAuthorizedOperation c timeout).trace =
      refusals b.audit c (b.submitAuthorizedOperation c timeout).result := by
  have hrefuse : auditsOf (b.submitOrRefuse c timeout).trace = [] := by
    unfold Broker.submitOrRefuse
    split <;> rfl
  unfold Broker.submitAuthorizedOperation
  dsimp only
  cases hresult : (b.submitOrRefuse c timeout).result with
  | ok id => simp [hresult, hrefuse, refusals]
  | error e =>
    simp only [auditsOf_append, hrefuse, refusals]
    rfl

/-- The registry refuses a submission for its own reasons only. -/
theorem submitAuthorizedOperation_error {b : Broker} {c : CapabilityId} {timeout : ℕ}
    {e : OperationSubmitError} (h : (b.submitAuthorizedOperation c timeout).result = .error e) :
    (∀ reason, e ≠ .permissionDenied reason) ∧ e ≠ .invalidInput ∧
      (e = .unavailable → b.operations.isSome →
        ∃ operations ∈ b.operations, operations.state.jobs.isOpen = false) := by
  have hrefused : (b.submitOrRefuse c timeout).result = .error e := by
    unfold Broker.submitAuthorizedOperation at h
    dsimp only at h
    split at h
    · exact h
    · next e' he =>
      rw [he] at h ⊢
      exact h
  unfold Broker.submitOrRefuse at hrefused
  cases hoperations : b.operations with
  | none =>
    simp only [hoperations] at hrefused
    cases hrefused
    simp
  | some operations =>
    simp only [hoperations] at hrefused
    unfold Registry.submit Registry.draw nextOperationId at hrefused
    split_ifs at hrefused
    · cases hrefused
      simp
    · cases hrefused
      simp
    · cases hrefused
      simp
    · simp only [Checked.ok_bind] at hrefused
      cases hsend : operations.state.jobs.trySend ⟨operations.state.nextId,c,
          operations.state.now + timeout⟩ with
      | ok jobs => simp [hsend] at hrefused
      | error error =>
        have hclosed := (Channel.trySend_eq_error hsend).2
        cases error with
        | full =>
          simp only [hsend] at hrefused
          cases hrefused
          simp
        | closed =>
          simp only [hsend] at hrefused
          cases hrefused
          refine ⟨by simp,by simp,fun _ _ => ⟨operations,rfl,hclosed.mp rfl⟩⟩

/-- Answers that the guest cannot tell apart. -/
def SameSubmission (r r' : Except OperationSubmitError ℕ) : Prop :=
  r.mapError mapOperationSubmit = r'.mapError mapOperationSubmit

theorem mapOperationSubmit_inj {e e' : OperationSubmitError}
    (h : mapOperationSubmit e = mapOperationSubmit e')
    (he : ∀ reason, e ≠ .permissionDenied reason) (he' : ∀ reason, e' ≠ .permissionDenied reason) :
    e = e' := by
  cases e <;> cases e' <;> first | rfl | exact absurd rfl (he _) | exact absurd rfl (he' _) | cases h

theorem SameSetup.submit_audits {b b' : Broker} (h : SameSetup b b') {c : CapabilityId}
    {timeout timeout' : ℕ} (hsame : SameSubmission (b.submitAuthorizedOperation c timeout).result
      (b'.submitAuthorizedOperation c timeout').result) :
    auditsOf (b.submitAuthorizedOperation c timeout).trace =
      auditsOf (b'.submitAuthorizedOperation c timeout').trace := by
  rw [submitAuthorizedOperation_audits, submitAuthorizedOperation_audits, h.audit]
  unfold SameSubmission at hsame
  cases hresult : (b.submitAuthorizedOperation c timeout).result with
  | ok id =>
    cases hresult' : (b'.submitAuthorizedOperation c timeout').result with
    | ok id' => rfl
    | error e' =>
      rw [hresult, hresult'] at hsame
      cases hsame
  | error e =>
    cases hresult' : (b'.submitAuthorizedOperation c timeout').result with
    | ok id' =>
      rw [hresult, hresult'] at hsame
      cases hsame
    | error e' =>
      rw [hresult, hresult'] at hsame
      injection hsame with hsame
      rw [mapOperationSubmit_inj hsame (submitAuthorizedOperation_error hresult).1
        (submitAuthorizedOperation_error hresult').1]

section Https

variable {υ : Type} {lib : HttpLibrary υ}

/-- What a request asks for depends on its template alone. -/
theorem requestParams_of_prepare
    (hlib : ∀ url pairs, lib.origin (lib.appendPairs url pairs) = lib.origin url)
    {https : HttpsService} {vault vault' : CredentialVault} {templateId : String}
    {connectionId : ConnectionId} {query query' : List QueryParam}
    {prepared prepared' : PreparedHttpOperation υ}
    (h : (https.prepare lib vault templateId connectionId query).result = .ok prepared)
    (h' : (https.prepare lib vault' templateId connectionId query').result = .ok prepared') :
    prepared.requestParams = prepared'.requestParams := by
  obtain ⟨draft,-,credential,hdraft,-,-,hprepared⟩ := HttpsService.prepare_eq_ok h
  obtain ⟨draft',-,credential',hdraft',-,-,hprepared'⟩ := HttpsService.prepare_eq_ok h'
  obtain ⟨htemplate,-,-,url,hurl,hdrafted⟩ := HttpsService.draft_eq_ok hdraft
  obtain ⟨htemplate',-,-,url',hurl',hdrafted'⟩ := HttpsService.draft_eq_ok hdraft'
  obtain ⟨-,hparams,-⟩ := HttpDraft.prepared_eq_ok hprepared
  obtain ⟨-,hparams',-⟩ := HttpDraft.prepared_eq_ok hprepared'
  have hsame : draft.template = draft'.template :=
    Option.some.inj (htemplate.symm.trans htemplate')
  rw [hsame] at hurl hparams
  have hparsed : url = url' := Option.some.inj (hurl.symm.trans hurl')
  rw [hparams, hparams', hdrafted, hdrafted', hlib, hlib, hparsed]

/-- A preparation fails with one of two errors. -/
theorem httpsSubmitError_cases (e : HttpServiceError) :
    Broker.httpsSubmitError e = .invalidInput ∨ Broker.httpsSubmitError e = .unavailable := by
  cases e <;> simp [Broker.httpsSubmitError]

/-- Prepared work is refused with other errors. -/
theorem submitPrepared_error {w : Surroundings} {b : Broker} (hhosted : Hosted b)
    (hhttps : b.https.isSome) {prepared : PreparedHttpOperation υ} {e : OperationSubmitError}
    (h : (b.submitPrepared w prepared).result = .error e) :
    e ≠ .invalidInput ∧ e ≠ .unavailable := by
  unfold Broker.submitPrepared Broker.reserveHttpsRate at h
  dsimp only at h
  split_ifs at h
  · cases h
    simp
  · obtain ⟨-,hinput,hclosed⟩ := submitAuthorizedOperation_error h
    refine ⟨hinput,fun he => ?_⟩
    obtain ⟨operations,hoperations,hnot⟩ := hclosed he (hhosted.bound hhttps)
    rw [hhosted.isOpen operations hoperations] at hnot
    cases hnot

/-- The guest can tell a failed preparation from what comes after a preparation. -/
theorem not_sameSubmission_of_failed (e : HttpServiceError) {b : Broker} (hhosted : Hosted b)
    (hhttps : b.https.isSome) {w : Surroundings} {request : Option CapabilityParams}
    {detail : String} {prepared : PreparedHttpOperation υ} :
    ¬SameSubmission (.error (Broker.httpsSubmitError e))
      (Broker.guarded (b.authorize .networkHttps request detail) .permissionDenied
        (b.submitPrepared w prepared)).result := by
  intro hsame
  unfold SameSubmission Broker.guarded at hsame
  cases hdecision : (b.authorize .networkHttps request detail).result with
  | error reason =>
    simp only [hdecision] at hsame
    rcases httpsSubmitError_cases e with he | he <;> rw [he] at hsame <;> cases hsame
  | ok _ =>
    simp only [hdecision, Outcome.after_result] at hsame
    cases hresult : (b.submitPrepared w prepared).result with
    | ok id =>
      rw [hresult] at hsame
      cases hsame
    | error error =>
      obtain ⟨hinput,havailable⟩ := submitPrepared_error hhosted hhttps hresult
      rw [hresult] at hsame
      rcases httpsSubmitError_cases e with he | he <;> rw [he] at hsame <;> cases error <;>
        first | exact absurd rfl hinput | exact absurd rfl havailable | cases hsame

theorem SameSetup.submitPrepared_audits {b b' : Broker} (h : SameSetup b b')
    {w w' : Surroundings} {prepared prepared' : PreparedHttpOperation υ}
    (hsame : SameSubmission (b.submitPrepared w prepared).result
      (b'.submitPrepared w' prepared').result) :
    auditsOf (b.submitPrepared w prepared).trace =
      auditsOf (b'.submitPrepared w' prepared').trace := by
  unfold Broker.submitPrepared Broker.reserveHttpsRate at hsame ⊢
  dsimp only at hsame ⊢
  have hdenied : ∀ (c : Broker) (timeout : ℕ),
      ¬SameSubmission (.error (.permissionDenied .quotaExceeded))
        (c.submitAuthorizedOperation .networkHttps timeout).result := by
    intro c timeout hsame
    unfold SameSubmission at hsame
    cases hresult : (c.submitAuthorizedOperation .networkHttps timeout).result with
    | ok id =>
      rw [hresult] at hsame
      cases hsame
    | error e =>
      have hother := (submitAuthorizedOperation_error hresult).1
      rw [hresult] at hsame
      cases e <;> first | exact absurd rfl (hother _) | cases hsame
  -- a spent budget looks to the guest like a missing permission, never like the registry's answer
  by_cases hspent : b.httpsRateMax ≤ (b.httpsRate.roll w.now).used <;>
    by_cases hspent' : b'.httpsRateMax ≤ (b'.httpsRate.roll w'.now).used
  · simp only [if_pos hspent, if_pos hspent', h.audit]
  · simp only [if_pos hspent, if_neg hspent'] at hsame
    exact absurd hsame (hdenied _ _)
  · simp only [if_neg hspent, if_pos hspent'] at hsame
    exact absurd hsame.symm (hdenied _ _)
  · simp only [if_neg hspent, if_neg hspent'] at hsame ⊢
    have hrolled : ∀ window window',
        SameSetup { b with httpsRate := window } { b' with httpsRate := window' } :=
      fun _ _ => ⟨h.grants,h.audit,h.https,h.owner⟩
    exact (hrolled _ _).submit_audits hsame

/-- Neither a credential nor the value of a query shows in the records of a submission. -/
theorem SameSetup.submitHttps_audits
    (hlib : ∀ url pairs, lib.origin (lib.appendPairs url pairs) = lib.origin url)
    {b b' : Broker} (h : SameSetup b b') (hb : Hosted b) (hb' : Hosted b') {w w' : Surroundings}
    {templateId : String} {connectionId : ConnectionId} {query query' : List QueryParam}
    (hsame : SameSubmission (b.submitHttps lib w templateId connectionId query).result
      (b'.submitHttps lib w' templateId connectionId query').result) :
    auditsOf (b.submitHttps lib w templateId connectionId query).trace =
      auditsOf (b'.submitHttps lib w' templateId connectionId query').trace := by
  have hhttps' := h.https
  unfold Broker.submitHttps at hsame ⊢
  cases hhttps : b.https with
  | none =>
    simp only [← hhttps', hhttps]
    unfold Broker.submitHttpsUnconfigured Broker.authorizeExistingGrant
    rw [← h.existingRequest]
    refine h.guarded_audits (fun _ _ => ?_)
    rw [h.audit]
  | some https =>
    have hbound : b.https.isSome := by simp [hhttps]
    have hbound' : b'.https.isSome := by rw [← hhttps']; exact hbound
    simp only [← hhttps', hhttps] at hsame ⊢
    cases hprepared : (https.prepare lib w.vault templateId connectionId query).result with
    | error e =>
      cases hprepared' : (https.prepare lib w'.vault templateId connectionId query').result with
      | error e' => simp
      | ok prepared' =>
        simp only [hprepared, hprepared', Outcome.after_result] at hsame
        exact absurd hsame (not_sameSubmission_of_failed e hb' hbound')
    | ok prepared =>
      cases hprepared' : (https.prepare lib w'.vault templateId connectionId query').result with
      | error e' =>
        simp only [hprepared, hprepared', Outcome.after_result] at hsame
        exact absurd hsame.symm (not_sameSubmission_of_failed e' hb hbound)
      | ok prepared' =>
        simp only [hprepared, hprepared', Outcome.after_result, Outcome.after_trace,
          auditsOf_append, auditsOf_effects, List.nil_append] at hsame ⊢
        rw [requestParams_of_prepare hlib hprepared hprepared'] at hsame ⊢
        refine h.guarded_audits (fun hresult hresult' => ?_)
        rw [hresult, hresult'] at hsame
        exact h.submitPrepared_audits hsame

end Https

/-- No operation ends between the lookup of its capability and its cancellation. -/
def CancelsInPlace (b : Broker) : BrokerCall → Prop
  | .cancelOperationById id meanwhile => ∀ c, b.runningCapability id = some c →
    (b.elapse meanwhile).runningCapability id = some c
  | _ => True

theorem cancelOperationById_of_not_running {b : Broker} {id : ℕ}
    (h : b.runningCapability id = none)
    (meanwhile : List (RegistryLabel ResultType OperationValue)) :
    ∃ e, b.cancelOperationById id meanwhile = ⟨.error e,b,[]⟩ ∧
      (e = .notActive ∨ e = .unavailable) := by
  unfold Broker.cancelOperationById
  unfold Broker.runningCapability at h
  cases hoperations : b.operations with
  | none => exact ⟨.unavailable,rfl,.inr rfl⟩
  | some operations =>
    rw [hoperations, Option.bind_some] at h
    simp only [h]
    exact ⟨.notActive,rfl,.inl rfl⟩

/-- The cancellation of a running operation. -/
theorem cancelOperationById_of_running {b : Broker} {id : ℕ} {c : CapabilityId}
    (h : b.runningCapability id = some c)
    {meanwhile : List (RegistryLabel ResultType OperationValue)}
    (hplace : CancelsInPlace b (.cancelOperationById id meanwhile)) :
    auditsOf (b.cancelOperationById id meanwhile).trace =
        auditsOf (b.authorizeExistingGrant c s!"operation={id} action=cancel").trace ∧
      ∀ e, (b.cancelOperationById id meanwhile).result = .error e →
        ∃ reason, e = .permissionDenied reason := by
  have hstill := hplace c h
  obtain ⟨operations,hoperations,hactive⟩ := Option.bind_eq_some_iff.mp h
  have hcall : b.cancelOperationById id meanwhile = (b.elapse meanwhile).cancelOperation c id := by
    unfold Broker.cancelOperationById Broker.elapse
    simp [hoperations, hactive]
  have hcheck : (b.elapse meanwhile).authorizeExistingGrant c s!"operation={id} action=cancel" =
      { b.authorizeExistingGrant c s!"operation={id} action=cancel" with
        state := b.elapse meanwhile } := rfl
  rw [hcall]
  unfold Broker.cancelOperation
  rw [hcheck]
  unfold Broker.guarded
  cases hdecision : (b.authorizeExistingGrant c s!"operation={id} action=cancel").result with
  | error reason =>
    refine ⟨rfl,fun e he => ?_⟩
    cases he
    exact ⟨reason,rfl⟩
  | ok _ =>
    obtain ⟨later,hlater,hrunning⟩ := Option.bind_eq_some_iff.mp hstill
    simp only [hlater]
    refine ⟨by simp [auditsOf],fun e he => ?_⟩
    exact absurd hrunning ((later.state.cancel_fails_iff c id).mp ⟨e,he⟩)

theorem Agrees.cancel_audits {b b' : Broker} (h : Agrees b b') {id : ℕ}
    {meanwhile meanwhile' : List (RegistryLabel ResultType OperationValue)}
    (hplace : CancelsInPlace b (.cancelOperationById id meanwhile))
    (hplace' : CancelsInPlace b' (.cancelOperationById id meanwhile'))
    (hsame : (b.cancelOperationById id meanwhile).result.mapError mapOperationCancel =
      (b'.cancelOperationById id meanwhile').result.mapError mapOperationCancel) :
    auditsOf (b.cancelOperationById id meanwhile).trace =
      auditsOf (b'.cancelOperationById id meanwhile').trace := by
  -- one host finds the operation and the other does not: the guest sees it
  have hfound : ∀ {b b' : Broker} {c : CapabilityId}
      {meanwhile meanwhile' : List (RegistryLabel ResultType OperationValue)},
      b.runningCapability id = none → b'.runningCapability id = some c →
      CancelsInPlace b' (.cancelOperationById id meanwhile') →
      (b.cancelOperationById id meanwhile).result.mapError mapOperationCancel ≠
        (b'.cancelOperationById id meanwhile').result.mapError mapOperationCancel := by
    intro b b' c meanwhile meanwhile' hnot hrunning hplace hsame
    obtain ⟨e,hcall,he⟩ := cancelOperationById_of_not_running hnot meanwhile
    have herror := (cancelOperationById_of_running hrunning hplace).2
    rw [hcall] at hsame
    cases hresult : (b'.cancelOperationById id meanwhile').result with
    | ok _ =>
      rw [hresult] at hsame
      cases hsame
    | error e' =>
      obtain ⟨reason,rfl⟩ := herror e' hresult
      rw [hresult] at hsame
      rcases he with rfl | rfl <;> cases hsame
  cases hrunning : b.runningCapability id with
  | none =>
    cases hrunning' : b'.runningCapability id with
    | none =>
      obtain ⟨e,hcall,-⟩ := cancelOperationById_of_not_running hrunning meanwhile
      obtain ⟨e',hcall',-⟩ := cancelOperationById_of_not_running hrunning' meanwhile'
      rw [hcall, hcall']
    | some c' => exact absurd hsame (hfound hrunning hrunning' hplace')
  | some c =>
    cases hrunning' : b'.runningCapability id with
    | none => exact absurd hsame.symm (hfound hrunning' hrunning hplace)
    | some c' =>
      obtain rfl := h.running id c c' hrunning hrunning'
      rw [(cancelOperationById_of_running hrunning hplace).1,
        (cancelOperationById_of_running hrunning' hplace').1]
      unfold Broker.authorizeExistingGrant
      rw [h.existingRequest]
      exact h.authorize_audits _ _ _

end Floatile.Runtime
