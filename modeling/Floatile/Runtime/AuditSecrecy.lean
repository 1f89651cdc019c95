import Floatile.Runtime.AuditPair

/-! Two runs of a host that differ in secrets only leave the same audit records, as long as no
operation ends in the middle of its cancellation. -/
namespace Floatile.Runtime

open Floatile.Core
open Floatile.Core.Capability Floatile.Core.Operation
open Floatile.Lib Floatile.Lib.Trace
open Floatile.Services Floatile.Services.Operation

variable {υ : Type} {lib : HttpLibrary υ} {fromStr : String → Option Json}
  {toVec : Json → Option (List UInt8)}

theorem sameSubmission_of_outcome {o o' : BrokerResult Broker OperationSubmitError ℕ}
    (h : SameOutcome ((answer o .submit .operation).result.mapError hostError)
      ((answer o' .submit .operation).result.mapError hostError)) :
    SameSubmission o.result o'.result := by
  obtain ⟨result,_,_⟩ := o
  obtain ⟨result',_,_⟩ := o'
  unfold SameSubmission
  cases result with
  | ok id =>
    cases result' with
    | ok id' =>
      injection h with h
      injection h with h
      rw [h]
    | error e' => cases h
  | error e =>
    cases result' with
    | ok id' => cases h
    | error e' =>
      injection h with h
      injection h with h
      exact congrArg Except.error h

theorem sameCancel_of_outcome {o o' : BrokerResult Broker OperationCancelError Unit}
    (h : SameOutcome ((answer o .cancel (fun _ => .done)).result.mapError hostError)
      ((answer o' .cancel (fun _ => .done)).result.mapError hostError)) :
    o.result.mapError mapOperationCancel = o'.result.mapError mapOperationCancel := by
  obtain ⟨result,_,_⟩ := o
  obtain ⟨result',_,_⟩ := o'
  cases result with
  | ok _ =>
    cases result' with
    | ok _ => rfl
    | error e' => cases h
  | error e =>
    cases result' with
    | ok _ => cases h
    | error e' =>
      injection h with h
      injection h with h
      exact congrArg Except.error h

/-- The records of a call are the same on both brokers. -/
theorem Agrees.call_audits
    (hlib : ∀ url pairs, lib.origin (lib.appendPairs url pairs) = lib.origin url)
    {b b' : Broker} (h : Agrees b b') (hb : Hosted b) (hb' : Hosted b') {w w' : Surroundings}
    {call call' : BrokerCall} (hcall : SameCall call call') (hplace : CancelsInPlace b call)
    (hplace' : CancelsInPlace b' call')
    (hsame : SameOutcome ((b.call lib w call).result.mapError hostError)
      ((b'.call lib w' call').result.mapError hostError)) :
    auditsOf (b.call lib w call).trace = auditsOf (b'.call lib w' call').trace := by
  have hsetup := h.toSameSetup
  have htaken : ∀ (c : CapabilityId) (resultType : ResultType) (id : ℕ),
      auditsOf (b.takeOperationResult c resultType id).trace =
        auditsOf (b'.takeOperationResult c resultType id).trace := by
    intro c resultType id
    unfold Broker.takeOperationResult Broker.authorizeExistingGrant
    rw [h.existingRequest]
    refine hsetup.guarded_audits (fun _ _ => ?_)
    cases b.operations <;> cases b'.operations <;> rfl
  have hread : ∀ (key : String) (timeout : ℕ),
      SameSubmission (b.submitStorageGet key timeout).result
        (b'.submitStorageGet key timeout).result →
      auditsOf (b.submitStorageGet key timeout).trace =
        auditsOf (b'.submitStorageGet key timeout).trace := by
    intro key timeout hsubmission
    unfold Broker.submitStorageGet at hsubmission ⊢
    cases hkey : validKey key with
    | error e => rfl
    | ok _ =>
      simp only [hkey] at hsubmission ⊢
      unfold Broker.submitOperation at hsubmission ⊢
      refine hsetup.guarded_audits (fun hresult hresult' => ?_)
      rw [hresult, hresult'] at hsubmission
      exact hsetup.submit_audits hsubmission
  cases hcall with
  | same =>
    cases call with
    | updateState patchJson => exact hsetup.authorize_audits _ _ _
    | log level message =>
      simpa [Broker.call, answer, Broker.logMessage] using hsetup.authorize_audits _ _ _
    | clockNow => exact hsetup.authorize_audits _ _ _
    | timerSchedule delayMs =>
      simpa [Broker.call, answer, Broker.timerSchedule] using hsetup.authorize_audits _ _ _
    | timerCancel id =>
      simpa [Broker.call, answer, Broker.timerCancel] using hsetup.authorize_audits _ _ _
    | storageGet key =>
      simpa [Broker.call, answer, Broker.storageGet] using hsetup.authorize_audits _ _ _
    | storageSet key value =>
      simpa [Broker.call, answer, Broker.storageSet] using hsetup.authorize_audits _ _ _
    | storageDelete key =>
      simpa [Broker.call, answer, Broker.storageDelete] using hsetup.authorize_audits _ _ _
    | submitStorageGet key timeout => exact hread key timeout (sameSubmission_of_outcome hsame)
    | takeStorageGetResult id => exact htaken _ _ id
    | submitHttps templateId connectionId query =>
      exact hsetup.submitHttps_audits hlib hb hb' (sameSubmission_of_outcome hsame)
    | takeHttpsResult id => exact htaken _ _ id
    | cancelOperationById id meanwhile =>
      exact h.cancel_audits hplace hplace' (sameCancel_of_outcome hsame)
    | metricsCpuPercent =>
      simpa [Broker.call, answer, Broker.metricsCpuPercent] using hsetup.authorize_audits _ _ _
    | metricsMemory =>
      simpa [Broker.call, answer, Broker.metricsMemory] using hsetup.authorize_audits _ _ _
    | themeGetToken name =>
      simpa [Broker.call, answer, Broker.themeGetToken] using hsetup.authorize_audits _ _ _
    | themeSubscribe =>
      simpa [Broker.call, answer, Broker.themeSubscribe] using hsetup.authorize_audits _ _ _
    | themeUnsubscribe id =>
      simpa [Broker.call, answer, Broker.themeUnsubscribe] using hsetup.authorize_audits _ _ _
  | @updateState patchJson patchJson' hlength =>
    change auditsOf (b.authorizeUpdate patchJson).trace =
      auditsOf (b'.authorizeUpdate patchJson').trace
    unfold Broker.authorizeUpdate
    rw [hlength]
    exact hsetup.authorize_audits _ _ _
  | @log level message message' hlength =>
    change auditsOf (b.logMessage w level message).trace =
      auditsOf (b'.logMessage w' level message').trace
    unfold Broker.logMessage Broker.redactSize
    rw [hlength]
    simpa using hsetup.authorize_audits _ _ _
  | @storageSet key value value' hlength =>
    change auditsOf (b.storageSet key value).trace = auditsOf (b'.storageSet key value').trace
    unfold Broker.storageSet
    rw [hlength]
    simpa using hsetup.authorize_audits _ _ _
  | submitHttps templateId connectionId hquery =>
    exact hsetup.submitHttps_audits hlib hb hb' (sameSubmission_of_outcome hsame)
  | cancelOperationById id meanwhile meanwhile' =>
    exact h.cancel_audits hplace hplace' (sameCancel_of_outcome hsame)

/-- The record of an update of the State. -/
theorem updateState_event (host : InstanceHostState) (patchJson : String) (now : ℕ) :
    (updateState fromStr toVec host patchJson now).event =
      (authorize host.caps host.sink .uiUpdateState none
        s!"ui update-state patch={Text.byteLen patchJson}B").2 := by
  unfold updateState
  generalize authorize host.caps host.sink .uiUpdateState none
    s!"ui update-state patch={Text.byteLen patchJson}B" = decision
  obtain ⟨decision,event⟩ := decision
  cases decision with
  | error e => rfl
  | ok _ =>
    dsimp only
    split_ifs
    · rfl
    · split <;> rfl

/-- What the guest sees of two runs differs in secrets only. -/
inductive SameExchange : Exchange → Exchange → Prop where
  | called {call call' : BrokerCall} {r r' : Except HostError CallValue}
      (hcall : SameCall call call') (hresult : SameOutcome r r') :
      SameExchange (.called call r) (.called call' r')
  | completed (completion : OperationCompletion) (disposition : OperationCompletionDisposition)
      (recorded : Bool) :
      SameExchange (.completed completion disposition recorded)
        (.completed completion disposition recorded)
  | relayed (completion : OperationCompletion) (disposition : OperationCompletionDisposition) :
      SameExchange (.relayed completion disposition) (.relayed completion disposition)

/-- No step lets an operation end in the middle of its cancellation. -/
def HostAdapter.CancelsInPlace (s : HostAdapter) : AdapterLabel → Prop
  | .guest _ call => Runtime.CancelsInPlace s.broker (passedOn call)
  | _ => True

theorem SameCall.passedOn {call call' : BrokerCall} (h : SameCall call call') :
    SameCall (passedOn call) (passedOn call') := by
  cases h with
  | same => exact .same _
  | updateState hlength => exact .updateState hlength
  | log level hlength => exact .log level hlength
  | storageSet key hlength => exact .storageSet key hlength
  | submitHttps templateId connectionId hquery => exact .submitHttps templateId connectionId hquery
  | cancelOperationById id meanwhile meanwhile' => exact .cancelOperationById id _ _

theorem SameCall.namesNoOperation {call call' : BrokerCall} (h : SameCall call call') :
    namesNoOperation call = namesNoOperation call' := by
  cases h <;> rfl

@[simp] theorem submittedBy_mapError {ε ε' : Type} (f : ε → ε') (call : BrokerCall)
    (r : Except ε CallValue) : submittedBy call (r.mapError f) = submittedBy call r := by
  cases r with
  | error e => cases call <;> rfl
  | ok value => cases call <;> cases value <;> rfl

@[simp] theorem submittedBy_passedOn {ε : Type} (call : BrokerCall) (r : Except ε CallValue) :
    submittedBy (passedOn call) r = submittedBy call r := by
  cases r with
  | error e => cases call <;> rfl
  | ok value => cases call <;> cases value <;> rfl

/-- The same answer means that the same operation was submitted. -/
theorem submittedBy_eq {call call' : BrokerCall} (hcall : SameCall call call')
    {r r' : Except HostError CallValue} (h : SameOutcome r r') :
    submittedBy call r = submittedBy call' r' := by
  have hids : submittedBy call r = (r.toOption.bind operationIdOf).bind (fun id =>
      submittedBy (ε := HostError) call (.ok (.operation id))) := by
    cases r with
    | error e => cases call <;> rfl
    | ok value => cases value <;> first | rfl | (cases call <;> rfl)
  have hids' : submittedBy call' r' = (r'.toOption.bind operationIdOf).bind (fun id =>
      submittedBy (ε := HostError) call' (.ok (.operation id))) := by
    cases r' with
    | error e => cases call' <;> rfl
    | ok value => cases value <;> first | rfl | (cases call' <;> rfl)
  have hsame : r.toOption.bind operationIdOf = r'.toOption.bind operationIdOf := by
    unfold SameOutcome at h
    cases r <;> cases r' <;> first | rfl | exact Except.ok.inj h | cases h
  rw [hids, hids', hsame]
  cases hcall <;> rfl

namespace HostAdapter

variable (lib fromStr toVec) in
/-- What a call leaves of the broker. -/
theorem call_follows {s : HostAdapter} (hs : Hosted s.broker) (w : Surroundings)
    (call : BrokerCall) :
    s.broker.Kept (s.call lib fromStr toVec w call).state.broker ∧
      s.broker.Follows (submittedBy call (s.call lib fromStr toVec w call).result)
        (s.call lib fromStr toVec w call).state.broker := by
  have hvia : ∀ c, c = passedOn call →
      s.broker.Kept (s.viaBroker (s.broker.call lib w c)).state.broker ∧
        s.broker.Follows (submittedBy call (s.viaBroker (s.broker.call lib w c)).result)
          (s.viaBroker (s.broker.call lib w c)).state.broker := by
    rintro c rfl
    refine ⟨Broker.kept_call lib w s.broker _,?_⟩
    have hfollows := Broker.follows_call lib w hs.held (passedOn call) (by
      intro id meanwhile hcall l hl
      cases call <;> cases hcall
      simpa using (List.mem_filter.mp hl).2)
    simpa [viaBroker] using hfollows
  have hnone : ∀ (e : HostError), s.broker.Follows (submittedBy call (.error e)) s.broker := by
    intro e
    have hdrawn : submittedBy call (.error e : Except HostError CallValue) = none := by
      cases call <;> rfl
    rw [hdrawn]
    exact Broker.follows_of_eq rfl
  unfold HostAdapter.call
  split
  · exact ⟨.refl _,Broker.follows_of_eq rfl⟩
  · split_ifs
    · exact ⟨.refl _,hnone _⟩
    · exact hvia _ rfl

/-- The same call on two hosts leaves the same records. -/
theorem call_audits (hlib : ∀ url pairs, lib.origin (lib.appendPairs url pairs) = lib.origin url)
    {s t : HostAdapter} (h : Agrees s.broker t.broker) (hs : Hosted s.broker)
    (ht : Hosted t.broker) {w w' : Surroundings} {call call' : BrokerCall}
    (hcall : SameCall call call') (hplace : s.CancelsInPlace (.guest w call))
    (hplace' : t.CancelsInPlace (.guest w' call'))
    (hsame : SameOutcome (s.call lib fromStr toVec w call).result
      (t.call lib fromStr toVec w' call').result) :
    (s.call lib fromStr toVec w call).trace = (t.call lib fromStr toVec w' call').trace := by
  have hupdate : ∀ patchJson patchJson', Text.byteLen patchJson = Text.byteLen patchJson' →
      (s.call lib fromStr toVec w (.updateState patchJson)).trace =
        (t.call lib fromStr toVec w' (.updateState patchJson')).trace := by
    intro patchJson patchJson' hlength
    simp only [HostAdapter.call, updateState_event, updated, hlength, h.grants, h.audit]
  have hvia : (∀ patchJson, call ≠ .updateState patchJson) →
      (∀ patchJson, call' ≠ .updateState patchJson) →
      (s.call lib fromStr toVec w call).trace = (t.call lib fromStr toVec w' call').trace := by
    intro hother hother'
    have hcalled : s.call lib fromStr toVec w call =
        if namesNoOperation call then ⟨.error (.operation .invalidOperationId),s,[]⟩
        else s.viaBroker (s.broker.call lib w (passedOn call)) := by
      cases call <;> first | rfl | exact absurd rfl (hother _)
    have hcalled' : t.call lib fromStr toVec w' call' =
        if namesNoOperation call' then ⟨.error (.operation .invalidOperationId),t,[]⟩
        else t.viaBroker (t.broker.call lib w' (passedOn call')) := by
      cases call' <;> first | rfl | exact absurd rfl (hother' _)
    rw [hcalled, hcalled', ← hcall.namesNoOperation] at hsame
    rw [hcalled, hcalled', ← hcall.namesNoOperation]
    split_ifs at hsame ⊢
    · rfl
    · exact h.call_audits hlib hs ht hcall.passedOn hplace hplace' hsame
  cases hcall with
  | updateState hlength => exact hupdate _ _ hlength
  | same =>
    cases call with
    | updateState patchJson => exact hupdate _ _ rfl
    | _ => exact hvia (by simp) (by simp)
  | _ => exact hvia (by simp) (by simp)

/-- A step that the guest does not see leaves no record. -/
theorem step_silent {s : HostAdapter} {i : AdapterLabel}
    (h : (s.step lib fromStr toVec i).result = none) :
    (s.step lib fromStr toVec i).trace = [] ∧
      s.broker.Kept (s.step lib fromStr toVec i).state.broker ∧
      (Hosted s.broker →
        s.broker.Follows none (s.step lib fromStr toVec i).state.broker) := by
  cases i with
  | guest w call => cases h
  | timerCompleted id =>
    exact ⟨rfl,⟨rfl,rfl,rfl,rfl,.refl _,(Broker.Kept.refl s.broker).operations⟩,
      fun _ => Broker.follows_of_eq rfl⟩
  | task label =>
    unfold step
    dsimp only
    split_ifs with htask
    · refine ⟨rfl,s.broker.kept_elapse [label],fun hs => ?_⟩
      exact Broker.follows_elapse hs.held (by simpa using htask)
    · exact ⟨rfl,.refl _,fun _ => Broker.follows_of_eq rfl⟩
  | completed completion disposition => cases h
  | relayed completion disposition => cases h

/-- A step that the guest sees on both hosts. -/
theorem step_audits (hlib : ∀ url pairs, lib.origin (lib.appendPairs url pairs) = lib.origin url)
    {s t : HostAdapter} (h : Agrees s.broker t.broker) (hs : Hosted s.broker)
    (ht : Hosted t.broker) {i j : AdapterLabel} {x y : Exchange}
    (hx : (s.step lib fromStr toVec i).result = some x)
    (hy : (t.step lib fromStr toVec j).result = some y) (hsame : SameExchange x y)
    (hplace : s.CancelsInPlace i) (hplace' : t.CancelsInPlace j) :
    (s.step lib fromStr toVec i).trace = (t.step lib fromStr toVec j).trace ∧
      Agrees (s.step lib fromStr toVec i).state.broker (t.step lib fromStr toVec j).state.broker ∧
      Hosted (s.step lib fromStr toVec i).state.broker ∧
      Hosted (t.step lib fromStr toVec j).state.broker := by
  have hrecorded : ∀ (u : HostAdapter) completion disposition,
      (u.completed completion disposition).state = u := by
    intro u completion disposition
    unfold completed Broker.auditOperationCompletion
    cases u.broker.operations with
    | none => rfl
    | some operations =>
      dsimp only
      split_ifs <;> rfl
  cases i with
  | timerCompleted id => cases hx
  | task label => cases hx
  | guest w call =>
    cases hx
    cases j with
    | guest w' call' =>
      cases hy
      cases hsame with
      | called hcall hresult =>
        obtain ⟨hkept,hfollows⟩ := call_follows lib fromStr toVec hs w call
        obtain ⟨hkept',hfollows'⟩ := call_follows lib fromStr toVec ht w' call'
        refine ⟨call_audits hlib h hs ht hcall hplace hplace' hresult,?_,
          hs.follows hkept hfollows,ht.follows hkept' hfollows'⟩
        rw [← submittedBy_eq hcall hresult] at hfollows'
        exact h.follows hs ht hkept hkept' hfollows hfollows'
    | _ => cases hy <;> cases hsame
  | completed completion disposition =>
    simp only [step, Outcome.map_result, Option.some.injEq] at hx
    subst hx
    cases j with
    | completed completion' disposition' =>
      simp only [step, Outcome.map_result, Option.some.injEq] at hy
      subst hy
      obtain ⟨rfl,rfl⟩ : completion = completion' ∧ disposition = disposition' := by
        generalize (s.completed completion disposition).result = r at hsame
        generalize (t.completed completion' disposition').result = r' at hsame
        cases hsame
        exact ⟨rfl,rfl⟩
      simp only [step, Outcome.map_state, Outcome.map_trace, hrecorded]
      refine ⟨?_,h,hs,ht⟩
      have howner := h.owner
      simp only [completed, Broker.auditOperationCompletion]
      cases hops : s.broker.operations with
      | none =>
        rw [hops] at howner
        rw [Option.map_eq_none_iff.mp howner.symm]
      | some operations =>
        rw [hops] at howner
        obtain ⟨operations',hops',howner'⟩ := Option.map_eq_some_iff.mp howner.symm
        simp only [hops', howner', h.audit]
        split_ifs <;> rfl
    | _ => cases hy <;> cases hsame
  | relayed completion disposition =>
    cases hx
    cases j with
    | relayed completion' disposition' =>
      cases hy
      cases hsame
      refine ⟨?_,h,hs,ht⟩
      simp only [step, Outcome.map_trace, relayed, h.audit]
    | _ => cases hy <;> cases hsame

/-- A run that the guest does not see leaves no records. -/
theorem audits_of_silent {s : HostAdapter} {is : List AdapterLabel}
    (h : s.exchanges lib fromStr toVec is = []) : s.audits lib fromStr toVec is = [] := by
  induction is generalizing s with
  | nil => rfl
  | cons i is ih =>
    simp only [exchanges, List.append_eq_nil_iff, Option.toList_eq_nil_iff] at h
    simp only [audits, (step_silent h.1).1, List.nil_append, ih h.2]

/-- Hosts that agree leave the same records in two runs with the same calls. -/
theorem audits_eq_of_agrees
    (hlib : ∀ url pairs, lib.origin (lib.appendPairs url pairs) = lib.origin url)
    {s t : HostAdapter} {is js : List AdapterLabel} (h : Agrees s.broker t.broker)
    (hs : Hosted s.broker) (ht : Hosted t.broker)
    (hcalls : List.Forall₂ SameExchange (s.exchanges lib fromStr toVec is)
      (t.exchanges lib fromStr toVec js))
    (hplace : s.StepsMeet lib fromStr toVec CancelsInPlace is)
    (hplace' : t.StepsMeet lib fromStr toVec CancelsInPlace js) :
    s.audits lib fromStr toVec is = t.audits lib fromStr toVec js := by
  induction is generalizing s t js with
  | nil =>
    have hnone := List.forall₂_nil_left_iff.mp hcalls
    rw [audits_of_silent hnone]
    rfl
  | cons i is ih =>
    cases hi : (s.step lib fromStr toVec i).result with
    | none =>
      -- the first host goes on by itself
      obtain ⟨htrace,hkept,hfollows⟩ := step_silent hi
      simp only [exchanges, hi, Option.toList_none, List.nil_append] at hcalls
      simp only [audits, htrace, List.nil_append]
      exact ih (h.follows hs ht hkept (.refl _) (hfollows hs) (Broker.follows_of_eq rfl))
        (hs.follows hkept (hfollows hs)) ht hcalls hplace.2 hplace'
    | some x =>
      simp only [exchanges, hi, Option.toList_some, List.singleton_append] at hcalls
      -- the second host goes on until it answers the same call
      induction js generalizing t with
      | nil => cases hcalls
      | cons j js ihj =>
        cases hj : (t.step lib fromStr toVec j).result with
        | none =>
          obtain ⟨htrace,hkept,hfollows⟩ := step_silent hj
          simp only [exchanges, hj, Option.toList_none, List.nil_append] at hcalls
          rw [ihj (h.follows hs ht (.refl _) hkept (Broker.follows_of_eq rfl) (hfollows ht))
            (ht.follows hkept (hfollows ht)) hplace'.2 hcalls]
          simp only [audits, htrace, List.nil_append]
        | some y =>
          simp only [exchanges, hj, Option.toList_some, List.singleton_append,
            List.forall₂_cons] at hcalls
          obtain ⟨htrace,hafter,hs',ht'⟩ :=
            step_audits hlib h hs ht hi hj hcalls.1 hplace.1 hplace'.1
          simp only [audits, htrace, ih hafter hs' ht' hcalls.2 hplace.2 hplace'.2]

/-- A broker as it is handed to a new host: its registry is new, and there is one wherever there
are templates. -/
structure Opened (b : Broker) : Prop where
  bound : b.https.isSome → b.operations.isSome
  fresh : ∀ operations ∈ b.operations, ∃ now counter,
    Registry.new operations.limits now counter = .ok operations.state

theorem Opened.hosted {b : Broker} (h : Opened b) :
    Hosted b ∧ ∀ id, b.runningCapability id = none := by
  have hnew : ∀ operations ∈ b.operations, operations.state.held = true ∧
      operations.state.jobs.isOpen = true ∧ ∀ id, operations.state.active.get id = none := by
    intro operations hoperations
    obtain ⟨now,counter,hstate⟩ := h.fresh operations hoperations
    obtain ⟨limits,-,hstate⟩ := Checked.bind_eq_ok.mp hstate
    rw [← Except.ok.inj hstate]
    exact ⟨rfl,rfl,fun _ => rfl⟩
  refine ⟨⟨h.bound,fun o ho => (hnew o ho).1,fun o ho => (hnew o ho).2.1,?_⟩,fun id => ?_⟩
  · intro operations hoperations id operation hactive
    rw [(hnew operations hoperations).2.2] at hactive
    cases hactive
  · unfold Broker.runningCapability
    cases hoperations : b.operations with
    | none => rfl
    | some operations =>
      simp [OperationRegistry.activeCapability, (hnew operations hoperations).2.2]

/-- Two runs of a new host in which the guest makes the same calls, up to secrets, and gets the
same answers leave the same audit records, if no operation ends in the middle of its
cancellation. -/
theorem audits_eq (hlib : ∀ url pairs, lib.origin (lib.appendPairs url pairs) = lib.origin url)
    {s t : HostAdapter} (hsetup : SameSetup s.broker t.broker) (hs : Opened s.broker)
    (ht : Opened t.broker) {is js : List AdapterLabel}
    (hcalls : List.Forall₂ SameExchange (s.exchanges lib fromStr toVec is)
      (t.exchanges lib fromStr toVec js))
    (hplace : s.StepsMeet lib fromStr toVec CancelsInPlace is)
    (hplace' : t.StepsMeet lib fromStr toVec CancelsInPlace js) :
    s.audits lib fromStr toVec is = t.audits lib fromStr toVec js := by
  obtain ⟨hhosted,hnone⟩ := hs.hosted
  have hagrees : Agrees s.broker t.broker := by
    refine ⟨hsetup,fun id c c' hrunning => ?_⟩
    rw [hnone] at hrunning
    cases hrunning
  exact audits_eq_of_agrees hlib hagrees hhosted ht.hosted.1 hcalls hplace hplace'

end HostAdapter

/-- Header values have visible characters and tabs. -/
def headerBytes (value : List UInt8) : Option (List UInt8) :=
  if value.all (fun byte => byte = 9 ∨ (32 ≤ byte ∧ byte ≠ 127)) then some value else none

def headerUrls : HttpLibrary TextUrl := { textUrls with headerValue := headerBytes }

/-- Surroundings whose vault holds this credential. -/
def lending (secret : List UInt8) : Surroundings := ⟨0,0,none,⟨fun _ => .ok secret⟩⟩

def balanceRegistry : OperationRegistry where
  owner := ⟨"dev.floatile.clock",7,0⟩
  limits := OperationLimits.default
  state := (Registry.new OperationLimits.default 0 1).toOption.get rfl

/-- A host of an instance that may request its balance. -/
def balanceHost (registry : Option OperationRegistry) : HostAdapter where
  broker :=
    let setup := balanceSetup balanceUrl 0
    let broker := Broker.new setup.plugin setup.generation setup.grants setup.audit 0
    { broker.withHttps setup.service with operations := registry }
  ui := newInstance.host.ui

theorem opened_balanceHost : HostAdapter.Opened (balanceHost (some balanceRegistry)).broker where
  bound _ := rfl
  fresh := by
    rintro operations ⟨⟩
    exact ⟨0,1,rfl⟩

section

variable (s : HostAdapter) (is : List AdapterLabel)

abbrev balanceExchanges : List Exchange :=
  s.exchanges headerUrls parseEmptyObject writeEmptyObject is

abbrev balanceAudits : List AuditEvent :=
  s.audits headerUrls parseEmptyObject writeEmptyObject is

end

/-- A message, a request and its cancellation, while the tasks of the registry go on. -/
def cancelledRequest (w : Surroundings) (message account : String)
    (tasks : List AdapterLabel) : List AdapterLabel :=
  [.guest w (.log .info message),.guest w (.submitHttps "balance" ⟨1⟩ [⟨"account",account⟩])] ++
    tasks ++ [.guest w (.cancelOperationById 1 [.tick])]

theorem balance_audits_eq :
    let s := balanceHost (some balanceRegistry)
    let paid := cancelledRequest (lending [115,51]) "paid" "7" [.task .acquirePermit]
    let owed := cancelledRequest (lending [120,49]) "owed" "8" [.task .tick,.timerCompleted 3]
    (balanceAudits s paid).length = 3 ∧ balanceAudits s paid = balanceAudits s owed := by
  refine ⟨by decide +kernel,HostAdapter.audits_eq (fun _ _ => rfl) (.refl _) opened_balanceHost
    opened_balanceHost ?_ ?_ ?_⟩
  · exact .cons (.called (.log .info (by decide)) (by decide +kernel))
      (.cons (.called (.submitHttps "balance" ⟨1⟩ (.cons ⟨rfl,by decide⟩ .nil))
          (by decide +kernel))
        (.cons (.called (.cancelOperationById 1 [.tick] [.tick]) (by decide +kernel)) .nil))
  · exact ⟨trivial,trivial,trivial,fun _ h => h,trivial⟩
  · exact ⟨trivial,trivial,trivial,trivial,fun _ h => h,trivial⟩

/-- One request of the guest. -/
def oneRequest (secret : List UInt8) : List AdapterLabel :=
  [.guest (lending secret) (.submitHttps "balance" ⟨1⟩ [⟨"account","7"⟩])]

/-- A request whose operation ends before it is cancelled or, with the last step of its task
inside the cancellation, between the lookup and the cancellation. -/
def endedRequest (before inside : List (RegistryLabel ResultType OperationValue)) :
    List AdapterLabel :=
  oneRequest [115,51] ++ [.task .acquirePermit,.task .receiveJob,.task (.run 0 none),
      .task (.run 0 (some (.error .unavailable))),.task (.run 0 none)] ++
    before.map .task ++ [.guest (lending [115,51]) (.cancelOperationById 1 inside)]

/-- Without a registry the records tell a credential that can be sent from one that cannot. With
one, they tell whether an operation ended before or after its lookup. -/
theorem balance_audits_differ :
    (List.Forall₂ SameExchange (balanceExchanges (balanceHost none) (oneRequest [115,51]))
        (balanceExchanges (balanceHost none) (oneRequest [115,10])) ∧
      balanceAudits (balanceHost none) (oneRequest [115,51]) ≠
        balanceAudits (balanceHost none) (oneRequest [115,10])) ∧
    (List.Forall₂ SameExchange
        (balanceExchanges (balanceHost (some balanceRegistry)) (endedRequest [.run 0 none] []))
        (balanceExchanges (balanceHost (some balanceRegistry)) (endedRequest [] [.run 0 none])) ∧
      balanceAudits (balanceHost (some balanceRegistry)) (endedRequest [.run 0 none] []) ≠
        balanceAudits (balanceHost (some balanceRegistry)) (endedRequest [] [.run 0 none])) := by
  refine ⟨⟨?_,by decide +kernel⟩,?_,by decide +kernel⟩
  · exact .cons (.called (.same _) (by decide +kernel)) .nil
  · exact .cons (.called (.same _) (by decide +kernel))
      (.cons (.called (.cancelOperationById 1 _ _) (by decide +kernel)) .nil)

end Floatile.Runtime
