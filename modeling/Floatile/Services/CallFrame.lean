import Floatile.Services.Mediation
import Floatile.Services.OperationStep

/-! What the calls of a guest leave alone: the grants and services of the broker, and the jobs that
its registry carries. -/
namespace Floatile.Services

open Floatile.Core
open Floatile.Core.Capability Floatile.Core.Operation
open Floatile.Lib Floatile.Lib.Trace
open Floatile.Services.Operation

namespace Operation

variable {τ α : Type}

/-- The jobs on their way from a submission to the end of their task. -/
def Registry.carried (s : Registry τ α) : List OperationJob :=
  s.submissions.map Submission.job ++ s.jobs.queue ++ s.tasks.map Task.job

/-- Jobs are kept as they were drawn; a new job has an id that was not drawn before. -/
structure JobsKept (s s' : Registry τ α) : Prop where
  nextId : s.nextId ≤ s'.nextId
  jobs : ∀ job ∈ s'.carried, job ∈ s.carried ∨ s.nextId ≤ job.id ∧ job.id < s'.nextId

theorem JobsKept.refl (s : Registry τ α) : JobsKept s s := ⟨le_rfl,fun _ => .inl⟩

theorem JobsKept.trans {s t u : Registry τ α} (h : JobsKept s t) (h' : JobsKept t u) :
    JobsKept s u where
  nextId := h.nextId.trans h'.nextId
  jobs := by
    intro job hjob
    have hst := h.nextId
    have htu := h'.nextId
    rcases h'.jobs job hjob with hold | ⟨hle,hlt⟩
    · rcases h.jobs job hold with hold | ⟨hle,hlt⟩
      · exact .inl hold
      · exact .inr ⟨hle,by omega⟩
    · exact .inr ⟨by omega,hlt⟩

/-- A step that draws no id and carries no more jobs. -/
theorem JobsKept.of_subset {s s' : Registry τ α} (hnext : s'.nextId = s.nextId)
    (hjobs : ∀ job ∈ s'.carried, job ∈ s.carried) : JobsKept s s' :=
  ⟨hnext.ge,fun job hjob => .inl (hjobs job hjob)⟩

variable {owner : OperationOwner} {limits : OperationLimits}

theorem RegistryStep.jobsKept [DecidableEq τ] {s s' : Registry τ α} {i : RegistryLabel τ α}
    (h : RegistryStep owner limits s i s') : JobsKept s s' := by
  cases h with
  | tick => exact .of_subset rfl (fun _ hjob => hjob)
  | drawElsewhere hcounter => exact ⟨hcounter,fun _ => .inl⟩
  | draw hheld =>
    refine ⟨Nat.le_succ _,fun job hjob => ?_⟩
    simp only [Registry.carried, List.map_cons, List.cons_append, List.mem_cons] at hjob
    rcases hjob with rfl | hjob
    · exact .inr ⟨le_rfl,Nat.lt_succ_self _⟩
    · exact .inl hjob
  | refuse => exact .refl _
  | insertActive hsubmissions =>
    refine .of_subset rfl (fun job hjob => ?_)
    simpa [Registry.carried, hsubmissions] using hjob
  | enqueue hsubmissions hopen hjobs hjobsOpen =>
    refine .of_subset rfl (fun job hjob => ?_)
    simp only [Registry.carried, hsubmissions, hjobs, List.map_append, List.map_cons,
      List.mem_append, List.mem_cons, List.mem_map, List.not_mem_nil, or_false] at hjob ⊢
    rcases hjob with ((hjob | hjob) | hjob | hjob) | hjob
    · exact .inl (.inl (.inl hjob))
    · exact .inl (.inl (.inr (.inr hjob)))
    · exact .inl (.inr hjob)
    · exact .inl (.inl (.inr (.inl hjob)))
    · exact .inr hjob
  | reject hsubmissions =>
    refine .of_subset rfl (fun job hjob => ?_)
    simpa [Registry.carried, hsubmissions] using hjob
  | removeRejected hsubmissions =>
    refine .of_subset rfl (fun job hjob => ?_)
    simp only [Registry.carried, hsubmissions, List.map_append, List.map_cons, List.mem_append,
      List.mem_cons] at hjob ⊢
    tauto
  | cancel => exact .of_subset rfl (fun _ hjob => hjob)
  | cancelAll => exact .of_subset rfl (fun _ hjob => hjob)
  | dropRegistry hidle => exact .of_subset rfl (fun _ hjob => hjob)
  | acquirePermit hdispatcher hpermits => exact .of_subset rfl (fun _ hjob => hjob)
  | receiveJob hdispatcher hjobs hjobsOpen =>
    refine .of_subset rfl (fun job hjob => ?_)
    simp only [Registry.carried, hjobs, List.map_append, List.map_cons, List.map_nil,
      List.mem_append, List.mem_cons, List.not_mem_nil, or_false] at hjob ⊢
    tauto
  | endDispatch hdispatcher hjobs hheld =>
    refine .of_subset rfl (fun job hjob => ?_)
    simpa [Registry.carried, hjobs] using hjob
  | start htasks hphase =>
    refine .of_subset rfl (fun job hjob => ?_)
    simpa [Registry.carried, htasks] using hjob
  | observeCancel htasks =>
    refine .of_subset rfl (fun job hjob => ?_)
    simpa [Registry.carried, htasks] using hjob
  | poll htask hcancelled htasks =>
    refine .of_subset rfl (fun job hjob => ?_)
    simpa [Registry.carried, htasks] using hjob
  | settle htasks =>
    refine .of_subset rfl (fun job hjob => ?_)
    simpa [Registry.carried, htasks] using hjob
  | retain htasks hroom =>
    refine .of_subset rfl (fun job hjob => ?_)
    simpa [Registry.carried, htasks] using hjob
  | deactivate htasks =>
    refine .of_subset rfl (fun job hjob => ?_)
    simpa [Registry.carried, htasks] using hjob
  | send htasks hqueue hopen hcapacity =>
    refine .of_subset rfl (fun job hjob => ?_)
    simp only [Registry.carried, htasks, List.map_append, List.map_cons, List.mem_append,
      List.mem_cons] at hjob ⊢
    tauto
  | closed htasks hclosed =>
    refine .of_subset rfl (fun job hjob => ?_)
    simpa [Registry.carried, htasks] using hjob
  | dropUnsent htasks =>
    refine .of_subset rfl (fun job hjob => ?_)
    simp only [Registry.carried, htasks, List.map_append, List.map_cons, List.mem_append,
      List.mem_cons] at hjob ⊢
    tauto
  | takeFail => exact .refl _
  | take hresult => exact .of_subset rfl (fun _ hjob => hjob)
  | discard => exact .of_subset rfl (fun _ hjob => hjob)

/-- An accepted submission carries one more job, under the next id. -/
theorem Registry.submit_ok {s s' : Registry τ α} {capability : CapabilityId} {timeout id : ℕ}
    (h : s.submit limits capability timeout = (.ok id,s')) :
    id = s.nextId ∧ s'.now = s.now ∧ s.nextId < s'.nextId ∧
      ∀ job ∈ s'.carried, job ∈ s.carried ∨ job = ⟨s.nextId,capability,s.now + timeout⟩ := by
  unfold Registry.submit at h
  cases hdraw : s.draw limits capability timeout with
  | error e => simp [hdraw] at h
  | ok drawn =>
    have hnext : drawn.nextId = s.nextId + 1 := by
      unfold draw nextOperationId at hdraw
      split_ifs at hdraw
      · cases hdraw
      · cases hdraw
        rfl
    obtain ⟨counter,rfl⟩ := draw_eq_ok hdraw
    cases hsend : s.jobs.trySend ⟨s.nextId,capability,s.now + timeout⟩ with
    | error e => cases e <;> simp [hdraw, hsend] at h
    | ok jobs =>
      obtain ⟨-,hqueue,-,-⟩ := Channel.trySend_eq_ok hsend
      simp only [hdraw, hsend] at h
      cases h
      refine ⟨rfl,rfl,?_,fun job hjob => ?_⟩
      · change s.nextId < counter
        change counter = s.nextId + 1 at hnext
        omega
      · simp only [carried, hqueue, List.mem_append, List.mem_cons, List.not_mem_nil,
          or_false] at hjob ⊢
        tauto

theorem Registry.submit_jobsKept (s : Registry τ α) (capability : CapabilityId) (timeout : ℕ) :
    JobsKept s (s.submit limits capability timeout).2 := by
  unfold Registry.submit
  cases hdraw : s.draw limits capability timeout with
  | error e => exact .refl _
  | ok drawn =>
    obtain ⟨counter,rfl⟩ := draw_eq_ok hdraw
    have hnext : s.nextId < counter := by
      unfold draw nextOperationId at hdraw
      split_ifs at hdraw
      · cases hdraw
      · injection hdraw with hdrawn
        have hcounter := congrArg Registry.nextId hdrawn
        change s.nextId + 1 = counter at hcounter
        omega
    cases hsend : s.jobs.trySend ⟨s.nextId,capability,s.now + timeout⟩ with
    | error e =>
      cases e <;> simp only [hsend] <;> exact ⟨hnext.le,fun _ => .inl⟩
    | ok jobs =>
      obtain ⟨-,hqueue,-,-⟩ := Channel.trySend_eq_ok hsend
      simp only [hsend]
      refine ⟨hnext.le,fun job hjob => ?_⟩
      simp only [carried, hqueue, List.mem_append, List.mem_cons, List.not_mem_nil,
        or_false] at hjob ⊢
      rcases hjob with (hjob | hjob | rfl) | hjob
      · exact .inl (.inl (.inl hjob))
      · exact .inl (.inl (.inr hjob))
      · exact .inr ⟨le_rfl,hnext⟩
      · exact .inl (.inr hjob)

theorem Registry.cancel_jobsKept (s : Registry τ α) (capability : CapabilityId) (id : ℕ) :
    JobsKept s (s.cancel capability id).2 := by
  unfold cancel
  split
  · exact .refl _
  · split_ifs
    · exact .refl _
    · exact .of_subset rfl (fun _ hjob => hjob)

theorem Registry.take_jobsKept [DecidableEq τ] (s : Registry τ α) (capability : CapabilityId) (typeId : τ)
    (id : ℕ) : JobsKept s (s.take capability typeId id).2 := by
  rcases s.take_cases capability typeId id with ⟨e,htake⟩ | ⟨result,-,-,htake⟩
  · rw [htake]
    exact .refl _
  · rw [htake]
    exact .of_subset rfl (fun _ hjob => hjob)

end Operation

theorem OperationRegistry.elapse_jobsKept (operations : OperationRegistry)
    (labels : List (RegistryLabel ResultType OperationValue)) :
    JobsKept operations.state (operations.elapse labels).state := by
  obtain ⟨owner,limits,state⟩ := operations
  simp only [OperationRegistry.elapse]
  induction labels generalizing state with
  | nil => exact .refl _
  | cons label labels ih =>
    rw [List.foldl_cons]
    refine JobsKept.trans ?_ (ih _)
    cases hstep : Registry.step owner limits state label with
    | none => exact .refl _
    | some s' => exact (Registry.step_cases hstep).jobsKept

namespace Broker

/-- What a broker is made with stays, and its registry keeps its jobs. -/
structure Kept (b b' : Broker) : Prop where
  grants : b'.grants = b.grants
  audit : b'.audit = b.audit
  https : b'.https = b.https
  httpsRateMax : b'.httpsRateMax = b.httpsRateMax
  httpsRate : b.httpsRate.Before b'.httpsRate
  operations : ∀ operations', b'.operations = some operations' →
    ∃ operations, b.operations = some operations ∧ operations'.owner = operations.owner ∧
      operations'.limits = operations.limits ∧ JobsKept operations.state operations'.state

theorem Kept.refl (b : Broker) : b.Kept b :=
  ⟨rfl,rfl,rfl,rfl,.refl _,fun operations h => ⟨operations,h,rfl,rfl,.refl _⟩⟩

theorem Kept.trans {b c d : Broker} (h : b.Kept c) (h' : c.Kept d) : b.Kept d where
  grants := h'.grants.trans h.grants
  audit := h'.audit.trans h.audit
  https := h'.https.trans h.https
  httpsRateMax := h'.httpsRateMax.trans h.httpsRateMax
  httpsRate := h.httpsRate.trans h'.httpsRate
  operations := by
    intro last hlast
    obtain ⟨mid,hmid,howner',hlimits',hjobs'⟩ := h'.operations last hlast
    obtain ⟨first,hfirst,howner,hlimits,hjobs⟩ := h.operations mid hmid
    exact ⟨first,hfirst,howner'.trans howner,hlimits'.trans hlimits,hjobs.trans hjobs'⟩

/-- A broker whose registry has moved on. -/
theorem kept_of_state {b : Broker} {operations : OperationRegistry}
    {state : Registry ResultType OperationValue} (h : b.operations = some operations)
    (hjobs : JobsKept operations.state state) :
    b.Kept { b with operations := some { operations with state := state } } where
  grants := rfl
  audit := rfl
  https := rfl
  httpsRateMax := rfl
  httpsRate := .refl _
  operations := by
    rintro operations' ⟨⟩
    exact ⟨operations,h,rfl,rfl,hjobs⟩

theorem kept_elapse (b : Broker) (labels : List (RegistryLabel ResultType OperationValue)) :
    b.Kept (b.elapse labels) where
  grants := rfl
  audit := rfl
  https := rfl
  httpsRateMax := rfl
  httpsRate := .refl _
  operations := by
    intro operations' h
    obtain ⟨operations,hoperations,rfl⟩ := Option.map_eq_some_iff.mp h
    exact ⟨operations,hoperations,rfl,rfl,operations.elapse_jobsKept labels⟩

variable {ε α : Type}

/-- A permission check changes nothing. -/
theorem kept_guarded {b : Broker} {c : CapabilityId} {request : Option CapabilityParams}
    {detail : String} {deny : DenyReason → ε} {execute : BrokerResult Broker ε α}
    (h : b.Kept execute.state) :
    b.Kept (guarded (b.authorize c request detail) deny execute).state := by
  by_cases hallows : b.Allows c request
  · rw [authorize_of_allows b c request detail hallows]
    exact h
  · obtain ⟨reason,hreason⟩ := authorize_of_not_allows b c request detail hallows
    rw [hreason]
    exact .refl b

theorem kept_executed {σ : Type} {b : Broker} {c : CapabilityId}
    {request : Option CapabilityParams} {detail : String} {deny : DenyReason → ε}
    {o : Outcome σ ServiceEffect (Except ε α)} {put : σ → Broker} (h : ∀ x, b.Kept (put x)) :
    b.Kept (guarded (b.authorize c request detail) deny (executed o put)).state :=
  kept_guarded (h o.state)

theorem kept_submitAuthorizedOperation (b : Broker) (c : CapabilityId) (timeout : ℕ) :
    b.Kept (b.submitAuthorizedOperation c timeout).state := by
  have hrefuse : b.Kept (b.submitOrRefuse c timeout).state := by
    unfold submitOrRefuse
    cases hoperations : b.operations with
    | none => exact .refl b
    | some operations => exact kept_of_state hoperations (Registry.submit_jobsKept _ _ _)
  unfold submitAuthorizedOperation
  dsimp only
  split
  · exact hrefuse
  · exact hrefuse

theorem kept_submitOperation (b : Broker) (c : CapabilityId) (request : Option CapabilityParams)
    (timeout : ℕ) (detail : String) :
    b.Kept (b.submitOperation c request timeout detail).state :=
  kept_guarded (kept_submitAuthorizedOperation b c timeout)

theorem kept_takeOperationResult (b : Broker) (c : CapabilityId) (resultType : ResultType)
    (id : ℕ) : b.Kept (b.takeOperationResult c resultType id).state := by
  apply kept_guarded
  cases hoperations : b.operations with
  | none => exact .refl b
  | some operations => exact kept_of_state hoperations (Registry.take_jobsKept _ _ _ _)

theorem kept_cancelOperation (b : Broker) (c : CapabilityId) (id : ℕ) :
    b.Kept (b.cancelOperation c id).state := by
  apply kept_guarded
  cases hoperations : b.operations with
  | none => exact .refl b
  | some operations => exact kept_of_state hoperations (Registry.cancel_jobsKept _ _ _)

theorem kept_cancelOperationById (b : Broker) (id : ℕ)
    (meanwhile : List (RegistryLabel ResultType OperationValue)) :
    b.Kept (b.cancelOperationById id meanwhile).state := by
  unfold cancelOperationById
  cases hoperations : b.operations with
  | none => exact .refl b
  | some operations =>
    dsimp only
    cases operations.activeCapability id with
    | none => exact .refl b
    | some c =>
      have helapse := b.kept_elapse meanwhile
      simp only [elapse, hoperations, Option.map_some] at helapse
      exact helapse.trans (kept_cancelOperation _ c id)

theorem kept_submitPrepared {υ : Type} (w : Surroundings) (b : Broker)
    (prepared : PreparedHttpOperation υ) : b.Kept (b.submitPrepared w prepared).state := by
  have hwindow : ∀ window, b.httpsRate.Before window → b.Kept { b with httpsRate := window } := by
    intro window hbefore
    exact ⟨rfl,rfl,rfl,rfl,hbefore,fun operations h => ⟨operations,h,rfl,rfl,.refl _⟩⟩
  have hroll := b.httpsRate.before_roll w.now
  unfold submitPrepared reserveHttpsRate
  dsimp only
  split_ifs
  · exact hwindow _ hroll
  · exact (hwindow _ (hroll.trans (RateWindow.before_count _))).trans
      (kept_submitAuthorizedOperation _ _ _)

theorem kept_submitHttps {υ : Type} (lib : HttpLibrary υ) (w : Surroundings) (b : Broker)
    (templateId : String) (connectionId : ConnectionId) (query : List QueryParam) :
    b.Kept (b.submitHttps lib w templateId connectionId query).state := by
  unfold submitHttps
  cases b.https with
  | none => exact kept_guarded (.refl b)
  | some https =>
    dsimp only
    cases (https.prepare lib w.vault templateId connectionId query).result with
    | error e => exact .refl b
    | ok prepared => exact kept_guarded (kept_submitPrepared w b prepared)

/-- No call of a guest changes what the broker was made with. -/
theorem kept_call {υ : Type} (lib : HttpLibrary υ) (w : Surroundings) (b : Broker)
    (call : BrokerCall) : b.Kept (b.call lib w call).state := by
  have hops := (Kept.refl b).operations
  cases call with
  | updateState patchJson => exact .refl b
  | log level message =>
    change b.Kept (b.logMessage w level message).state
    refine kept_executed ?_
    exact fun _ => ⟨rfl,rfl,rfl,rfl,.refl _,hops⟩
  | clockNow => exact .refl b
  | timerSchedule delayMs =>
    change b.Kept (b.timerSchedule w delayMs).state
    refine kept_executed ?_
    exact fun _ => ⟨rfl,rfl,rfl,rfl,.refl _,hops⟩
  | timerCancel id =>
    change b.Kept (b.timerCancel id).state
    refine kept_executed ?_
    exact fun _ => ⟨rfl,rfl,rfl,rfl,.refl _,hops⟩
  | storageGet key =>
    change b.Kept (b.storageGet key).state
    refine kept_executed ?_
    exact fun _ => ⟨rfl,rfl,rfl,rfl,.refl _,hops⟩
  | storageSet key value =>
    change b.Kept (b.storageSet key value).state
    refine kept_executed ?_
    exact fun _ => ⟨rfl,rfl,rfl,rfl,.refl _,hops⟩
  | storageDelete key =>
    change b.Kept (b.storageDelete key).state
    refine kept_executed ?_
    exact fun _ => ⟨rfl,rfl,rfl,rfl,.refl _,hops⟩
  | submitStorageGet key timeout =>
    change b.Kept (b.submitStorageGet key timeout).state
    unfold submitStorageGet
    cases validKey key with
    | error e => exact .refl b
    | ok _ => exact kept_submitOperation b _ _ _ _
  | takeStorageGetResult id => exact kept_takeOperationResult b _ _ id
  | submitHttps templateId connectionId query =>
    exact kept_submitHttps lib w b templateId connectionId query
  | takeHttpsResult id => exact kept_takeOperationResult b _ _ id
  | cancelOperationById id meanwhile => exact kept_cancelOperationById b id meanwhile
  | metricsCpuPercent =>
    change b.Kept (b.metricsCpuPercent w).state
    refine kept_executed ?_
    exact fun _ => ⟨rfl,rfl,rfl,rfl,.refl _,hops⟩
  | metricsMemory =>
    change b.Kept (b.metricsMemory w).state
    refine kept_executed ?_
    exact fun _ => ⟨rfl,rfl,rfl,rfl,.refl _,hops⟩
  | themeGetToken name =>
    change b.Kept (b.themeGetToken name).state
    refine kept_executed ?_
    exact fun _ => ⟨rfl,rfl,rfl,rfl,.refl _,hops⟩
  | themeSubscribe =>
    change b.Kept (b.themeSubscribe).state
    refine kept_executed ?_
    exact fun _ => ⟨rfl,rfl,rfl,rfl,.refl _,hops⟩
  | themeUnsubscribe id =>
    change b.Kept (b.themeUnsubscribe id).state
    refine kept_executed ?_
    exact fun _ => ⟨rfl,rfl,rfl,rfl,.refl _,hops⟩

end Broker

end Floatile.Services
