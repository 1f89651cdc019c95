import Floatile.Services.CallFrame
import Mathlib.Data.List.Forall2

/-! Which operations a registry lists as active after a call or a step of its tasks: the earlier
ones that have not ended, and the one that the call has submitted. -/
namespace Floatile.Services

open Floatile.Core
open Floatile.Core.Capability Floatile.Core.Operation
open Floatile.Lib Floatile.Lib.Trace
open Floatile.Services.Operation

/-- The steps that the tasks of a registry take by themselves. -/
def ByTask : RegistryLabel ResultType OperationValue → Prop
  | .tick | .drawElsewhere | .acquirePermit | .receiveJob | .run _ _ | .discard _ => True
  | _ => False

instance : DecidablePred ByTask := by
  intro label
  unfold ByTask
  split <;> infer_instance

namespace Operation

variable {τ α : Type}

/-- The active operations are earlier ones, or the one that was drawn. -/
structure Registry.Follows (drawn : Option (ℕ × CapabilityId)) (s s' : Registry τ α) : Prop where
  nextId : s.nextId ≤ s'.nextId
  held : s'.held = s.held
  isOpen : s.held = true → s'.jobs.isOpen = s.jobs.isOpen
  active : ∀ id operation, s'.active.get id = some operation →
    s.active.get id = some operation ∨ drawn = some (id,operation.capability)
  isNext : ∀ p ∈ drawn, p.1 = s.nextId ∧ p.1 < s'.nextId

namespace Registry

theorem Follows.refl (s : Registry τ α) : Follows none s s :=
  ⟨le_rfl,rfl,fun _ => rfl,fun _ _ => .inl,by simp⟩

theorem Follows.trans {s t u : Registry τ α} (h : Follows none s t) (h' : Follows none t u) :
    Follows none s u where
  nextId := h.nextId.trans h'.nextId
  held := h'.held.trans h.held
  isOpen hheld := (h'.isOpen (h.held.trans hheld)).trans (h.isOpen hheld)
  active := by
    intro id operation hactive
    rcases h'.active id operation hactive with hmid | hdrawn
    · exact h.active id operation hmid
    · cases hdrawn
  isNext := by simp

/-- Operations may end. -/
theorem follows_of_active {s s' : Registry τ α} (hnext : s'.nextId = s.nextId)
    (hheld : s'.held = s.held) (hopen : s'.jobs.isOpen = s.jobs.isOpen)
    (hactive : ∀ id operation, s'.active.get id = some operation →
      s.active.get id = some operation) : Follows none s s' :=
  ⟨hnext.ge,hheld,fun _ => hopen,fun id operation h => .inl (hactive id operation h),by simp⟩

theorem active_of_erase {s : Registry τ α} {id i : ℕ} {operation : ActiveOperation}
    (h : (s.active.erase id).get i = some operation) : s.active.get i = some operation := by
  rw [OrdMap.get_erase] at h
  split_ifs at h
  exact h

end Registry

variable {owner : OperationOwner} {limits : OperationLimits}

theorem RegistryStep.follows {s s' : Registry ResultType OperationValue}
    {i : RegistryLabel ResultType OperationValue} (h : RegistryStep owner limits s i s')
    (hi : ByTask i) (hheld : s.held = true) : Registry.Follows none s s' := by
  have hsame : ∀ id operation, s.active.get id = some operation →
      s.active.get id = some operation := fun _ _ => id
  cases h with
  | tick => exact Registry.follows_of_active rfl rfl rfl hsame
  | drawElsewhere hcounter => exact ⟨hcounter,rfl,fun _ => rfl,fun _ _ => .inl,by simp⟩
  | acquirePermit hdispatcher hpermits => exact Registry.follows_of_active rfl rfl rfl hsame
  | receiveJob hdispatcher hjobs hjobsOpen => exact Registry.follows_of_active rfl rfl hjobsOpen hsame
  | endDispatch hdispatcher hjobs hdropped =>
    rw [hheld] at hdropped
    cases hdropped
  | deactivate htasks =>
    exact Registry.follows_of_active rfl rfl rfl (fun _ _ => Registry.active_of_erase)
  | start | observeCancel | poll | settle | retain | send | closed | dropUnsent =>
    exact Registry.follows_of_active rfl rfl rfl hsame
  | discard => exact Registry.follows_of_active rfl rfl rfl hsame
  | draw | refuse | insertActive | enqueue | reject | removeRejected | cancel | cancelAll
  | dropRegistry | takeFail | take => cases hi

theorem Registry.cancel_follows (s : Registry τ α) (capability : CapabilityId) (id : ℕ) :
    Registry.Follows none s (s.cancel capability id).2 := by
  unfold cancel
  split
  · exact .refl s
  · split_ifs
    · exact .refl s
    · exact Registry.follows_of_active rfl rfl rfl (fun _ _ h => h)

theorem Registry.take_follows [DecidableEq τ] (s : Registry τ α) (capability : CapabilityId)
    (typeId : τ) (id : ℕ) : Registry.Follows none s (s.take capability typeId id).2 := by
  rcases s.take_cases capability typeId id with ⟨e,htake⟩ | ⟨result,-,-,htake⟩
  · rw [htake]
    exact .refl s
  · rw [htake]
    exact Registry.follows_of_active rfl rfl rfl (fun _ _ h => h)

/-- A submission that is not accepted takes its operation back. -/
theorem Registry.submit_follows (s : Registry τ α) (capability : CapabilityId) (timeout : ℕ) :
    Registry.Follows ((s.submit limits capability timeout).1.toOption.map (fun id => (id,capability))) s
      (s.submit limits capability timeout).2 := by
  unfold submit
  cases hdraw : s.draw limits capability timeout with
  | error e => exact .refl s
  | ok drawn =>
    have hnext : drawn.nextId = s.nextId + 1 := by
      unfold draw nextOperationId at hdraw
      split_ifs at hdraw
      · cases hdraw
      · cases hdraw
        rfl
    obtain ⟨counter,rfl⟩ := draw_eq_ok hdraw
    change counter = s.nextId + 1 at hnext
    have hrejected : ∀ id operation,
        ((s.active.insert s.nextId ⟨capability⟩).erase s.nextId).get id = some operation →
          s.active.get id = some operation := by
      intro id operation h
      rw [OrdMap.get_erase] at h
      split_ifs at h with hid
      rwa [OrdMap.get_insert_of_ne _ hid] at h
    cases hsend : s.jobs.trySend ⟨s.nextId,capability,s.now + timeout⟩ with
    | error e =>
      cases e <;> simp only [hsend] <;>
        exact ⟨by simp [hnext],rfl,fun _ => rfl,fun id operation h => .inl (hrejected id operation h),
          by simp [Except.toOption]⟩
    | ok jobs =>
      obtain ⟨-,-,hopen,-⟩ := Channel.trySend_eq_ok hsend
      simp only [hsend]
      refine ⟨by simp [hnext],rfl,fun _ => hopen,?_,?_⟩
      · intro id operation h
        rw [OrdMap.get_insert] at h
        split_ifs at h with hid
        · cases h
          exact .inr (by simp [hid])
        · exact .inl h
      · intro p hp
        obtain rfl : (s.nextId,capability) = p := by simpa using hp
        exact ⟨rfl,by simp [hnext]⟩

end Operation

/-- The same for a bound registry. -/
def OperationRegistry.Follows (drawn : Option (ℕ × CapabilityId)) (r r' : OperationRegistry) :
    Prop := r'.owner = r.owner ∧ Registry.Follows drawn r.state r'.state

theorem OperationRegistry.elapse_follows (operations : OperationRegistry)
    {labels : List (RegistryLabel ResultType OperationValue)} (hlabels : ∀ l ∈ labels, ByTask l)
    (hheld : operations.state.held = true) :
    operations.Follows none (operations.elapse labels) := by
  obtain ⟨owner,limits,state⟩ := operations
  refine ⟨rfl,?_⟩
  simp only [OperationRegistry.elapse]
  induction labels generalizing state with
  | nil => exact .refl _
  | cons label labels ih =>
    rw [List.forall_mem_cons] at hlabels
    rw [List.foldl_cons]
    have hfirst : Registry.Follows none state
        ((Registry.step owner limits state label).getD state) := by
      cases hstep : Registry.step owner limits state label with
      | none => exact .refl _
      | some s' => exact (Registry.step_cases hstep).follows hlabels.1 hheld
    exact hfirst.trans (ih hlabels.2 _ (hfirst.held.trans hheld))

/-- The operation that a call has submitted. -/
def submittedBy {ε : Type} : BrokerCall → Except ε CallValue → Option (ℕ × CapabilityId)
  | .submitStorageGet _ _, .ok (.operation id) => some (id,.storageRead)
  | .submitHttps _ _ _, .ok (.operation id) => some (id,.networkHttps)
  | _, _ => none

namespace Broker

/-- The registry of a broker follows another, or there is none. -/
def Follows (drawn : Option (ℕ × CapabilityId)) (b b' : Broker) : Prop :=
  Option.Rel (OperationRegistry.Follows drawn) b.operations b'.operations

theorem follows_of_eq {b b' : Broker} (h : b'.operations = b.operations) : b.Follows none b' := by
  unfold Follows
  rw [h]
  cases b.operations with
  | none => exact .none
  | some operations => exact .some ⟨rfl,.refl _⟩

theorem follows_of_state {b b' : Broker} {drawn : Option (ℕ × CapabilityId)}
    {operations : OperationRegistry} {state : Registry ResultType OperationValue}
    (h : b.operations = some operations)
    (h' : b'.operations = some { operations with state := state })
    (hstate : Registry.Follows drawn operations.state state) : b.Follows drawn b' := by
  unfold Follows
  rw [h, h']
  exact .some ⟨rfl,hstate⟩

theorem Follows.trans {b c d : Broker} (h : b.Follows none c) (h' : c.Follows none d) :
    b.Follows none d := by
  unfold Follows at h h' ⊢
  generalize b.operations = first at h ⊢
  generalize c.operations = mid at h h'
  generalize d.operations = last at h' ⊢
  cases h with
  | none => exact h'
  | some hfirst =>
    cases h' with
    | some hlast => exact .some ⟨hlast.1.trans hfirst.1,hfirst.2.trans hlast.2⟩

/-- The registry is in use. -/
def Held (b : Broker) : Prop := ∀ operations ∈ b.operations, operations.state.held = true

theorem follows_elapse {b : Broker} (hheld : b.Held)
    {labels : List (RegistryLabel ResultType OperationValue)} (hlabels : ∀ l ∈ labels, ByTask l) :
    b.Follows none (b.elapse labels) := by
  unfold Follows elapse
  cases hoperations : b.operations with
  | none => exact .none
  | some operations =>
    exact .some (operations.elapse_follows hlabels (hheld operations hoperations))

variable {ε α : Type}

theorem follows_guarded {b : Broker} {c : CapabilityId} {request : Option CapabilityParams}
    {detail : String} {deny : DenyReason → ε} {execute : BrokerResult Broker ε α}
    (h : b.Follows none execute.state) :
    b.Follows none (guarded (b.authorize c request detail) deny execute).state := by
  by_cases hallows : b.Allows c request
  · rw [authorize_of_allows b c request detail hallows]
    exact h
  · obtain ⟨reason,hreason⟩ := authorize_of_not_allows b c request detail hallows
    rw [hreason]
    exact follows_of_eq rfl

theorem follows_executed {σ : Type} {b : Broker} {c : CapabilityId}
    {request : Option CapabilityParams} {detail : String} {deny : DenyReason → ε}
    {o : Outcome σ ServiceEffect (Except ε α)} {put : σ → Broker}
    (h : ∀ x, (put x).operations = b.operations) :
    b.Follows none (guarded (b.authorize c request detail) deny (executed o put)).state :=
  follows_guarded (follows_of_eq (h o.state))

/-- The id of a submission that was accepted. -/
def drawnAs (c : CapabilityId) (result : Except ε ℕ) : Option (ℕ × CapabilityId) :=
  result.toOption.map (fun id => (id,c))

@[simp] theorem drawnAs_error (c : CapabilityId) (e : ε) :
    drawnAs c (.error e : Except ε ℕ) = none := rfl

theorem follows_submitAuthorizedOperation (b : Broker) (c : CapabilityId) (timeout : ℕ) :
    b.Follows (drawnAs c (b.submitAuthorizedOperation c timeout).result)
      (b.submitAuthorizedOperation c timeout).state := by
  have hrefuse : b.Follows (drawnAs c (b.submitOrRefuse c timeout).result)
      (b.submitOrRefuse c timeout).state := by
    unfold submitOrRefuse
    cases hoperations : b.operations with
    | none => exact follows_of_eq rfl
    | some operations =>
      exact follows_of_state hoperations rfl (Registry.submit_follows operations.state c timeout)
  unfold submitAuthorizedOperation
  dsimp only
  split
  · exact hrefuse
  · exact hrefuse

/-- A submission behind a permission check. -/
theorem follows_guarded_submit {b : Broker} {c c' : CapabilityId}
    {request : Option CapabilityParams} {detail : String}
    {execute : BrokerResult Broker OperationSubmitError ℕ}
    (h : b.Follows (drawnAs c' execute.result) execute.state) :
    b.Follows (drawnAs c' (guarded (b.authorize c request detail) OperationSubmitError.permissionDenied
        execute).result)
      (guarded (b.authorize c request detail) OperationSubmitError.permissionDenied execute).state := by
  by_cases hallows : b.Allows c request
  · rw [authorize_of_allows b c request detail hallows]
    exact h
  · obtain ⟨reason,hreason⟩ := authorize_of_not_allows b c request detail hallows
    rw [hreason]
    exact follows_of_eq rfl

theorem follows_submitStorageGet (b : Broker) (key : String) (timeout : ℕ) :
    b.Follows (drawnAs .storageRead (b.submitStorageGet key timeout).result)
      (b.submitStorageGet key timeout).state := by
  unfold submitStorageGet
  cases validKey key with
  | error e => exact follows_of_eq rfl
  | ok _ => exact follows_guarded_submit (follows_submitAuthorizedOperation b _ _)

theorem follows_submitPrepared {υ : Type} (w : Surroundings) (b : Broker)
    (prepared : PreparedHttpOperation υ) :
    b.Follows (drawnAs .networkHttps (b.submitPrepared w prepared).result)
      (b.submitPrepared w prepared).state := by
  unfold submitPrepared reserveHttpsRate
  dsimp only
  split_ifs
  · exact follows_of_eq rfl
  · exact follows_submitAuthorizedOperation { b with httpsRate := (b.httpsRate.roll w.now).count }
      .networkHttps prepared.timeout

theorem follows_submitHttps {υ : Type} (lib : HttpLibrary υ) (w : Surroundings) (b : Broker)
    (templateId : String) (connectionId : ConnectionId) (query : List QueryParam) :
    b.Follows (drawnAs .networkHttps (b.submitHttps lib w templateId connectionId query).result)
      (b.submitHttps lib w templateId connectionId query).state := by
  unfold submitHttps
  cases b.https with
  | none =>
    unfold submitHttpsUnconfigured authorizeExistingGrant
    exact follows_guarded_submit (follows_of_eq rfl)
  | some https =>
    dsimp only
    cases (https.prepare lib w.vault templateId connectionId query).result with
    | error e => exact follows_of_eq rfl
    | ok prepared => exact follows_guarded_submit (follows_submitPrepared w b prepared)

theorem follows_takeOperationResult (b : Broker) (c : CapabilityId) (resultType : ResultType)
    (id : ℕ) : b.Follows none (b.takeOperationResult c resultType id).state := by
  apply follows_guarded
  cases hoperations : b.operations with
  | none => exact follows_of_eq rfl
  | some operations => exact follows_of_state hoperations rfl (Registry.take_follows _ _ _ _)

theorem follows_cancelOperationById {b : Broker} (hheld : b.Held) (id : ℕ)
    {meanwhile : List (RegistryLabel ResultType OperationValue)}
    (hmeanwhile : ∀ l ∈ meanwhile, ByTask l) :
    b.Follows none (b.cancelOperationById id meanwhile).state := by
  unfold cancelOperationById
  cases hoperations : b.operations with
  | none => exact follows_of_eq rfl
  | some operations =>
    dsimp only
    cases operations.activeCapability id with
    | none => exact follows_of_eq rfl
    | some c =>
      have helapse := follows_elapse hheld hmeanwhile
      simp only [elapse, hoperations, Option.map_some] at helapse
      refine helapse.trans ?_
      exact follows_guarded (follows_of_state rfl rfl (Registry.cancel_follows _ _ _))

/-- After a call, the active operations are earlier ones and the one that it has submitted. -/
theorem follows_call {υ : Type} (lib : HttpLibrary υ) (w : Surroundings) {b : Broker}
    (hheld : b.Held) (call : BrokerCall)
    (hcall : ∀ id meanwhile, call = .cancelOperationById id meanwhile →
      ∀ l ∈ meanwhile, ByTask l) :
    b.Follows (submittedBy call (b.call lib w call).result) (b.call lib w call).state := by
  have hsubmitted : ∀ (c : CapabilityId) (o : BrokerResult Broker OperationSubmitError ℕ),
      ∀ call, (∀ (id : ℕ), submittedBy (ε := CallError) call (.ok (.operation id)) = some (id,c)) →
        b.Follows (drawnAs c o.result) o.state →
        b.Follows (submittedBy call (answer o .submit .operation).result)
          (answer o .submit .operation).state := by
    rintro c ⟨result,state,trace⟩ call hcall h
    cases result with
    | error e => cases call <;> exact h
    | ok id =>
      change b.Follows (submittedBy call (.ok (.operation id))) state
      rw [hcall]
      exact h
  cases call with
  | updateState patchJson => exact follows_of_eq rfl
  | log level message => exact follows_executed (fun _ => rfl)
  | clockNow => exact follows_of_eq rfl
  | timerSchedule delayMs => exact follows_executed (fun _ => rfl)
  | timerCancel id => exact follows_executed (fun _ => rfl)
  | storageGet key => exact follows_executed (fun _ => rfl)
  | storageSet key value => exact follows_executed (fun _ => rfl)
  | storageDelete key => exact follows_executed (fun _ => rfl)
  | submitStorageGet key timeout =>
    exact hsubmitted .storageRead _ _ (fun _ => rfl) (follows_submitStorageGet b key timeout)
  | takeStorageGetResult id => exact follows_takeOperationResult b _ _ id
  | submitHttps templateId connectionId query =>
    exact hsubmitted .networkHttps _ _ (fun _ => rfl)
      (follows_submitHttps lib w b templateId connectionId query)
  | takeHttpsResult id => exact follows_takeOperationResult b _ _ id
  | cancelOperationById id meanwhile =>
    exact follows_cancelOperationById hheld id (hcall id meanwhile rfl)
  | metricsCpuPercent => exact follows_executed (fun _ => rfl)
  | metricsMemory => exact follows_executed (fun _ => rfl)
  | themeGetToken name => exact follows_executed (fun _ => rfl)
  | themeSubscribe => exact follows_executed (fun _ => rfl)
  | themeUnsubscribe id => exact follows_executed (fun _ => rfl)

end Broker

end Floatile.Services
