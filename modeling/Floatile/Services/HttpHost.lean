import Floatile.Lib.Transition
import Floatile.Services.CallFrame

/-! A broker whose HTTPS operations run: every accepted operation carries its prepared work, and
the work hands requests to the transport, waits for the answers and tries again. -/
namespace Floatile.Services

open Floatile.Core
open Floatile.Core.Capability Floatile.Core.Operation
open Floatile.Lib Floatile.Lib.Trace Floatile.Lib.Transition
open Floatile.Services.Operation

/-- Where the work of an operation is. Attempts are counted from zero. -/
inductive AttemptPhase where
  | fresh
  | executing (attempt : ℕ)
  | sleeping (attempt wake : ℕ)
  deriving DecidableEq

/-- The work of an accepted operation. The last fields only record the budget that was set for it
and the rate window that it was charged to. -/
structure HttpTask (υ : Type) where
  work : HttpWork υ
  phase : AttemptPhase
  timeout : ℕ
  submitted : ℕ
  window : ℕ

/-- A call of the transport, with the operation that makes it. -/
structure HandedRequest (υ : Type) where
  request : HttpTransportRequest υ
  deadline : ℕ
  submitted : ℕ
  window : ℕ
  attempt : ℕ

structure CachedResponse where
  storedAt : ℕ
  response : HttpResponse

/-- `health` is what the listener has been told. The fields from `handed` on only record what has
happened; `vaults` are the contents of the vault at the calls of the guest. -/
structure HttpsHost (υ : Type) where
  broker : Broker
  tasks : OrdMap ℕ (HttpTask υ)
  cache : List (CacheKey × CachedResponse)
  health : List (ConnectionId × ConnectionHealth)
  handed : List (HandedRequest υ)
  admitted : List ℕ
  vaults : List CredentialVault

inductive HttpsLabel where
  | guest (w : Surroundings) (call : BrokerCall)
  | timerCompleted (id : ℕ)
  | registry (label : RegistryLabel ResultType OperationValue)
  | advance (n : ℕ) (answer : Except HttpServiceError HttpResponse)

/-- The failure of an operation whose last attempt failed. -/
def failureOf : HttpServiceError → OperationFailure
  | .invalidInput | .templateUnavailable | .connectionNotGranted | .responseRejected => .internal
  | .credentialUnavailable | .destinationNotPublic | .unavailable => .unavailable

def retryable : HttpServiceError → Bool
  | .unavailable => true
  | _ => false

def maxDuration : ℕ := 2^64 * 10^9 - 1

/-- The delay doubles with every attempt; a shift of 32 bits or more wraps around. -/
def retryDelay (base attempt : ℕ) : ℕ := min (base * 2^(attempt % 32)) maxDuration

def typedResponse (response : HttpResponse) : ErasedValue ResultType OperationValue :=
  ⟨.httpResponse,.httpResponse response⟩

namespace HttpsHost

variable {υ : Type}

/-- A response in the cache that is not older than the given age. -/
def hit (s : HttpsHost υ) (key : CacheKey) (now maxAge : ℕ) : Option HttpResponse :=
  match s.cache.find? (fun entry => entry.1 = key) with
  | some (_,cached) => if now - cached.storedAt ≤ maxAge then some cached.response else none
  | none => none

def store (s : HttpsHost υ) (key : CacheKey) (now : ℕ) (response : HttpResponse) : HttpsHost υ :=
  { s with cache := (key,⟨now,response⟩) :: s.cache.filter (fun entry => entry.1 ≠ key) }

/-- The listener, if there is one, is told the health of the connection. -/
def tell (s : HttpsHost υ) (connection : ConnectionId) (health : ConnectionHealth) :
    HttpsHost υ :=
  if s.broker.https.any HttpsService.healthListener then
    { s with health := (connection,health) :: s.health }
  else s

/-- The work of task `n` has ended. -/
def finish (s : HttpsHost υ) (operations : OperationRegistry) (n id : ℕ)
    (result : Except OperationFailure HttpResponse) : HttpsHost υ :=
  { s with
    broker := { s.broker with
      operations := some (operations.elapse [.run n (some (result.map typedResponse))]) }
    tasks := s.tasks.erase id }

/-- The transport is called. -/
def execute (s : HttpsHost υ) (job : OperationJob) (task : HttpTask υ) (attempt : ℕ) :
    HttpsHost υ :=
  { s with
    tasks := s.tasks.insert job.id { task with phase := .executing attempt }
    handed := ⟨task.work.request,job.deadline,task.submitted,task.window,attempt⟩ :: s.handed }

/-- What the work does with the answer to an attempt. -/
def answered (s : HttpsHost υ) (operations : OperationRegistry) (n : ℕ) (job : OperationJob)
    (task : HttpTask υ) (attempt : ℕ) (answer : Except HttpServiceError HttpResponse) :
    HttpsHost υ :=
  let now := operations.state.now
  match answer with
  | .ok response =>
    let s := s.tell task.work.connectionId .healthy
    let s := if task.work.cacheTtl ≠ 0 ∨ task.work.staleIfError ≠ 0 then
        s.store task.work.cacheKey now response
      else s
    s.finish operations n job.id (.ok response)
  | .error error =>
    if attempt < task.work.maxRetries ∧ retryable error = true then
      let phase := .sleeping attempt (now + retryDelay task.work.retryBaseDelay attempt)
      { s with tasks := s.tasks.insert job.id { task with phase := phase } }
    else
      let stale := if task.work.staleIfError = 0 then none
        else s.hit task.work.cacheKey now (task.work.cacheTtl + task.work.staleIfError)
      match stale with
      | some response => s.finish operations n job.id (.ok response)
      | none =>
        (s.tell task.work.connectionId .degraded).finish operations n job.id
          (.error (failureOf error))

/-- The work of a task that is being polled goes on to where it has to wait again. -/
def proceed (s : HttpsHost υ) (operations : OperationRegistry) (n : ℕ) (job : OperationJob)
    (task : HttpTask υ) (answer : Except HttpServiceError HttpResponse) : Option (HttpsHost υ) :=
  let now := operations.state.now
  match task.phase with
  | .fresh =>
    let cached := if task.work.cacheTtl = 0 then none
      else s.hit task.work.cacheKey now task.work.cacheTtl
    match cached with
    | some response => some (s.finish operations n job.id (.ok response))
    | none => some (s.execute job task 0)
  | .executing attempt => some (s.answered operations n job task attempt answer)
  | .sleeping attempt wake =>
    if wake ≤ now then some (s.execute job task (attempt + 1)) else none

/-- The task that is being polled at a position, with its work. -/
def polled (s : HttpsHost υ) (n : ℕ) : Option (OperationRegistry × OperationJob × HttpTask υ) :=
  match s.broker.operations with
  | none => none
  | some operations =>
    match operations.state.tasks[n]? with
    | some ⟨job,.selecting⟩ => (s.tasks.get job.id).map (fun task => (operations,job,task))
    | _ => none

def advance (s : HttpsHost υ) (n : ℕ) (answer : Except HttpServiceError HttpResponse) :
    Option (HttpsHost υ) :=
  (s.polled n).bind (fun (operations,job,task) => s.proceed operations n job task answer)

variable (lib : HttpLibrary υ)

/-- The prepared work of a submission. -/
def preparedFor (s : HttpsHost υ) (w : Surroundings) : BrokerCall → Option (PreparedHttpOperation υ)
  | .submitHttps templateId connectionId query =>
    s.broker.https.bind (fun https =>
      (https.prepare lib w.vault templateId connectionId query).result.toOption)
  | _ => none

/-- A call of the guest. An accepted submission takes its work along. -/
def guest (s : HttpsHost υ) (w : Surroundings) (call : BrokerCall) : HttpsHost υ :=
  let called := s.broker.call lib w call
  let window := called.state.httpsRate.started
  let s' := { s with broker := called.state, vaults := w.vault :: s.vaults }
  match called.result, s.preparedFor lib w call, s.broker.operations with
  | .ok (.operation id), some prepared, some operations => { s' with
      tasks := s.tasks.insert id
        ⟨prepared.work,.fresh,prepared.timeout,operations.state.now,window⟩
      admitted := window :: s.admitted }
  | _, _, _ => s'

/-- Polls of HTTPS work end it only through its own steps. -/
def EndsWork (s : HttpsHost υ) : RegistryLabel ResultType OperationValue → Prop
  | .run n (some _) => (s.polled n).isSome
  | _ => False

instance (s : HttpsHost υ) (label : RegistryLabel ResultType OperationValue) :
    Decidable (s.EndsWork label) :=
  match label with
  | .run n (some _) => inferInstanceAs (Decidable ((s.polled n).isSome = true))
  | .run _ none | .tick | .drawElsewhere | .submit _ _ | .insertActive _ | .trySend _
  | .removeRejected _ | .cancel _ _ | .cancelAll | .dropRegistry | .acquirePermit | .receiveJob
  | .take _ _ _ | .discard _ => inferInstanceAs (Decidable False)

def step (s : HttpsHost υ) : HttpsLabel → Option (HttpsHost υ)
  | .guest w call => some (s.guest lib w call)
  | .timerCompleted id => some { s with broker := s.broker.timerComplete id }
  | .registry label =>
    if s.EndsWork label then none else some { s with broker := s.broker.elapse [label] }
  | .advance n answer => s.advance n answer

theorem polled_eq_some {s : HttpsHost υ} {n : ℕ} {operations : OperationRegistry}
    {job : OperationJob} {task : HttpTask υ} (h : s.polled n = some (operations,job,task)) :
    s.broker.operations = some operations ∧ job ∈ operations.state.carried ∧
      s.tasks.get job.id = some task := by
  unfold polled at h
  cases hoperations : s.broker.operations with
  | none => simp [hoperations] at h
  | some found =>
    simp only [hoperations] at h
    split at h
    · next selected htask =>
      obtain ⟨t,ht,heq⟩ := Option.map_eq_some_iff.mp h
      cases heq
      refine ⟨rfl,?_,ht⟩
      have hmem := List.mem_map_of_mem (f := Operation.Task.job) (List.mem_of_getElem? htask)
      exact List.mem_append_right _ hmem
    · cases h

theorem kept_finish {s : HttpsHost υ} {operations : OperationRegistry} {n id : ℕ}
    {result : Except OperationFailure HttpResponse} (h : s.broker.operations = some operations) :
    s.broker.Kept (s.finish operations n id result).broker :=
  Broker.kept_of_state h
    (operations.elapse_jobsKept [.run n (some (result.map typedResponse))])

/-- What the work of a polled task does: it calls the transport, or it waits or ends without a
call. -/
theorem advance_cases {s s' : HttpsHost υ} {n : ℕ}
    {answer : Except HttpServiceError HttpResponse} (h : s.advance n answer = some s') :
    ∃ operations job task, s.polled n = some (operations,job,task) ∧
      ((∃ attempt, s' = s.execute job task attempt ∧
          ((task.phase = .fresh ∧ attempt = 0) ∨
            ∃ last wake, task.phase = .sleeping last wake ∧ attempt = last + 1)) ∨
        s'.handed = s.handed ∧ s'.admitted = s.admitted ∧ s'.vaults = s.vaults ∧
          s.broker.Kept s'.broker ∧ (s'.tasks = s.tasks.erase job.id ∨
            ∃ last wake, s'.tasks =
              s.tasks.insert job.id { task with phase := .sleeping last wake })) := by
  obtain ⟨⟨operations,job,task⟩,hpolled,hproceed⟩ := Option.bind_eq_some_iff.mp h
  refine ⟨operations,job,task,hpolled,?_⟩
  obtain ⟨hoperations,-,-⟩ := polled_eq_some hpolled
  simp only [proceed] at hproceed
  cases hphase : task.phase with
  | fresh =>
    simp only [hphase] at hproceed
    split at hproceed
    · cases hproceed
      exact .inr ⟨rfl,rfl,rfl,kept_finish hoperations,.inl rfl⟩
    · cases hproceed
      exact .inl ⟨0,rfl,.inl ⟨rfl,rfl⟩⟩
  | executing attempt =>
    right
    simp only [hphase] at hproceed
    cases hproceed
    have htell : ∀ health, (s.tell task.work.connectionId health).broker = s.broker ∧
        (s.tell task.work.connectionId health).handed = s.handed ∧
        (s.tell task.work.connectionId health).admitted = s.admitted ∧
        (s.tell task.work.connectionId health).vaults = s.vaults ∧
        (s.tell task.work.connectionId health).tasks = s.tasks := by
      intro health
      unfold tell
      split_ifs <;> exact ⟨rfl,rfl,rfl,rfl,rfl⟩
    cases answer with
    | ok response =>
      obtain ⟨hbroker,hhanded,hadmitted,hvaults,htasks⟩ := htell .healthy
      have hkept : s.broker.Kept (s.finish operations n job.id (.ok response)).broker :=
        kept_finish hoperations
      unfold answered
      dsimp only
      split_ifs <;> refine ⟨hhanded,hadmitted,hvaults,?_,.inl ?_⟩
      · simpa [finish, store, hbroker] using hkept
      · simp [finish, store, htasks]
      · simpa [finish, hbroker] using hkept
      · simp [finish, htasks]
    | error error =>
      obtain ⟨hbroker,hhanded,hadmitted,hvaults,htasks⟩ := htell .degraded
      unfold answered
      dsimp only
      split_ifs
      · exact ⟨rfl,rfl,rfl,.refl _,.inr ⟨_,_,rfl⟩⟩
      all_goals
        split
        · exact ⟨rfl,rfl,rfl,kept_finish hoperations,.inl rfl⟩
        · have hkept : s.broker.Kept
              (s.finish operations n job.id (.error (failureOf error))).broker :=
            kept_finish hoperations
          refine ⟨hhanded,hadmitted,hvaults,?_,.inl ?_⟩
          · simpa [finish, hbroker] using hkept
          · simp [finish, htasks]
  | sleeping last wake =>
    simp only [hphase] at hproceed
    split_ifs at hproceed
    cases hproceed
    exact .inl ⟨last + 1,rfl,.inr ⟨last,wake,rfl,rfl⟩⟩

end HttpsHost

namespace Broker

variable {υ : Type} {lib : HttpLibrary υ}

/-- What stands behind a permission check is reached only with the permission. -/
theorem guarded_eq_ok {ε α : Type} {b : Broker} {c : CapabilityId}
    {request : Option CapabilityParams} {detail : String} {deny : DenyReason → ε}
    {execute : BrokerResult Broker ε α} {a : α}
    (h : (guarded (b.authorize c request detail) deny execute).result = .ok a) :
    b.Allows c request ∧ execute.result = .ok a ∧
      (guarded (b.authorize c request detail) deny execute).state = execute.state := by
  by_cases hallows : b.Allows c request
  · rw [authorize_of_allows b c request detail hallows] at h ⊢
    exact ⟨hallows,h,rfl⟩
  · obtain ⟨reason,hreason⟩ := authorize_of_not_allows b c request detail hallows
    rw [hreason] at h
    cases h

theorem submitAuthorizedOperation_eq_ok {b : Broker} {c : CapabilityId} {timeout id : ℕ}
    (h : (b.submitAuthorizedOperation c timeout).result = .ok id) :
    ∃ operations state, b.operations = some operations ∧
      operations.state.submit operations.limits c timeout = (.ok id,state) ∧
      (b.submitAuthorizedOperation c timeout).state =
        { b with operations := some { operations with state := state } } := by
  unfold submitAuthorizedOperation submitOrRefuse at h ⊢
  cases hoperations : b.operations with
  | none => simp [hoperations] at h
  | some operations =>
    simp only [hoperations] at h ⊢
    cases hsubmit : (operations.state.submit operations.limits c timeout).1 with
    | error e => simp [hsubmit] at h
    | ok found =>
      simp only [hsubmit] at h ⊢
      cases h
      exact ⟨operations,(operations.state.submit operations.limits c timeout).2,rfl,
        Prod.ext hsubmit rfl,rfl⟩

/-- An accepted submission of prepared work: it is allowed, it is charged to the rate window, and
its job is drawn from the registry. -/
theorem submitHttps_eq_ok {w : Surroundings} {b : Broker} {templateId : String}
    {connectionId : ConnectionId} {query : List QueryParam} {https : HttpsService}
    {prepared : PreparedHttpOperation υ} {id : ℕ} (hhttps : b.https = some https)
    (hprepared : (https.prepare lib w.vault templateId connectionId query).result = .ok prepared)
    (h : (b.submitHttps lib w templateId connectionId query).result = .ok id) :
    b.Allows .networkHttps (some prepared.requestParams) ∧
      (b.httpsRate.roll w.now).used < b.httpsRateMax ∧
      ∃ operations state, b.operations = some operations ∧
        operations.state.submit operations.limits .networkHttps prepared.timeout =
          (.ok id,state) ∧
        (b.submitHttps lib w templateId connectionId query).state = { b with
          httpsRate := (b.httpsRate.roll w.now).count
          operations := some { operations with state := state } } := by
  unfold submitHttps at h ⊢
  simp only [hhttps, hprepared, Outcome.after_result, Outcome.after_state] at h ⊢
  obtain ⟨hallows,hsubmit,hstate⟩ := guarded_eq_ok h
  rw [hstate]
  unfold submitPrepared reserveHttpsRate at hsubmit ⊢
  dsimp only at hsubmit ⊢
  by_cases hspent : b.httpsRateMax ≤ (b.httpsRate.roll w.now).used
  · simp only [if_pos hspent] at hsubmit
    cases hsubmit
  · simp only [if_neg hspent] at hsubmit ⊢
    obtain ⟨operations,state,hoperations,hregistry,hafter⟩ :=
      submitAuthorizedOperation_eq_ok hsubmit
    exact ⟨hallows,not_le.mp hspent,operations,state,hoperations,hregistry,
      hafter.trans (by simp only [hhttps])⟩

end Broker

namespace HttpsHost

variable {υ : Type} {lib : HttpLibrary υ}

variable (lib) in
/-- A call of the guest, with the work of a submission that it makes. -/
theorem guest_cases (s : HttpsHost υ) (w : Surroundings) (call : BrokerCall) :
    (∃ prepared templateId connectionId query https id operations state,
        call = .submitHttps templateId connectionId query ∧ s.broker.https = some https ∧
        (https.prepare lib w.vault templateId connectionId query).result = .ok prepared ∧
        s.broker.Allows .networkHttps (some prepared.requestParams) ∧
        (s.broker.httpsRate.roll w.now).used < s.broker.httpsRateMax ∧
        s.broker.operations = some operations ∧
        operations.state.submit operations.limits .networkHttps prepared.timeout =
          (.ok id,state) ∧
        s.guest lib w call = { s with
          broker := { s.broker with
            httpsRate := (s.broker.httpsRate.roll w.now).count
            operations := some { operations with state := state } }
          tasks := s.tasks.insert id ⟨prepared.work,.fresh,prepared.timeout,
            operations.state.now,(s.broker.httpsRate.roll w.now).started⟩
          admitted := (s.broker.httpsRate.roll w.now).started :: s.admitted
          vaults := w.vault :: s.vaults }) ∨
      s.guest lib w call = { s with
        broker := (s.broker.call lib w call).state
        vaults := w.vault :: s.vaults } := by
  unfold guest
  dsimp only
  cases hresult : (s.broker.call lib w call).result with
  | error e => exact .inr rfl
  | ok value =>
    cases value with
    | operation id =>
      cases hprepared : s.preparedFor lib w call with
      | none => exact .inr rfl
      | some prepared =>
        cases hoperations : s.broker.operations with
        | none => exact .inr rfl
        | some operations =>
          left
          cases call with
          | submitHttps templateId connectionId query =>
            obtain ⟨https,hhttps,hready⟩ := Option.bind_eq_some_iff.mp hprepared
            have hready := Checked.toOption_eq_some.mp hready
            have hsubmit : (s.broker.submitHttps lib w templateId connectionId query).result =
                .ok id := by
              cases hcalled : (s.broker.submitHttps lib w templateId connectionId query).result with
              | error e =>
                simp only [Broker.call, answer, Outcome.map_result, hcalled] at hresult
                cases hresult
              | ok found =>
                simp only [Broker.call, answer, Outcome.map_result, hcalled] at hresult
                cases hresult
                rfl
            obtain ⟨hallows,hroom,found,state,hfound,hregistry,hstate⟩ :=
              Broker.submitHttps_eq_ok hhttps hready hsubmit
            rw [hoperations] at hfound
            cases hfound
            refine ⟨prepared,templateId,connectionId,query,https,id,operations,state,rfl,hhttps,
              hready,hallows,hroom,rfl,hregistry,?_⟩
            simp only [Broker.call, answer, Outcome.map_state, hstate]
            rfl
          | _ => cases hprepared
    | _ => exact .inr rfl

theorem guest_broker (s : HttpsHost υ) (w : Surroundings) (call : BrokerCall) :
    (s.guest lib w call).broker = (s.broker.call lib w call).state := by
  unfold guest
  dsimp only
  split <;> rfl

/-- No step changes what the broker was made with. -/
theorem kept_step {s s' : HttpsHost υ} {i : HttpsLabel} (h : s.step lib i = some s') :
    s.broker.Kept s'.broker := by
  cases i with
  | guest w call =>
    cases h
    rw [guest_broker]
    exact Broker.kept_call lib w s.broker call
  | timerCompleted id =>
    cases h
    exact ⟨rfl,rfl,rfl,rfl,.refl _,(Broker.Kept.refl s.broker).operations⟩
  | registry label =>
    simp only [step] at h
    split_ifs at h
    cases h
    exact s.broker.kept_elapse [label]
  | advance n answer =>
    obtain ⟨operations,job,task,-,⟨attempt,rfl,-⟩ | ⟨-,-,-,hkept,-⟩⟩ := advance_cases h
    · exact .refl _
    · exact hkept

end HttpsHost

/-- What an instance starts with. -/
structure HttpsSetup where
  plugin : PluginId
  generation : ℕ
  grants : InstanceGrant
  audit : AuditSink
  templates : List HttpTemplateDecl
  connections : List Connection
  listener : Bool

def HttpsSetup.service (setup : HttpsSetup) : HttpsService :=
  let service := HttpsService.new setup.templates setup.connections
  if setup.listener then service.withHealthListener else service

/-- The broker of a new instance, made at the time `now` and bound to a registry. -/
def HttpsSetup.broker (setup : HttpsSetup) (now : ℕ) (operations : OperationRegistry) :
    Except OperationServiceError Broker := do
  let broker ← (Broker.new setup.plugin setup.generation setup.grants setup.audit now).withOperations
    operations
  .ok (broker.withHttps setup.service)

theorem HttpsSetup.broker_eq_ok {setup : HttpsSetup} {now : ℕ} {operations : OperationRegistry}
    {broker : Broker} (h : setup.broker now operations = .ok broker) :
    broker.grants.caps = mergeInherent setup.grants.caps ∧ broker.https = some setup.service ∧
      broker.operations = some operations ∧ broker.httpsRateMax =
        ((mergeInherent setup.grants.caps).foldl Quotas.read ⟨64 * 1024,none,1,0⟩).httpsRateMax := by
  obtain ⟨bound,hbound,hready⟩ := Checked.bind_eq_ok.mp h
  cases hready
  unfold Broker.withOperations at hbound
  dsimp only at hbound
  split_ifs at hbound
  cases hbound
  exact ⟨rfl,rfl,rfl,rfl⟩

def HttpsHost.new {υ : Type} (broker : Broker) : HttpsHost υ where
  broker := broker
  tasks := OrdMap.empty
  cache := []
  health := []
  handed := []
  admitted := []
  vaults := []

/-- The runs of a new instance with an empty registry. -/
def httpsSystem {υ : Type} (lib : HttpLibrary υ) (setup : HttpsSetup) :
    System (HttpsHost υ) HttpsLabel :=
  .ofPartial (fun s => ∃ now owner limits counter state broker, 0 < counter ∧
    Registry.new limits now counter = .ok state ∧
    setup.broker now ⟨owner,limits,state⟩ = .ok broker ∧ s = HttpsHost.new broker)
    (HttpsHost.step lib)

end Floatile.Services
