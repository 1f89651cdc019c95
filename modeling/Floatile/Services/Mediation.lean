import Floatile.Services.Broker

/-! Check, decide, execute: which calls of the broker have no effect before they are allowed and
recorded, and record a denial for every error. -/
namespace Floatile.Services

open Floatile.Core
open Floatile.Core.Capability Floatile.Core.Authority Floatile.Core.Operation
open Floatile.Lib Floatile.Lib.Trace
open Floatile.Lib.Checked (Fails)
open Floatile.Services.Operation

namespace BrokerEvent

def IsEffect : BrokerEvent → Prop
  | .effect _ => True
  | _ => False

/-- The permission decision allowed this request. -/
def IsAllowed (c : CapabilityId) (request : Option CapabilityParams) : BrokerEvent → Prop
  | .decided c' request' decision => c' = c ∧ request' = request ∧ decision = .allowed
  | _ => False

/-- An audit record of this decision on the capability. -/
def IsRecord (c : CapabilityId) (decision : String) : BrokerEvent → Prop
  | .audit record => record.capability = c.name ∧ record.decision = decision
  | _ => False

@[simp] theorem isEffect_effect (e : ServiceEffect) : (effect e).IsEffect := trivial

@[simp] theorem not_isEffect_decided (c : CapabilityId) (request : Option CapabilityParams)
    (decision : PermissionDecision) : ¬(decided c request decision).IsEffect := id

@[simp] theorem not_isEffect_audit (record : AuditEvent) : ¬(audit record).IsEffect := id

@[simp] theorem not_isRecord_effect (c : CapabilityId) (decision : String) (e : ServiceEffect) :
    ¬(effect e).IsRecord c decision := id

@[simp] theorem not_isRecord_decided (c c' : CapabilityId) (text : String)
    (request : Option CapabilityParams) (decision : PermissionDecision) :
    ¬(decided c' request decision).IsRecord c text := id

@[simp] theorem isRecord_record (sink : AuditSink) (c : CapabilityId) (allowed : Bool)
    (reason : Option DenyReason) (detail decision : String) :
    (audit (sink.record c allowed reason detail)).IsRecord c decision ↔
      (if allowed then "allow" else "deny") = decision := by
  simp [IsRecord, AuditSink.record]

end BrokerEvent

/-- No effect before the capability was allowed for the request and the allowance recorded, and
no error without the record of a denial. A call without a capability has neither. -/
structure Mediated {ε α : Type} (c : Option CapabilityId) (request : Option CapabilityParams)
    (o : BrokerResult Broker ε α) : Prop where
  decided : Preceded (fun ev => ∃ c' ∈ c, ev.IsAllowed c' request) BrokerEvent.IsEffect o.trace
  recorded : Preceded (fun ev => ∃ c' ∈ c, ev.IsRecord c' "allow") BrokerEvent.IsEffect o.trace
  denied : Fails o.result → ∃ ev ∈ o.trace, ∃ c' ∈ c, ev.IsRecord c' "deny"

section Mediated

variable {ε α : Type} {c : Option CapabilityId} {request : Option CapabilityParams}

/-- A call that does nothing but fail. -/
theorem not_mediated_of_untraced {o : BrokerResult Broker ε α} (hfails : Fails o.result)
    (htrace : o.trace = []) : ¬Mediated c request o := by
  intro h
  obtain ⟨ev,hev,-⟩ := h.denied hfails
  simp [htrace] at hev

/-- A call that starts with an effect. -/
theorem not_mediated_of_effect_first {o : BrokerResult Broker ε α}
    (htrace : ∃ e rest, o.trace = .effect e :: rest) : ¬Mediated c request o := by
  intro h
  obtain ⟨e,rest,htrace⟩ := htrace
  have hdecided := h.decided
  rw [htrace, preceded_cons_iff] at hdecided
  exact hdecided.1 trivial

end Mediated

theorem Operation.Registry.take_fails_iff {τ α : Type} [DecidableEq τ] (s : Registry τ α)
    (c : CapabilityId) (typeId : τ) (id : ℕ) :
    Fails (s.take c typeId id).1 ↔ ¬∃ result ∈ s.results.get id,
      result.capability = c ∧ result.value.typeId = typeId := by
  unfold Registry.take Registry.takeResult
  cases s.results.get id with
  | none => simp
  | some result =>
    dsimp only
    split_ifs with hcapability htype <;> simp_all

theorem Operation.Registry.cancel_fails_iff {τ α : Type} (s : Registry τ α)
    (c : CapabilityId) (id : ℕ) :
    Fails (s.cancel c id).1 ↔ (s.active.get id).map ActiveOperation.capability ≠ some c := by
  unfold Registry.cancel
  cases s.active.get id with
  | none => simp
  | some operation =>
    dsimp only
    split_ifs with hcapability <;> simp_all

namespace Broker

variable {ε α : Type} (b : Broker) (c : CapabilityId) (request : Option CapabilityParams)

/-- The instance has a grant that covers the request. -/
def Allows : Prop := Authority.Allows (findGrant b.grants.caps c) request

theorem authorize_of_allows (detail : String) (h : b.Allows c request) :
    b.authorize c request detail = ⟨.ok (),b,[.decided c request .allowed,
      .audit (b.audit.record c true none detail)]⟩ := by
  unfold Allows Authority.Allows at h
  simp [authorize, Services.authorize, h]

theorem authorize_of_not_allows (detail : String) (h : ¬b.Allows c request) :
    ∃ reason, b.authorize c request detail = ⟨.error reason,b,[.decided c request (.denied reason),
      .audit (b.audit.record c false (some reason) detail)]⟩ := by
  unfold Allows Authority.Allows at h
  cases hdecision : Capability.decide (findGrant b.grants.caps c) request with
  | allowed => exact absurd hdecision h
  | denied reason => exact ⟨reason,by simp [authorize, Services.authorize, hdecision]⟩

/-- An instance is allowed what its own grant spells out. -/
theorem allows_existingRequest :
    b.Allows c (b.existingRequest c) ↔ (findGrant b.grants.caps c).isSome := by
  unfold Allows existingRequest
  cases findGrant b.grants.caps c with
  | none => simp
  | some g => simp [allows_some_iff, permits_self]

/-- The permission check alone is mediated. -/
theorem mediated_authorize (detail : String) :
    Mediated (some c) request (b.authorize c request detail) := by
  by_cases h : b.Allows c request
  · rw [authorize_of_allows b c request detail h]
    constructor <;> simp
  · obtain ⟨reason,hreason⟩ := authorize_of_not_allows b c request detail h
    rw [hreason]
    constructor <;> simp

/-- Behind a permission check only an error without the record of a denial is out of order. -/
theorem mediated_guarded (detail : String) (deny : DenyReason → ε)
    (execute : BrokerResult Broker ε α) :
    Mediated (some c) request (guarded (b.authorize c request detail) deny execute) ↔
      (b.Allows c request → Fails execute.result →
        ∃ ev ∈ execute.trace, ev.IsRecord c "deny") := by
  by_cases h : b.Allows c request
  · rw [authorize_of_allows b c request detail h]
    simp only [guarded]
    constructor
    · intro hmediated _ hfails
      simpa using hmediated.denied hfails
    · intro hexecute
      refine ⟨?_,?_,fun hfails => ?_⟩
      · simp [BrokerEvent.IsAllowed]
      · simp
      · obtain ⟨ev,hev,hdeny⟩ := hexecute h hfails
        exact ⟨ev,by simp [hev],c,rfl,hdeny⟩
  · obtain ⟨reason,hreason⟩ := authorize_of_not_allows b c request detail h
    rw [hreason]
    simp only [guarded, h, false_implies, iff_true]
    constructor <;> simp

/-- A service behind a permission check must not refuse what is allowed. -/
theorem mediated_executed {σ : Type} (detail : String) (deny : DenyReason → ε)
    (o : Outcome σ ServiceEffect (Except ε α)) (put : σ → Broker) :
    Mediated (some c) request (guarded (b.authorize c request detail) deny (executed o put)) ↔
      (b.Allows c request → ¬Fails o.result) := by
  rw [mediated_guarded]
  simp [executed]

/-- A submission that fails leaves the record of a denial. -/
theorem submitAuthorizedOperation_denied (timeout : ℕ)
    (h : Fails (b.submitAuthorizedOperation c timeout).result) :
    ∃ ev ∈ (b.submitAuthorizedOperation c timeout).trace, ev.IsRecord c "deny" := by
  unfold submitAuthorizedOperation at h ⊢
  dsimp only at h ⊢
  cases hresult : (b.submitOrRefuse c timeout).result with
  | ok id => simp [hresult] at h
  | error e => exact ⟨_,List.mem_append_right _ List.mem_cons_self,by simp⟩

theorem mediated_submitOperation (timeout : ℕ) (detail : String) :
    Mediated (some c) request (b.submitOperation c request timeout detail) :=
  (mediated_guarded b c request detail _ _).mpr
    (fun _ => submitAuthorizedOperation_denied b c timeout)

/-- The registry holds a result of this type for this capability. -/
def HoldsResult (resultType : ResultType) (id : ℕ) : Prop :=
  ∃ operations ∈ b.operations, ∃ result ∈ operations.state.results.get id,
    result.capability = c ∧ result.value.typeId = resultType

/-- The registry runs an operation of this capability. -/
def RunsOperation (id : ℕ) : Prop :=
  ∃ operations ∈ b.operations, operations.activeCapability id = some c

theorem mediated_takeOperationResult (resultType : ResultType) (id : ℕ) :
    Mediated (some c) (b.existingRequest c) (b.takeOperationResult c resultType id) ↔
      ((findGrant b.grants.caps c).isSome → b.HoldsResult c resultType id) := by
  unfold takeOperationResult authorizeExistingGrant
  rw [mediated_guarded, allows_existingRequest]
  cases hoperations : b.operations with
  | none => simp [HoldsResult, hoperations]
  | some operations =>
    have htake := operations.state.take_fails_iff c resultType id
    simp only [htake, List.not_mem_nil, false_and, exists_false, imp_false, not_not]
    simp [HoldsResult, hoperations]

theorem mediated_cancelOperation (id : ℕ) :
    Mediated (some c) (b.existingRequest c) (b.cancelOperation c id) ↔
      ((findGrant b.grants.caps c).isSome → b.RunsOperation c id) := by
  unfold cancelOperation authorizeExistingGrant
  rw [mediated_guarded, allows_existingRequest]
  cases hoperations : b.operations with
  | none => simp [RunsOperation, hoperations]
  | some operations =>
    have hcancel := operations.state.cancel_fails_iff c id
    simp only [hcancel, List.not_mem_nil, false_and, exists_false, imp_false, not_not]
    simp [RunsOperation, hoperations, OperationRegistry.activeCapability]

/-- The broker after other tasks have used its registry. -/
def elapse (labels : List (RegistryLabel ResultType OperationValue)) : Broker :=
  { b with operations := b.operations.map (fun operations => operations.elapse labels) }

/-- The capability of a running operation. -/
def runningCapability (id : ℕ) : Option CapabilityId :=
  b.operations.bind (fun operations => operations.activeCapability id)

theorem mediated_cancelOperationById (id : ℕ)
    (meanwhile : List (RegistryLabel ResultType OperationValue)) :
    Mediated (b.runningCapability id) ((b.runningCapability id).bind b.existingRequest)
        (b.cancelOperationById id meanwhile) ↔
      ∃ c, b.runningCapability id = some c ∧
        ((findGrant b.grants.caps c).isSome → (b.elapse meanwhile).RunsOperation c id) := by
  cases hrunning : b.runningCapability id with
  | none =>
    -- the lookup fails: the call ends without a record
    have hnot : ¬Mediated none none (b.cancelOperationById id meanwhile) := by
      apply not_mediated_of_untraced
      · unfold cancelOperationById
        cases hoperations : b.operations with
        | none => simp
        | some operations =>
          simp only [runningCapability, hoperations, Option.bind_some] at hrunning
          simp [hrunning]
      · unfold cancelOperationById
        cases hoperations : b.operations with
        | none => rfl
        | some operations =>
          simp only [runningCapability, hoperations, Option.bind_some] at hrunning
          simp [hrunning]
    simpa using hnot
  | some c =>
    obtain ⟨operations,hoperations,hactive⟩ := Option.bind_eq_some_iff.mp hrunning
    have hcall : b.cancelOperationById id meanwhile =
        (b.elapse meanwhile).cancelOperation c id := by
      unfold cancelOperationById elapse
      simp [hoperations, hactive]
    have hmediated : Mediated (some c) (b.existingRequest c)
        ((b.elapse meanwhile).cancelOperation c id) ↔
          ((findGrant b.grants.caps c).isSome → (b.elapse meanwhile).RunsOperation c id) :=
      mediated_cancelOperation (b.elapse meanwhile) c id
    simpa [hcall] using hmediated

theorem mediated_submitStorageGet (key : String) (timeout : ℕ) :
    Mediated (some .storageRead) (some (.storage [key] 0)) (b.submitStorageGet key timeout) ↔
      ¬Fails (validKey key) := by
  unfold submitStorageGet
  cases validKey key with
  | error e =>
    have hnot : ¬Mediated (some CapabilityId.storageRead) (some (.storage [key] 0))
        (⟨.error .invalidInput,b,[]⟩ : BrokerResult Broker OperationSubmitError ℕ) :=
      not_mediated_of_untraced (by simp) rfl
    simpa using hnot
  | ok u => simp [mediated_submitOperation]

theorem mediated_submitHttpsUnconfigured (templateId : String) :
    Mediated (some .networkHttps) (b.existingRequest .networkHttps)
      (b.submitHttpsUnconfigured templateId) := by
  unfold submitHttpsUnconfigured authorizeExistingGrant
  rw [mediated_guarded]
  simp

end Broker

/-- A preparation either fails before it has an effect or starts with reading the credential. -/
theorem HttpsService.prepare_cases {υ : Type} (lib : HttpLibrary υ) (s : HttpsService)
    (vault : CredentialVault) (templateId : String) (connectionId : ConnectionId)
    (query : List QueryParam) :
    (Fails (s.prepare lib vault templateId connectionId query).result ∧
        (s.prepare lib vault templateId connectionId query).trace = []) ∨
      ∃ credential rest, (s.prepare lib vault templateId connectionId query).trace =
        .vaultRead credential :: rest := by
  unfold HttpsService.prepare
  cases s.draft lib templateId connectionId query with
  | error e => exact Or.inl ⟨by simp,rfl⟩
  | ok draft =>
    right
    refine ⟨draft.connection.credential,?_⟩
    dsimp only
    cases vault.withSecret draft.connection.credential with
    | error e => exact ⟨_,rfl⟩
    | ok secret =>
      refine ⟨[],?_⟩
      cases hvalue : lib.headerValue secret <;> simp [hvalue]

/-- With templates and connections bound, no submission of a request is mediated. -/
theorem Broker.not_mediated_submitHttps {υ : Type} (lib : HttpLibrary υ) (w : Surroundings)
    (b : Broker) {https : HttpsService} (hhttps : b.https = some https)
    (c : Option CapabilityId) (request : Option CapabilityParams) (templateId : String)
    (connectionId : ConnectionId) (query : List QueryParam) :
    ¬Mediated c request (b.submitHttps lib w templateId connectionId query) := by
  unfold Broker.submitHttps
  simp only [hhttps]
  rcases https.prepare_cases lib w.vault templateId connectionId query with
    ⟨⟨e,hresult⟩,htrace⟩ | ⟨credential,rest,htrace⟩
  · apply not_mediated_of_untraced <;> simp [hresult, htrace]
  · apply not_mediated_of_effect_first
    cases (https.prepare lib w.vault templateId connectionId query).result with
    | error e => exact ⟨.vaultRead credential,rest.map .effect,by simp [htrace]⟩
    | ok prepared => exact ⟨.vaultRead credential,_,by simp [htrace]; rfl⟩

/-- The calls that the imports of a guest make, with what happens inside them. -/
inductive BrokerCall where
  | updateState (patchJson : String)
  | log (level : LogLevel) (message : String)
  | clockNow
  | timerSchedule (delayMs : ℕ)
  | timerCancel (id : ℕ)
  | storageGet (key : String)
  | storageSet (key value : String)
  | storageDelete (key : String)
  | submitStorageGet (key : String) (timeout : ℕ)
  | takeStorageGetResult (id : ℕ)
  | submitHttps (templateId : String) (connectionId : ConnectionId) (query : List QueryParam)
  | takeHttpsResult (id : ℕ)
  | cancelOperationById (id : ℕ) (meanwhile : List (RegistryLabel ResultType OperationValue))
  | metricsCpuPercent
  | metricsMemory
  | themeGetToken (name : String)
  | themeSubscribe
  | themeUnsubscribe (id : ℕ)

inductive CallError where
  | update (reason : DenyReason)
  | log (e : LogError)
  | timer (e : TimerError)
  | storage (e : StorageError)
  | submit (e : OperationSubmitError)
  | take (e : OperationTakeError)
  | cancel (e : OperationCancelError)
  | metrics (e : MetricsError)
  | theme (e : ThemeError)

inductive CallValue where
  | done
  | clock (snapshot : ClockSnapshot)
  | text (value : Option String)
  | timer (id : ℕ)
  | operation (id : ℕ)
  | result (value : OperationValue)
  | percent (value : Float)
  | memory (snapshot : MemorySnapshot)
  | subscription (id : ℕ)

/-- The result of a call as one of the results of all calls. -/
def answer {ε α : Type} (o : BrokerResult Broker ε α) (onError : ε → CallError)
    (onValue : α → CallValue) : BrokerResult Broker CallError CallValue :=
  o.map (fun result => (result.mapError onError).map onValue)

@[simp] theorem mediated_answer {ε α : Type} (c : Option CapabilityId)
    (request : Option CapabilityParams) (o : BrokerResult Broker ε α) (onError : ε → CallError)
    (onValue : α → CallValue) :
    Mediated c request (answer o onError onValue) ↔ Mediated c request o := by
  constructor <;> rintro ⟨hdecided,hrecorded,hdenied⟩ <;>
    exact ⟨hdecided,hrecorded,by simpa [answer] using hdenied⟩

section Calls

variable {υ : Type} (lib : HttpLibrary υ) (w : Surroundings) (b : Broker)

namespace Broker

def call : BrokerCall → BrokerResult Broker CallError CallValue
  | .updateState patchJson => answer (b.authorizeUpdate patchJson) .update (fun _ => .done)
  | .log level message => answer (b.logMessage w level message) .log (fun _ => .done)
  | .clockNow => (b.clockNow w).map (fun snapshot => .ok (.clock snapshot))
  | .timerSchedule delayMs => answer (b.timerSchedule w delayMs) .timer .timer
  | .timerCancel id => answer (b.timerCancel id) .timer (fun _ => .done)
  | .storageGet key => answer (b.storageGet key) .storage .text
  | .storageSet key value => answer (b.storageSet key value) .storage (fun _ => .done)
  | .storageDelete key => answer (b.storageDelete key) .storage (fun _ => .done)
  | .submitStorageGet key timeout => answer (b.submitStorageGet key timeout) .submit .operation
  | .takeStorageGetResult id => answer (b.takeStorageGetResult id) .take .result
  | .submitHttps templateId connectionId query =>
    answer (b.submitHttps lib w templateId connectionId query) .submit .operation
  | .takeHttpsResult id => answer (b.takeHttpsResult id) .take .result
  | .cancelOperationById id meanwhile =>
    answer (b.cancelOperationById id meanwhile) .cancel (fun _ => .done)
  | .metricsCpuPercent => answer (b.metricsCpuPercent w) .metrics .percent
  | .metricsMemory => answer (b.metricsMemory w) .metrics .memory
  | .themeGetToken name => answer (b.themeGetToken name) .theme .text
  | .themeSubscribe => answer b.themeSubscribe .theme .subscription
  | .themeUnsubscribe id => answer (b.themeUnsubscribe id) .theme (fun _ => .done)

/-- The capability that a call is about; a cancellation learns it from the registry. -/
def capabilityOf : BrokerCall → Option CapabilityId
  | .updateState _ => some .uiUpdateState
  | .log _ _ => some .logWrite
  | .clockNow => some .clockRead
  | .timerSchedule _ => some .timerSchedule
  | .timerCancel _ => some .timerSchedule
  | .storageGet _ => some .storageRead
  | .storageSet _ _ => some .storageWrite
  | .storageDelete _ => some .storageWrite
  | .submitStorageGet _ _ => some .storageRead
  | .takeStorageGetResult _ => some .storageRead
  | .submitHttps _ _ _ => some .networkHttps
  | .takeHttpsResult _ => some .networkHttps
  | .cancelOperationById id _ => b.runningCapability id
  | .metricsCpuPercent => some .systemCpu
  | .metricsMemory => some .systemMemory
  | .themeGetToken _ => some .themeSubscribe
  | .themeSubscribe => some .themeSubscribe
  | .themeUnsubscribe _ => some .themeSubscribe

/-- The parameters that a call asks for. Those of an HTTPS request come from its preparation. -/
def requestOf : BrokerCall → Option CapabilityParams
  | .timerSchedule _ => some (.timer 1 1)
  | .timerCancel _ => some (.timer 1 1)
  | .storageGet key => some (.storage [key] 0)
  | .storageSet key value => some (.storage [key] (Text.byteLen value))
  | .storageDelete key => some (.storage [key] 0)
  | .submitStorageGet key _ => some (.storage [key] 0)
  | .takeStorageGetResult _ => b.existingRequest .storageRead
  | .submitHttps templateId connectionId query =>
    match b.https with
    | none => b.existingRequest .networkHttps
    | some https => (https.prepare lib w.vault templateId connectionId query).result.toOption.map
        PreparedHttpOperation.requestParams
  | .takeHttpsResult _ => b.existingRequest .networkHttps
  | .cancelOperationById id _ => (b.runningCapability id).bind b.existingRequest
  | .metricsCpuPercent => some (.metrics 1)
  | _ => none

/-- When the services have no reason to refuse what the permission check has let through, and
nothing is refused or done before it. -/
def Serves : BrokerCall → Prop
  | .updateState _ => True
  | .log _ message => b.Allows .logWrite none → b.log.Accepts w.now message
  | .clockNow => True
  | .timerSchedule delayMs =>
    b.Allows .timerSchedule (some (.timer 1 1)) → b.timer.CanSchedule w.now delayMs
  | .timerCancel id =>
    b.Allows .timerSchedule (some (.timer 1 1)) → (b.timer.active.get id).isSome
  | .storageGet key => b.Allows .storageRead (some (.storage [key] 0)) → ¬Fails (validKey key)
  | .storageSet key value => b.Allows .storageWrite (some (.storage [key] (Text.byteLen value))) →
    ¬Fails (validKey key) ∧ b.storage.totalWith key value ≤ b.storage.maxBytes
  | .storageDelete key => b.Allows .storageWrite (some (.storage [key] 0)) → ¬Fails (validKey key)
  | .submitStorageGet key _ => ¬Fails (validKey key)
  | .takeStorageGetResult id =>
    (findGrant b.grants.caps .storageRead).isSome → b.HoldsResult .storageRead .storedText id
  | .submitHttps _ _ _ => b.https = none
  | .takeHttpsResult id =>
    (findGrant b.grants.caps .networkHttps).isSome → b.HoldsResult .networkHttps .httpResponse id
  | .cancelOperationById id meanwhile => ∃ c, b.runningCapability id = some c ∧
    ((findGrant b.grants.caps c).isSome → (b.elapse meanwhile).RunsOperation c id)
  | .metricsCpuPercent => b.Allows .systemCpu (some (.metrics 1)) →
    b.metrics.tooEarly w.now = false ∧ w.process.isSome
  | .metricsMemory => b.Allows .systemMemory none → w.process.isSome
  | .themeGetToken name => b.Allows .themeSubscribe none → (b.theme.tokens.get name).isSome
  | .themeSubscribe => True
  | .themeUnsubscribe id =>
    b.Allows .themeSubscribe none → (b.theme.subscriptions.get id).isSome

/-- A call is mediated exactly when the services do not refuse it. -/
theorem mediated_call_iff (call : BrokerCall) :
    Mediated (b.capabilityOf call) (b.requestOf lib w call) (b.call lib w call) ↔
      b.Serves w call := by
  cases call with
  | updateState patchJson =>
    simp [Broker.call, capabilityOf, requestOf, Serves, authorizeUpdate, mediated_authorize]
  | log level message =>
    simp [Broker.call, capabilityOf, requestOf, Serves, logMessage, mediated_executed,
      LogService.log_fails_iff]
  | clockNow =>
    have hcheck := b.mediated_authorize .clockRead none "clock"
    refine ⟨fun _ => trivial,fun _ => ⟨hcheck.decided,hcheck.recorded,?_⟩⟩
    simp [Broker.call, Broker.clockNow]
  | timerSchedule delayMs =>
    simp [Broker.call, capabilityOf, requestOf, Serves, Broker.timerSchedule, mediated_executed,
      TimerService.schedule_fails_iff]
  | timerCancel id =>
    simp [Broker.call, capabilityOf, requestOf, Serves, Broker.timerCancel, mediated_executed,
      TimerService.cancel_fails_iff, Option.isSome_iff_ne_none]
  | storageGet key =>
    simp [Broker.call, capabilityOf, requestOf, Serves, Broker.storageGet, mediated_executed,
      StorageService.get_fails_iff]
  | storageSet key value =>
    simp [Broker.call, capabilityOf, requestOf, Serves, Broker.storageSet, mediated_executed,
      StorageService.set_fails_iff]
  | storageDelete key =>
    simp [Broker.call, capabilityOf, requestOf, Serves, Broker.storageDelete, mediated_executed,
      StorageService.delete_fails_iff]
  | submitStorageGet key timeout =>
    simp [Broker.call, capabilityOf, requestOf, Serves, mediated_submitStorageGet]
  | takeStorageGetResult id =>
    simp [Broker.call, capabilityOf, requestOf, Serves, Broker.takeStorageGetResult,
      mediated_takeOperationResult]
  | submitHttps templateId connectionId query =>
    simp only [Broker.call, capabilityOf, requestOf, Serves, mediated_answer]
    cases hhttps : b.https with
    | none => simpa [Broker.submitHttps, hhttps] using mediated_submitHttpsUnconfigured b templateId
    | some https =>
      simpa using not_mediated_submitHttps lib w b hhttps _ _ templateId connectionId query
  | takeHttpsResult id =>
    simp [Broker.call, capabilityOf, requestOf, Serves, Broker.takeHttpsResult,
      mediated_takeOperationResult]
  | cancelOperationById id meanwhile =>
    simp [Broker.call, capabilityOf, requestOf, Serves, mediated_cancelOperationById]
  | metricsCpuPercent =>
    simp [Broker.call, capabilityOf, requestOf, Serves, Broker.metricsCpuPercent,
      mediated_executed, MetricsService.cpuPercent_fails_iff, Option.isSome_iff_ne_none]
  | metricsMemory =>
    simp [Broker.call, capabilityOf, requestOf, Serves, Broker.metricsMemory, mediated_executed,
      MetricsService.memory_fails_iff, Option.isSome_iff_ne_none]
  | themeGetToken name =>
    simp [Broker.call, capabilityOf, requestOf, Serves, Broker.themeGetToken, mediated_executed,
      ThemeService.getToken_fails_iff, Option.isSome_iff_ne_none]
  | themeSubscribe =>
    simp [Broker.call, capabilityOf, requestOf, Serves, Broker.themeSubscribe, mediated_executed,
      ThemeService.subscribe]
  | themeUnsubscribe id =>
    simp [Broker.call, capabilityOf, requestOf, Serves, Broker.themeUnsubscribe,
      mediated_executed, ThemeService.unsubscribe_fails_iff, Option.isSome_iff_ne_none]

/-- What happens to a broker: calls of the guest, timer events that the instance has handled and
steps of the tasks that share the registry. -/
inductive BrokerLabel where
  | guest (w : Surroundings) (call : BrokerCall)
  | timerCompleted (id : ℕ)
  | registry (label : RegistryLabel ResultType OperationValue)

def next : BrokerLabel → Broker
  | .guest w call => (b.call lib w call).state
  | .timerCompleted id => b.timerComplete id
  | .registry label => b.elapse [label]

/-- A call of a run, with the state it was made in. -/
structure CallRecord where
  surroundings : Surroundings
  before : Broker
  call : BrokerCall

def CallRecord.Mediated (r : CallRecord) : Prop :=
  Services.Mediated (r.before.capabilityOf r.call) (r.before.requestOf lib r.surroundings r.call)
    (r.before.call lib r.surroundings r.call)

def CallRecord.Served (r : CallRecord) : Prop := r.before.Serves r.surroundings r.call

/-- The calls of a run, in order. -/
def calls (b : Broker) : List BrokerLabel → List CallRecord
  | [] => []
  | .guest w call :: labels => ⟨w,b,call⟩ :: (b.next lib (.guest w call)).calls labels
  | label :: labels => (b.next lib label).calls labels

/-- In every run, exactly the calls that the services do not refuse are mediated. -/
theorem calls_mediated_iff (labels : List BrokerLabel) :
    (∀ r ∈ b.calls lib labels, r.Mediated lib) ↔ ∀ r ∈ b.calls lib labels, r.Served :=
  forall₂_congr fun r _ => mediated_call_iff lib r.surroundings r.before r.call

end Broker

end Calls

/-- URLs as texts. -/
def textLibrary : HttpLibrary String where
  parse := some
  appendPairs url pairs :=
    url ++ "?" ++ String.intercalate "&" (pairs.map (fun p => p.1 ++ "=" ++ p.2))
  origin url := (httpsUrlOrigin url).getD "null"
  serialize := id
  headerName := some
  headerValue := some

def balanceTemplate : HttpTemplateDecl where
  id := "balance"
  method := "GET"
  url := "https://api.example.com/v1/balance"
  queryParams := ["account"]
  credentialHeader := "authorization"
  allowedStatuses := [200]
  maxResponseBytes := 4096
  timeoutMs := 2000
  cacheTtlMs := 0
  staleIfErrorMs := 0
  maxRetries := 0
  retryBaseDelayMs := 250

def balanceConnection : Connection :=
  ⟨⟨1⟩,⟨"cred://bank/account",by decide +kernel⟩,.healthy,0⟩

def balanceSurroundings : Surroundings := ⟨0,0,none,⟨fun _ => .ok [115, 51]⟩⟩

/-- A broker whose instance may make the request, with a registry that is empty. -/
def balanceBroker : Except OperationServiceError Broker := do
  let network : CapabilityParams := .network ["https://api.example.com"] 1 4096 2000
  let broker := Broker.new ⟨"dev.floatile.clock"⟩ 0
    ⟨⟨7⟩,[⟨.networkHttps,some network,.derivedFromInstall⟩]⟩ ⟨"dev.floatile.clock",7⟩ 0
  let state ← Registry.new OperationLimits.default 0 1
  let broker ← broker.withOperations ⟨⟨"dev.floatile.clock",7,0⟩,OperationLimits.default,state⟩
  .ok (broker.withHttps (HttpsService.new [balanceTemplate] [balanceConnection]))

/-- The credential is read before the request is allowed, and a result that is not there is
refused without the record of a denial. -/
theorem balance_calls_unmediated :
    ∃ b, balanceBroker = .ok b ∧
      (b.call textLibrary balanceSurroundings (.submitHttps "balance" ⟨1⟩ [])).trace.head? =
        some (.effect (.vaultRead balanceConnection.credential)) ∧
      (¬∀ r ∈ b.calls textLibrary
        [.guest balanceSurroundings (.submitHttps "balance" ⟨1⟩ [])], r.Mediated textLibrary) ∧
      ¬∀ r ∈ b.calls textLibrary
        [.guest balanceSurroundings (.takeHttpsResult 9)], r.Mediated textLibrary := by
  refine ⟨_,rfl,by rfl,fun h => ?_,fun h => ?_⟩
  · have hserves := (Broker.mediated_call_iff ..).mp (h _ List.mem_cons_self)
    cases hserves
  · have hserves := (Broker.mediated_call_iff ..).mp (h _ List.mem_cons_self)
    obtain ⟨operations,hoperations,result,hresult,-⟩ := hserves (by rfl)
    cases hoperations
    cases hresult

end Floatile.Services
