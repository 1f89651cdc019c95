import Floatile.Services.Authorize
import Floatile.Services.Http
import Floatile.Services.Operation

/-! The broker of an instance, the only way from a guest to a service. A call returns its result
with the trace of decisions, audit records and effects it caused. -/
namespace Floatile.Services

open Floatile.Core
open Floatile.Core.Capability Floatile.Core.Operation
open Floatile.Lib Floatile.Lib.Trace
open Floatile.Services.Operation

inductive BrokerEvent where
  | decided (capability : CapabilityId) (request : Option CapabilityParams)
      (decision : PermissionDecision)
  | audit (record : AuditEvent)
  | effect (effect : ServiceEffect)
  deriving DecidableEq

abbrev BrokerResult (σ ε α : Type) := Outcome σ BrokerEvent (Except ε α)

/-- The types of the results that operations leave in the registry. -/
inductive ResultType where
  | storedText
  | httpResponse
  deriving DecidableEq, Repr

inductive OperationValue where
  | storedText (value : Option String)
  | httpResponse (response : HttpResponse)
  deriving DecidableEq, Repr

/-- The registry bound to a broker. -/
structure OperationRegistry where
  owner : OperationOwner
  limits : OperationLimits
  state : Registry ResultType OperationValue

structure Broker where
  plugin : PluginId
  generation : ℕ
  grants : InstanceGrant
  audit : AuditSink
  log : LogService
  timer : TimerService
  storage : StorageService
  metrics : MetricsService
  theme : ThemeService
  operations : Option OperationRegistry
  https : Option HttpsService
  httpsRateMax : ℕ
  httpsRate : RateWindow

/-- What a call finds outside the broker: the clocks, the process and the credentials. -/
structure Surroundings where
  now : ℕ
  unixMillis : ℕ
  process : Option ProcessMetrics
  vault : CredentialVault

/-- The budgets that `Broker::new` reads from the grants. -/
structure Quotas where
  storageMaxBytes : ℕ
  timerQuota : Option (ℕ × ℕ)
  metricsRate : ℕ
  httpsRateMax : ℕ

def Quotas.read (q : Quotas) (grant : Grant) : Quotas :=
  match grant.capability, grant.params with
  | .storageWrite, some (.storage _ maxBytes) => { q with storageMaxBytes := maxBytes }
  | .timerSchedule, some (.timer maxPerMinute maxActive) =>
    { q with timerQuota := some (maxPerMinute,maxActive) }
  | .systemCpu, some (.metrics sampleRateHz) => { q with metricsRate := sampleRateHz }
  | .networkHttps, some (.network _ maxRequestsPerMinute _ _) =>
    { q with httpsRateMax := maxRequestsPerMinute }
  | _, _ => q

def Broker.new (plugin : PluginId) (generation : ℕ) (instanceGrants : InstanceGrant)
    (audit : AuditSink) (now : ℕ) : Broker :=
  let grants : InstanceGrant := ⟨instanceGrants.id,mergeInherent instanceGrants.caps⟩
  let quotas := grants.caps.foldl Quotas.read ⟨64 * 1024,none,1,0⟩
  let timer := TimerService.new now
  {
    plugin := plugin
    generation := generation
    grants := grants
    audit := audit
    log := LogService.new now
    timer := match quotas.timerQuota with
      | some (maxPerMinute,maxActive) => timer.setQuota maxPerMinute maxActive
      | none => timer
    storage := StorageService.new quotas.storageMaxBytes
    metrics := MetricsService.new quotas.metricsRate
    theme := ThemeService.new
    operations := none
    https := none
    httpsRateMax := quotas.httpsRateMax
    httpsRate := ⟨now,0⟩ }

/-- Binds a registry of the same plugin, instance and generation. -/
def Broker.withOperations (b : Broker) (operations : OperationRegistry) :
    Except OperationServiceError Broker :=
  let owner := operations.owner
  if owner.plugin ≠ b.plugin.text ∨ owner.instanceId ≠ b.grants.id.value ∨
      owner.generation ≠ b.generation then .error .ownerMismatch
  else .ok { b with operations := some operations }

def Broker.withHttps (b : Broker) (https : HttpsService) : Broker := { b with https := some https }

/-- The events of a service as events of the broker that called it. -/
def executed {σ ε α : Type} (o : Outcome σ ServiceEffect (Except ε α)) (put : σ → Broker) :
    BrokerResult Broker ε α :=
  ⟨o.result,put o.state,o.trace.map .effect⟩

/-- A whole call of `submit`. It can also be interleaved with other tasks; all that a broker does
with its errors is to record them. -/
def Operation.Registry.submit {τ α : Type} (limits : OperationLimits) (s : Registry τ α)
    (capability : CapabilityId) (timeout : ℕ) : Except OperationSubmitError ℕ × Registry τ α :=
  match s.draw limits capability timeout with
  | .error e => (.error e,s)
  | .ok drawn =>
    let job : OperationJob := ⟨s.nextId,capability,s.now + timeout⟩
    let active := s.active.insert job.id ⟨capability⟩
    let rejected (error : OperationSubmitError) : Registry τ α := { drawn with
      active := active.erase job.id
      submissions := s.submissions
      refused := (job.id,error) :: s.refused }
    match s.jobs.trySend job with
    | .ok jobs => (.ok job.id,{ drawn with
        active := active
        submissions := s.submissions
        jobs := jobs
        accepted := job.id :: s.accepted })
    | .error .full => (.error .queueFull,rejected .queueFull)
    | .error .closed => (.error .unavailable,rejected .unavailable)

theorem Operation.Registry.draw_eq_ok {τ α : Type} {limits : OperationLimits}
    {s drawn : Registry τ α} {capability : CapabilityId} {timeout : ℕ}
    (h : s.draw limits capability timeout = .ok drawn) :
    ∃ counter, drawn = { s with
      nextId := counter
      submissions := ⟨⟨s.nextId,capability,s.now + timeout⟩,.allocated⟩ :: s.submissions } := by
  unfold Registry.draw nextOperationId at h
  split_ifs at h
  · cases h
  · cases h
    exact ⟨_,rfl⟩

/-- A whole call is a sequence of steps. -/
theorem Operation.Registry.submit_steps {τ α : Type} [DecidableEq τ] (owner : OperationOwner)
    (limits : OperationLimits) (s : Registry τ α) (capability : CapabilityId) (timeout : ℕ)
    (hheld : s.held = true) :
    ∃ labels : List (RegistryLabel τ α), labels.foldlM (Registry.step owner limits) s =
      some (s.submit limits capability timeout).2 := by
  unfold Registry.submit
  cases hdraw : s.draw limits capability timeout with
  | error e => exact ⟨[.submit capability timeout],by simp [Registry.step, hheld, hdraw]⟩
  | ok drawn =>
    obtain ⟨counter,rfl⟩ := Registry.draw_eq_ok hdraw
    cases hsend : s.jobs.trySend ⟨s.nextId,capability,s.now + timeout⟩ with
    | ok jobs =>
      refine ⟨[.submit capability timeout,.insertActive 0,.trySend 0],?_⟩
      simp [Registry.step, hheld, hdraw, hsend]
    | error e =>
      refine ⟨[.submit capability timeout,.insertActive 0,.trySend 0,.removeRejected 0],?_⟩
      cases e <;> simp [Registry.step, hheld, hdraw, hsend]

/-- Steps that other tasks take; a step that is not enabled is not taken. -/
def OperationRegistry.elapse (operations : OperationRegistry)
    (labels : List (RegistryLabel ResultType OperationValue)) : OperationRegistry :=
  let advance s label := (Registry.step operations.owner operations.limits s label).getD s
  { operations with state := labels.foldl advance operations.state }

def OperationRegistry.activeCapability (operations : OperationRegistry) (id : ℕ) :
    Option CapabilityId :=
  (operations.state.active.get id).map ActiveOperation.capability

namespace Broker

def authorize (b : Broker) (c : CapabilityId) (request : Option CapabilityParams)
    (detail : String) : BrokerResult Broker DenyReason Unit :=
  let (result,record) := Services.authorize b.grants.caps b.audit c request detail
  let decision := Capability.decide (findGrant b.grants.caps c) request
  ⟨result,b,[.decided c request decision,.audit record]⟩

/-- The parameters of the existing grant, used as the request for them. -/
def existingRequest (b : Broker) (c : CapabilityId) : Option CapabilityParams :=
  (findGrant b.grants.caps c).bind Grant.params

def authorizeExistingGrant (b : Broker) (c : CapabilityId) (detail : String) :
    BrokerResult Broker DenyReason Unit :=
  b.authorize c (b.existingRequest c) detail

/-- An authorization whose denial ends the call. -/
def guarded {ε α : Type} (authorization : BrokerResult Broker DenyReason Unit)
    (deny : DenyReason → ε) (execute : BrokerResult Broker ε α) : BrokerResult Broker ε α :=
  match authorization.result with
  | .error reason => ⟨.error (deny reason),authorization.state,authorization.trace⟩
  | .ok () => execute.after authorization.trace

def redactSize (value : String) : String := s!"message len={Text.charCount value}"

/-- The check in front of an update of the State, which the runtime carries out. -/
def authorizeUpdate (b : Broker) (patchJson : String) : BrokerResult Broker DenyReason Unit :=
  b.authorize .uiUpdateState none s!"ui update-state patch={Text.byteLen patchJson}B"

/-- The answer of the permission check is not looked at. -/
def clockNow (w : Surroundings) (b : Broker) : Outcome Broker BrokerEvent ClockSnapshot :=
  (b.authorize .clockRead none "clock").map (fun _ => clockSnapshot w.unixMillis)

def logMessage (w : Surroundings) (b : Broker) (level : LogLevel) (message : String) :
    BrokerResult Broker LogError Unit :=
  guarded (b.authorize .logWrite none (redactSize message)) LogError.ofDenyReason
    (executed (b.log.log w.now level message) (fun log => { b with log := log }))

def timerSchedule (w : Surroundings) (b : Broker) (delayMs : ℕ) :
    BrokerResult Broker TimerError ℕ :=
  guarded (b.authorize .timerSchedule (some (.timer 1 1)) "schedule timer")
    TimerError.ofDenyReason
    (executed (b.timer.schedule w.now delayMs) (fun timer => { b with timer := timer }))

def timerCancel (b : Broker) (id : ℕ) : BrokerResult Broker TimerError Unit :=
  guarded (b.authorize .timerSchedule (some (.timer 1 1)) "cancel timer")
    TimerError.ofDenyReason
    (executed (b.timer.cancel id) (fun timer => { b with timer := timer }))

/-- Bookkeeping after a timer event; no capability is involved. -/
def timerComplete (b : Broker) (id : ℕ) : Broker := { b with timer := b.timer.complete id }

def storageGet (b : Broker) (key : String) : BrokerResult Broker StorageError (Option String) :=
  guarded (b.authorize .storageRead (some (.storage [key] 0)) s!"storage get key={key}")
    StorageError.ofDenyReason
    (executed (b.storage.get key) (fun storage => { b with storage := storage }))

def storageSet (b : Broker) (key value : String) : BrokerResult Broker StorageError Unit :=
  guarded (b.authorize .storageWrite (some (.storage [key] (Text.byteLen value)))
      s!"storage set key={key} len={Text.byteLen value}")
    StorageError.ofDenyReason
    (executed (b.storage.set key value) (fun storage => { b with storage := storage }))

def storageDelete (b : Broker) (key : String) : BrokerResult Broker StorageError Unit :=
  guarded (b.authorize .storageWrite (some (.storage [key] 0)) s!"storage delete key={key}")
    StorageError.ofDenyReason
    (executed (b.storage.delete key) (fun storage => { b with storage := storage }))

def metricsCpuPercent (w : Surroundings) (b : Broker) : BrokerResult Broker MetricsError Float :=
  guarded (b.authorize .systemCpu (some (.metrics 1)) "metrics cpu-percent")
    MetricsError.ofDenyReason
    (executed (b.metrics.cpuPercent w.now w.process) (fun metrics => { b with metrics := metrics }))

def metricsMemory (w : Surroundings) (b : Broker) :
    BrokerResult Broker MetricsError MemorySnapshot :=
  guarded (b.authorize .systemMemory none "metrics memory") MetricsError.ofDenyReason
    (executed (b.metrics.memory w.process) (fun metrics => { b with metrics := metrics }))

def themeGetToken (b : Broker) (name : String) : BrokerResult Broker ThemeError (Option String) :=
  guarded (b.authorize .themeSubscribe none "theme get-token") ThemeError.ofDenyReason
    (executed (b.theme.getToken name) (fun theme => { b with theme := theme }))

def themeSubscribe (b : Broker) : BrokerResult Broker ThemeError ℕ :=
  guarded (b.authorize .themeSubscribe none "theme subscribe") ThemeError.ofDenyReason
    (executed b.theme.subscribe (fun theme => { b with theme := theme }))

def themeUnsubscribe (b : Broker) (id : ℕ) : BrokerResult Broker ThemeError Unit :=
  guarded (b.authorize .themeSubscribe none "theme unsubscribe") ThemeError.ofDenyReason
    (executed (b.theme.unsubscribe id) (fun theme => { b with theme := theme }))

def submitErrorReason : OperationSubmitError → DenyReason
  | .permissionDenied reason => reason
  | .queueFull => .quotaExceeded
  | .idExhausted => .quotaExceeded
  | .invalidInput => .invalidInput
  | .invalidDeadline => .invalidInput
  | .unavailable => .environmentUnavailable

def submitErrorCode : OperationSubmitError → String
  | .permissionDenied _ => "permission-denied"
  | .invalidInput => "invalid-input"
  | .queueFull => "queue-full"
  | .invalidDeadline => "invalid-deadline"
  | .unavailable => "unavailable"
  | .idExhausted => "id-exhausted"

/-- The registry's answer to a submission; without a registry there is none to ask. -/
def submitOrRefuse (b : Broker) (c : CapabilityId) (timeout : ℕ) :
    BrokerResult Broker OperationSubmitError ℕ :=
  match b.operations with
  | none => ⟨.error .unavailable,b,[]⟩
  | some operations =>
    let (result,state) := operations.state.submit operations.limits c timeout
    ⟨result,{ b with operations := some { operations with state := state } },
      [.effect (.operationSubmit c)]⟩

def submitAuthorizedOperation (b : Broker) (c : CapabilityId) (timeout : ℕ) :
    BrokerResult Broker OperationSubmitError ℕ :=
  let submitted := b.submitOrRefuse c timeout
  match submitted.result with
  | .ok _ => submitted
  | .error error => { submitted with trace := submitted.trace ++
      [.audit (b.audit.record c false (some (submitErrorReason error))
        s!"operation submit failed={submitErrorCode error}")] }

def submitOperation (b : Broker) (c : CapabilityId) (request : Option CapabilityParams)
    (timeout : ℕ) (auditDetail : String) : BrokerResult Broker OperationSubmitError ℕ :=
  guarded (b.authorize c request auditDetail) .permissionDenied
    (b.submitAuthorizedOperation c timeout)

def cancelOperation (b : Broker) (c : CapabilityId) (id : ℕ) :
    BrokerResult Broker OperationCancelError Unit :=
  guarded (b.authorizeExistingGrant c s!"operation={id} action=cancel") .permissionDenied
    (match b.operations with
    | none => ⟨.error .unavailable,b,[]⟩
    | some operations =>
      let (result,state) := operations.state.cancel c id
      ⟨result,{ b with operations := some { operations with state := state } },[]⟩)

/-- The capability is looked up in the registry. Between the lookup and the cancellation the
registry is not locked, and `meanwhile` are the steps that other tasks take there. -/
def cancelOperationById (b : Broker) (id : ℕ)
    (meanwhile : List (RegistryLabel ResultType OperationValue)) :
    BrokerResult Broker OperationCancelError Unit :=
  match b.operations with
  | none => ⟨.error .unavailable,b,[]⟩
  | some operations =>
    match operations.activeCapability id with
    | none => ⟨.error .notActive,b,[]⟩
    | some c => ({ b with operations := some (operations.elapse meanwhile) }).cancelOperation c id

def takeOperationResult (b : Broker) (c : CapabilityId) (resultType : ResultType) (id : ℕ) :
    BrokerResult Broker OperationTakeError OperationValue :=
  guarded (b.authorizeExistingGrant c s!"operation={id} action=take-result") .permissionDenied
    (match b.operations with
    | none => ⟨.error .unavailable,b,[]⟩
    | some operations =>
      let (result,state) := operations.state.take c resultType id
      ⟨result,{ b with operations := some { operations with state := state } },[]⟩)

/-- The key is checked before the operation is authorized. -/
def submitStorageGet (b : Broker) (key : String) (timeout : ℕ) :
    BrokerResult Broker OperationSubmitError ℕ :=
  match validKey key with
  | .error _ => ⟨.error .invalidInput,b,[]⟩
  | .ok () => b.submitOperation .storageRead (some (.storage [key] 0)) timeout
      s!"operation=storage-get key={Text.byteLen key}B"

def takeStorageGetResult (b : Broker) (id : ℕ) :
    BrokerResult Broker OperationTakeError OperationValue :=
  b.takeOperationResult .storageRead .storedText id

/-- One use of the budget of the current minute, if there is one left. -/
def reserveHttpsRate (w : Surroundings) (b : Broker) : Bool × Broker :=
  let window := b.httpsRate.roll w.now
  if b.httpsRateMax ≤ window.used then (false,{ b with httpsRate := window })
  else (true,{ b with httpsRate := window.count })

/-- The calls of a broker without templates and connections end here. -/
def submitHttpsUnconfigured (b : Broker) (templateId : String) :
    BrokerResult Broker OperationSubmitError ℕ :=
  guarded (b.authorizeExistingGrant .networkHttps
      s!"https template={Text.byteLen templateId}B service=unconfigured") .permissionDenied
    ⟨.error .unavailable,b,[.audit (b.audit.record .networkHttps false
      (some .environmentUnavailable) "https service=unconfigured")]⟩

def httpsSubmitError : HttpServiceError → OperationSubmitError
  | .invalidInput => .invalidInput
  | .templateUnavailable => .invalidInput
  | .connectionNotGranted => .invalidInput
  | _ => .unavailable

/-- The part of `submit_https` after the permission check. -/
def submitPrepared {υ : Type} (w : Surroundings) (b : Broker)
    (prepared : PreparedHttpOperation υ) : BrokerResult Broker OperationSubmitError ℕ :=
  match b.reserveHttpsRate w with
  | (false,b) => ⟨.error (.permissionDenied .quotaExceeded),b,[.audit (b.audit.record
      .networkHttps false (some .quotaExceeded) "https rate-limit")]⟩
  | (true,b) => b.submitAuthorizedOperation .networkHttps prepared.timeout

def submitHttps {υ : Type} (lib : HttpLibrary υ) (w : Surroundings) (b : Broker)
    (templateId : String) (connectionId : ConnectionId) (query : List QueryParam) :
    BrokerResult Broker OperationSubmitError ℕ :=
  match b.https with
  | none => b.submitHttpsUnconfigured templateId
  | some https =>
    let preparation := https.prepare lib w.vault templateId connectionId query
    let events := preparation.trace.map BrokerEvent.effect
    match preparation.result with
    | .error error => ⟨.error (httpsSubmitError error),b,events⟩
    | .ok prepared =>
      (guarded (b.authorize .networkHttps (some prepared.requestParams)
          s!"operation=https template={Text.byteLen templateId}B connection={connectionId.value}")
        .permissionDenied (b.submitPrepared w prepared)).after events

def takeHttpsResult (b : Broker) (id : ℕ) :
    BrokerResult Broker OperationTakeError OperationValue :=
  b.takeOperationResult .networkHttps .httpResponse id

/-- What the audit is told about a completion and what became of it. -/
def completionDetail (completion : OperationCompletion)
    (disposition : OperationCompletionDisposition) : String :=
  s!"operation={completion.id} terminal={completion.terminal.code} delivery={disposition.code}"

/-- The record of a completion of this instance, made by the bridge. -/
def auditOperationCompletion (b : Broker) (completion : OperationCompletion)
    (disposition : OperationCompletionDisposition) : Outcome Broker BrokerEvent Bool :=
  match b.operations with
  | none => ⟨false,b,[]⟩
  | some operations =>
    if completion.isCurrentFor operations.owner then
      ⟨true,b,[.audit (b.audit.record completion.capability true none
        (completionDetail completion disposition))]⟩
    else ⟨false,b,[]⟩

end Broker

end Floatile.Services
