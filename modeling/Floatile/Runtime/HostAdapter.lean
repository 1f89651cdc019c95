import Floatile.Runtime.State
import Floatile.Services.Follows

/-! The host adapter: the imports of a guest, which pass every call on to the broker, with the
audit records that the calls leave. -/
namespace Floatile.Runtime

open Floatile.Core
open Floatile.Core.Capability Floatile.Core.Operation
open Floatile.Lib Floatile.Lib.Trace
open Floatile.Services Floatile.Services.Operation

inductive OperationError where
  | notAllowed
  | invalidInput
  | invalidOperationId
  | notActive
  | queueFull
  | invalidDeadline
  | resultNotAvailable
  | capabilityMismatch
  | unavailable
  | internal
  deriving DecidableEq, Repr

def mapOperationSubmit : OperationSubmitError → OperationError
  | .permissionDenied _ => .notAllowed
  | .invalidInput => .invalidInput
  | .queueFull => .queueFull
  | .invalidDeadline => .invalidDeadline
  | .unavailable => .unavailable
  | .idExhausted => .internal

def mapOperationTake : OperationTakeError → OperationError
  | .notAvailable => .resultNotAvailable
  | .capabilityMismatch | .typeMismatch => .capabilityMismatch
  | .permissionDenied _ => .notAllowed
  | .unavailable => .unavailable

def mapOperationCancel : OperationCancelError → OperationError
  | .notActive => .notActive
  | .permissionDenied _ => .notAllowed
  | .unavailable => .unavailable

/-- The errors of the imports. -/
inductive HostError where
  | ui (e : UiError)
  | log (e : LogError)
  | timer (e : TimerError)
  | storage (e : StorageError)
  | metrics (e : MetricsError)
  | theme (e : ThemeError)
  | operation (e : OperationError)
  deriving DecidableEq, Repr

def hostError : CallError → HostError
  | .update _ => .ui .notAllowed
  | .log e => .log e
  | .timer e => .timer e
  | .storage e => .storage e
  | .submit e => .operation (mapOperationSubmit e)
  | .take e => .operation (mapOperationTake e)
  | .cancel e => .operation (mapOperationCancel e)
  | .metrics e => .metrics e
  | .theme e => .theme e

/-- The audit records among the events of a call. -/
def auditsOf (trace : List BrokerEvent) : List AuditEvent :=
  trace.filterMap (fun
    | .audit record => some record
    | _ => none)

/-- The state of the host of an instance: its broker and its user interface. -/
structure HostAdapter where
  broker : Broker
  ui : UiState

abbrev HostResult (α : Type) := Outcome HostAdapter AuditEvent α

/-- Zero is not the id of an operation, and the broker is not asked about it. -/
def namesNoOperation : BrokerCall → Bool
  | .takeStorageGetResult id | .takeHttpsResult id | .cancelOperationById id _ => id = 0
  | _ => false

/-- A call as it is passed on: the guest gives times in milliseconds, and inside a call only the
tasks of the registry go on. -/
def passedOn : BrokerCall → BrokerCall
  | .submitStorageGet key timeoutMs => .submitStorageGet key (millis timeoutMs)
  | .cancelOperationById id meanwhile =>
    .cancelOperationById id (meanwhile.filter (fun label => ByTask label))
  | call => call

namespace HostAdapter

/-- The host that an update of the State is made on. -/
def updated (s : HostAdapter) : InstanceHostState :=
  ⟨s.broker.grants.caps,s.broker.audit,s.broker.grants.id,s.ui⟩

/-- A call that the broker answers. -/
def viaBroker (s : HostAdapter) (o : BrokerResult Broker CallError CallValue) :
    HostResult (Except HostError CallValue) :=
  ⟨o.result.mapError hostError,{ s with broker := o.state },auditsOf o.trace⟩

variable {υ : Type} (lib : HttpLibrary υ) (fromStr : String → Option Json)
  (toVec : Json → Option (List UInt8))

/-- A call of the guest. The State is updated by the adapter itself. -/
def call (s : HostAdapter) (w : Surroundings) : BrokerCall → HostResult (Except HostError CallValue)
  | .updateState patchJson =>
    let out := updateState fromStr toVec s.updated patchJson w.now
    ⟨(out.result.mapError .ui).map (fun _ => .done),{ s with ui := out.host.ui },[out.event]⟩
  | call =>
    if namesNoOperation call then ⟨.error (.operation .invalidOperationId),s,[]⟩
    else s.viaBroker (s.broker.call lib w (passedOn call))

/-- The bridge reports a completion to the broker. -/
def completed (s : HostAdapter) (completion : OperationCompletion)
    (disposition : OperationCompletionDisposition) : HostResult Bool :=
  let o := s.broker.auditOperationCompletion completion disposition
  ⟨o.result,{ s with broker := o.state },auditsOf o.trace⟩

/-- The relay of the actor records every completion. -/
def relayed (s : HostAdapter) (completion : OperationCompletion)
    (disposition : OperationCompletionDisposition) : HostResult Unit :=
  ⟨(),s,[s.broker.audit.record completion.capability true none
    (Broker.completionDetail completion disposition)]⟩

end HostAdapter

/-- What happens to a host: calls of the guest, timer events that the instance has handled, steps
of the tasks of its registry, and completions that the bridge or the relay have dealt with. -/
inductive AdapterLabel where
  | guest (w : Surroundings) (call : BrokerCall)
  | timerCompleted (id : ℕ)
  | task (label : RegistryLabel ResultType OperationValue)
  | completed (completion : OperationCompletion) (disposition : OperationCompletionDisposition)
  | relayed (completion : OperationCompletion) (disposition : OperationCompletionDisposition)

/-- A call with its result. -/
inductive Exchange where
  | called (call : BrokerCall) (result : Except HostError CallValue)
  | completed (completion : OperationCompletion) (disposition : OperationCompletionDisposition)
      (recorded : Bool)
  | relayed (completion : OperationCompletion) (disposition : OperationCompletionDisposition)

namespace HostAdapter

variable {υ : Type} (lib : HttpLibrary υ) (fromStr : String → Option Json)
  (toVec : Json → Option (List UInt8))

def step (s : HostAdapter) : AdapterLabel → HostResult (Option Exchange)
  | .guest w call => (s.call lib fromStr toVec w call).map (fun r => some (.called call r))
  | .timerCompleted id => ⟨none,{ s with broker := s.broker.timerComplete id },[]⟩
  | .task label =>
    ⟨none,if ByTask label then { s with broker := s.broker.elapse [label] } else s,[]⟩
  | .completed completion disposition =>
    (s.completed completion disposition).map (fun r => some (.completed completion disposition r))
  | .relayed completion disposition =>
    (s.relayed completion disposition).map (fun _ => some (.relayed completion disposition))

/-- The calls of a run with their results. -/
def exchanges (s : HostAdapter) : List AdapterLabel → List Exchange
  | [] => []
  | i :: is =>
    let o := s.step lib fromStr toVec i
    o.result.toList ++ o.state.exchanges is

/-- The audit records of a run. -/
def audits (s : HostAdapter) : List AdapterLabel → List AuditEvent
  | [] => []
  | i :: is =>
    let o := s.step lib fromStr toVec i
    o.trace ++ o.state.audits is

/-- Every step of a run meets a condition on the state before it. -/
def StepsMeet (P : HostAdapter → AdapterLabel → Prop) (s : HostAdapter) :
    List AdapterLabel → Prop
  | [] => True
  | i :: is => P s i ∧ (s.step lib fromStr toVec i).state.StepsMeet P is

end HostAdapter

end Floatile.Runtime
