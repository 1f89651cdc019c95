import Floatile.Core.Operation
import Floatile.Lib.Channel

/-! The registry that runs operations under a budget. The steps are those between which other
tasks can run: every use of a lock, of a queue or of the clock is one step. -/
namespace Floatile.Services.Operation

open Floatile.Core.Capability Floatile.Core.Operation
open Floatile.Lib

structure OperationLimits where
  queueCapacity : ℕ
  completionCapacity : ℕ
  maxInFlight : ℕ
  maxRetainedResults : ℕ
  maxTimeout : ℕ
  deriving DecidableEq, Repr

inductive OperationServiceError where
  | invalidLimits
  | runtimeUnavailable
  | ownerMismatch
  deriving DecidableEq, Repr

inductive OperationSubmitError where
  | permissionDenied (reason : DenyReason)
  | invalidInput
  | queueFull
  | invalidDeadline
  | unavailable
  | idExhausted
  deriving DecidableEq, Repr

inductive OperationCancelError where
  | notActive
  | permissionDenied (reason : DenyReason)
  | unavailable
  deriving DecidableEq, Repr

inductive OperationTakeError where
  | notAvailable
  | capabilityMismatch
  | typeMismatch
  | permissionDenied (reason : DenyReason)
  | unavailable
  deriving DecidableEq, Repr

def OperationLimits.validate (limits : OperationLimits) :
    Except OperationServiceError OperationLimits :=
  if limits.queueCapacity = 0 ∨ limits.completionCapacity = 0 ∨ limits.maxInFlight = 0 ∨
      limits.maxRetainedResults = 0 ∨ limits.maxTimeout = 0 then .error .invalidLimits
  else .ok limits

def OperationLimits.default : OperationLimits := ⟨16,16,4,16,30000000000⟩

/-- A value of any type with the type it was made from. -/
structure ErasedValue (τ α : Type) where
  typeId : τ
  value : α
  deriving DecidableEq

structure StoredResult (τ α : Type) where
  capability : CapabilityId
  value : ErasedValue τ α
  deriving DecidableEq

structure ActiveOperation where
  capability : CapabilityId
  deriving DecidableEq

structure OperationJob where
  id : ℕ
  capability : CapabilityId
  deadline : ℕ
  deriving DecidableEq, Repr

/-- How far a call of `submit` that has drawn an id has come. -/
inductive SubmitPhase where
  | allocated
  | inserted
  | rejected (error : OperationSubmitError)
  deriving DecidableEq

structure Submission where
  job : OperationJob
  phase : SubmitPhase
  deriving DecidableEq

/-- How far `run_operation` has come. -/
inductive TaskPhase (τ α : Type) where
  | spawned
  | selecting
  | finished (result : Except OperationFailure (ErasedValue τ α))
  | settled (terminal : OperationTerminal)
  | sending (terminal : OperationTerminal)
  | unsent

structure Task (τ α : Type) where
  job : OperationJob
  phase : TaskPhase τ α

inductive Dispatcher where
  | awaitingPermit
  | awaitingJob
  | ended
  deriving DecidableEq

/-- The registry, its dispatcher and its tasks. The fields from `accepted` on only record what
has happened. A flag of cancellation is kept under the id of its operation. -/
structure Registry (τ α : Type) where
  now : ℕ
  nextId : ℕ
  held : Bool
  active : OrdMap ℕ ActiveOperation
  cancelled : List ℕ
  results : OrdMap ℕ (StoredResult τ α)
  submissions : List Submission
  jobs : Channel OperationJob
  dispatcher : Dispatcher
  permits : ℕ
  tasks : List (Task τ α)
  completions : Channel OperationCompletion
  accepted : List ℕ
  refused : List (ℕ × OperationSubmitError)
  ran : List ℕ
  retained : List (ℕ × CapabilityId)
  taken : List ℕ
  sent : List OperationCompletion
  undelivered : List ℕ

/-- Steps of callers, of the dispatcher and of the running tasks. Calls and tasks are named by
their position; `poll` is what the work returns when it is polled. -/
inductive RegistryLabel (τ α : Type) where
  | tick
  | drawElsewhere
  | submit (capability : CapabilityId) (timeout : ℕ)
  | insertActive (n : ℕ)
  | trySend (n : ℕ)
  | removeRejected (n : ℕ)
  | cancel (capability : CapabilityId) (id : ℕ)
  | cancelAll
  | dropRegistry
  | acquirePermit
  | receiveJob
  | run (n : ℕ) (poll : Option (Except OperationFailure (ErasedValue τ α)))
  | take (capability : CapabilityId) (typeId : τ) (id : ℕ)
  | discard (id : ℕ)

/-- The latest instant the clock can express, in nanoseconds. -/
def instantLimit : ℕ := 2^63 * 10^9

/-- The counter is 64 bits wide and shared by all registries of the process. -/
def nextOperationId (counter : ℕ) : Except OperationSubmitError (ℕ × ℕ) :=
  if counter = 2^64 - 1 then .error .idExhausted else .ok (counter,counter + 1)

namespace Registry

variable {τ α : Type} [DecidableEq τ] (owner : OperationOwner) (limits : OperationLimits)

/-- A registry made when the shared counter stands at `counter` and the clock at `now`. -/
def new (now counter : ℕ) : Except OperationServiceError (Registry τ α) := do
  let limits ← limits.validate
  .ok {
    now := now
    nextId := counter
    held := true
    active := OrdMap.empty
    cancelled := []
    results := OrdMap.empty
    submissions := []
    jobs := Channel.empty limits.queueCapacity
    dispatcher := .awaitingPermit
    permits := limits.maxInFlight
    tasks := []
    completions := Channel.empty limits.completionCapacity
    accepted := []
    refused := []
    ran := []
    retained := []
    taken := []
    sent := []
    undelivered := [] }

/-- The part of `submit` before its first lock. -/
def draw (s : Registry τ α) (capability : CapabilityId) (timeout : ℕ) :
    Except OperationSubmitError (Registry τ α) :=
  if timeout = 0 ∨ limits.maxTimeout < timeout then .error .invalidDeadline
  else if instantLimit < s.now + timeout then .error .invalidDeadline
  else do
    let (id,counter) ← nextOperationId s.nextId
    let job : OperationJob := ⟨id,capability,s.now + timeout⟩
    .ok { s with nextId := counter, submissions := ⟨job,.allocated⟩ :: s.submissions }

def cancel (s : Registry τ α) (capability : CapabilityId) (id : ℕ) :
    Except OperationCancelError Unit × Registry τ α :=
  match s.active.get id with
  | none => (.error .notActive,s)
  | some operation =>
    if operation.capability ≠ capability then (.error .notActive,s)
    else (.ok (),{ s with cancelled := id :: s.cancelled })

def cancelAll (s : Registry τ α) : ℕ × Registry τ α :=
  (s.active.entries.length,{ s with cancelled := s.active.entries.map Prod.fst ++ s.cancelled })

/-- Takes a result out. What does not match the capability or the type is put back. -/
def takeResult (results : OrdMap ℕ (StoredResult τ α)) (capability : CapabilityId) (typeId : τ)
    (id : ℕ) : Except OperationTakeError α × OrdMap ℕ (StoredResult τ α) :=
  match results.get id with
  | none => (.error .notAvailable,results)
  | some result =>
    let rest := results.erase id
    if result.capability ≠ capability then (.error .capabilityMismatch,rest.insert id result)
    else if result.value.typeId = typeId then (.ok result.value.value,rest)
    else (.error .typeMismatch,rest.insert id ⟨result.capability,result.value⟩)

def take (s : Registry τ α) (capability : CapabilityId) (typeId : τ) (id : ℕ) :
    Except OperationTakeError α × Registry τ α :=
  match takeResult s.results capability typeId id with
  | (.error e,results) => (.error e,{ s with results := results })
  | (.ok value,results) => (.ok value,{ s with results := results, taken := id :: s.taken })

def discard (s : Registry τ α) (id : ℕ) : Registry τ α :=
  { s with results := s.results.erase id }

/-- The outcome of a poll of the work against the deadline. -/
def pollUntil (now deadline : ℕ) (poll : Option (Except OperationFailure (ErasedValue τ α))) :
    TaskPhase τ α :=
  match poll with
  | some result => .finished result
  | none => if deadline ≤ now then .finished (.error .timeout) else .selecting

/-- Retains a result while there is room for it. -/
def settle (s : Registry τ α) (job : OperationJob)
    (result : Except OperationFailure (ErasedValue τ α)) : OperationTerminal × Registry τ α :=
  match result with
  | .error e => (.failed e,s)
  | .ok value =>
    if limits.maxRetainedResults ≤ s.results.entries.length then (.failed .resultDropped,s)
    else (.succeeded,{ s with
      results := s.results.insert job.id ⟨job.capability,value⟩
      retained := (job.id,job.capability) :: s.retained })

/-- One step of `run_operation`. -/
def runTask (s : Registry τ α) (n : ℕ)
    (poll : Option (Except OperationFailure (ErasedValue τ α))) : Option (Registry τ α) :=
  match s.tasks[n]? with
  | none => none
  | some ⟨job,.spawned⟩ =>
    if job.deadline ≤ s.now then
      some { s with tasks := s.tasks.set n ⟨job,.finished (.error .timeout)⟩ }
    else some { s with tasks := s.tasks.set n ⟨job,.selecting⟩ }
  | some ⟨job,.selecting⟩ =>
    if job.id ∈ s.cancelled then
      some { s with tasks := s.tasks.set n ⟨job,.finished (.error .cancelled)⟩ }
    else some { s with
      ran := job.id :: s.ran
      tasks := s.tasks.set n ⟨job,pollUntil s.now job.deadline poll⟩ }
  | some ⟨job,.finished result⟩ =>
    let (terminal,s') := settle limits s job result
    some { s' with tasks := s'.tasks.set n ⟨job,.settled terminal⟩ }
  | some ⟨job,.settled terminal⟩ =>
    some { s with
      active := s.active.erase job.id
      tasks := s.tasks.set n ⟨job,.sending terminal⟩ }
  | some ⟨job,.sending terminal⟩ =>
    let completion : OperationCompletion := ⟨job.id,owner,job.capability,terminal⟩
    match s.completions.trySend completion with
    | .ok completions => some { s with
        completions := completions
        sent := completion :: s.sent
        tasks := s.tasks.eraseIdx n
        permits := s.permits + 1 }
    | .error .full => none
    | .error .closed => some { s with tasks := s.tasks.set n ⟨job,.unsent⟩ }
  | some ⟨job,.unsent⟩ =>
    some { s with
      results := s.results.erase job.id
      undelivered := job.id :: s.undelivered
      tasks := s.tasks.eraseIdx n
      permits := s.permits + 1 }

def step (s : Registry τ α) : RegistryLabel τ α → Option (Registry τ α)
  | .tick => some { s with now := s.now + 1 }
  | .drawElsewhere =>
    match nextOperationId s.nextId with
    | .ok (_,counter) => some { s with nextId := counter }
    | .error _ => some s
  | .submit capability timeout =>
    if s.held then
      match draw limits s capability timeout with
      | .ok s' => some s'
      | .error _ => some s
    else none
  | .insertActive n =>
    match s.submissions[n]? with
    | some ⟨job,.allocated⟩ => some { s with
        active := s.active.insert job.id ⟨job.capability⟩
        submissions := s.submissions.set n ⟨job,.inserted⟩ }
    | _ => none
  | .trySend n =>
    match s.submissions[n]? with
    | some ⟨job,.inserted⟩ =>
      match s.jobs.trySend job with
      | .ok jobs => some { s with
          jobs := jobs
          submissions := s.submissions.eraseIdx n
          accepted := job.id :: s.accepted }
      | .error .full =>
        some { s with submissions := s.submissions.set n ⟨job,.rejected .queueFull⟩ }
      | .error .closed =>
        some { s with submissions := s.submissions.set n ⟨job,.rejected .unavailable⟩ }
    | _ => none
  | .removeRejected n =>
    match s.submissions[n]? with
    | some ⟨job,.rejected error⟩ => some { s with
        active := s.active.erase job.id
        submissions := s.submissions.eraseIdx n
        refused := (job.id,error) :: s.refused }
    | _ => none
  | .cancel capability id => if s.held then some (s.cancel capability id).2 else none
  | .cancelAll => if s.held then some s.cancelAll.2 else none
  | .dropRegistry => if s.submissions = [] then some { s with held := false } else none
  | .acquirePermit =>
    match s.dispatcher, s.permits with
    | .awaitingPermit, permits + 1 =>
      some { s with dispatcher := .awaitingJob, permits := permits }
    | _, _ => none
  | .receiveJob =>
    match s.dispatcher with
    | .awaitingJob =>
      match s.jobs.recv with
      | some (job,jobs) => some { s with
          jobs := jobs
          dispatcher := .awaitingPermit
          tasks := s.tasks ++ [⟨job,.spawned⟩] }
      | none =>
        if s.held then none
        else some { s with
          jobs := s.jobs.close
          dispatcher := .ended
          permits := s.permits + 1 }
    | _ => none
  | .run n poll => runTask owner limits s n poll
  | .take capability typeId id =>
    if s.held then some (s.take capability typeId id).2 else none
  | .discard id => some (s.discard id)

end Registry

end Floatile.Services.Operation
