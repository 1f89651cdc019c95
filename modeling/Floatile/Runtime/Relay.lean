import Floatile.Lib.Checked
import Floatile.Lib.Transition
import Floatile.Services.Retention

/-! Completions on their way from the registry to the actor of an instance, through the relay of
the actor or through the completion bridge, and the results that are kept for them. -/
namespace Floatile.Runtime.Relay

open Floatile.Core.Capability Floatile.Core.Operation
open Floatile.Lib Floatile.Lib.Transition
open Floatile.Services.Operation

inductive InstanceCommand where
  | start
  | event
  | timer (id : ℕ)
  | operationCompleted (completion : OperationCompletion)
  | shutdown
  deriving DecidableEq

/-- Who takes completions to the actor: the relay that an actor starts, or a bridge that only
routes the completions of its owner. -/
inductive Route where
  | relay
  | bridge (owner : OperationOwner)
  deriving DecidableEq

/-- What the relay or the bridge is doing. The relay ends once it has found the actor closed. -/
inductive Router where
  | idle
  | holding (completion : OperationCompletion)
  | discarding (id : ℕ) (last : Bool)
  | ended
  deriving DecidableEq

/-- `finished` is an actor that has left its loop but still holds the receiver of its queue. -/
inductive Actor where
  | setup
  | running
  | draining
  | finished
  | closed
  deriving DecidableEq

/-- A registry with the way of its completions. The last two fields only record what has been
handed to the guest and what has been dropped on the way. -/
structure Host (τ α : Type) where
  registry : Registry τ α
  router : Router
  inbox : Channel InstanceCommand
  actor : Actor
  delivered : List OperationCompletion
  dropped : List ℕ

inductive HostLabel (τ α : Type) where
  | registry (label : RegistryLabel τ α)
  | receive
  | route
  | discard
  | dropReceiver
  | post (command : InstanceCommand)
  | begin
  | handle (failed : Bool)
  | drain
  | close

/-- Operations whose capability has a completion event. -/
def hasCompletionEvent : CapabilityId → Bool
  | .storageRead => true
  | .networkHttps => true
  | _ => false

/-- The ids of the completions in a queue of commands. -/
def completedIds (commands : List InstanceCommand) : List ℕ :=
  commands.filterMap (fun
    | .operationCompleted completion => some completion.id
    | _ => none)

/-- One completion on its way into the queue of the actor. -/
def tryRoute (route : Route) (inbox : Channel InstanceCommand)
    (completion : OperationCompletion) :
    OperationCompletionDisposition × Channel InstanceCommand :=
  let stale := match route with
    | .relay => false
    | .bridge owner => !completion.isCurrentFor owner
  if stale then (.staleGeneration,inbox)
  else
    match inbox.trySend (.operationCompleted completion) with
    | .ok inbox => (.delivered,inbox)
    | .error .full => (.queueFull,inbox)
    | .error .closed => (.actorClosed,inbox)

namespace Host

variable {τ α : Type} [DecidableEq τ] (owner : OperationOwner) (limits : OperationLimits)
  (route : Route)

def new (registry : Registry τ α) (capacity : ℕ) : Host τ α where
  registry := registry
  router := .idle
  inbox := Channel.empty capacity
  actor := .setup
  delivered := []
  dropped := []

/-- The receiver of the completions goes away with everything that is still buffered. -/
def closeCompletions (h : Host τ α) : Host τ α :=
  { h with
    registry := { h.registry with completions := h.registry.completions.close }
    router := .ended
    dropped := h.registry.completions.queue.map OperationCompletion.id ++ h.dropped }

def discard (h : Host τ α) (id : ℕ) : Host τ α :=
  { h with registry := h.registry.discard id, dropped := id :: h.dropped }

/-- One command taken from the queue by the loop of the actor. -/
def handle (h : Host τ α) (failed : Bool) : InstanceCommand → Host τ α
  | .shutdown => { h with actor := .finished }
  | .operationCompleted completion =>
    if hasCompletionEvent completion.capability then
      { h with
        actor := if failed then .draining else .running
        delivered := completion :: h.delivered }
    else h.discard completion.id
  | _ => { h with actor := if failed then .draining else .running }

def step (h : Host τ α) : HostLabel τ α → Option (Host τ α)
  | .registry label =>
    match h.registry.step owner limits label with
    | some registry => some { h with registry := registry }
    | none => none
  | .receive =>
    match h.router with
    | .idle =>
      match h.registry.completions.recv with
      | some (completion,completions) => some { h with
          registry := { h.registry with completions := completions }
          router := .holding completion }
      | none =>
        if h.registry.dispatcher = .ended ∧ h.registry.tasks.length = 0 then
          some h.closeCompletions
        else none
    | _ => none
  | .route =>
    match h.router with
    | .holding completion =>
      match tryRoute route h.inbox completion with
      | (.delivered,inbox) => some { h with router := .idle, inbox := inbox }
      | (disposition,_) => some { h with
          router := .discarding completion.id
            (route = .relay && disposition = .actorClosed) }
    | _ => none
  | .discard =>
    match h.router with
    | .discarding id false => some { h.discard id with router := .idle }
    | .discarding id true => some (h.discard id).closeCompletions
    | _ => none
  | .dropReceiver =>
    -- the owner of a bridge may drop the receiver between two completions
    if route ≠ .relay ∧ h.router = .idle then some h.closeCompletions else none
  | .post command =>
    match command with
    | .operationCompleted _ => none
    | command =>
      match h.inbox.trySend command with
      | .ok inbox => some { h with inbox := inbox }
      | .error _ => some h
  | .begin =>
    match h.actor with
    | .setup => some { h with actor := .running }
    | _ => none
  | .handle failed =>
    match h.actor, h.inbox.recv with
    | .running, some (command,inbox) => some ({ h with inbox := inbox }.handle failed command)
    | _, _ => none
  | .drain =>
    match h.actor with
    | .draining =>
      match h.inbox.recv with
      | some (command,inbox) => some { h with
          inbox := inbox
          dropped := completedIds [command] ++ h.dropped }
      | none => some { h with actor := .finished }
    | _ => none
  | .close =>
    if h.actor = .setup ∨ h.actor = .finished then some { h with
      inbox := h.inbox.close
      actor := .closed
      dropped := completedIds h.inbox.queue ++ h.dropped }
    else none

end Host

end Floatile.Runtime.Relay
