import Floatile.Core.Capability

/-! Identity, ownership and terminal states of the operations a host runs for an instance. -/
namespace Floatile.Core.Operation

open Floatile.Core.Capability

/-- One start of one instance of a plugin. -/
structure OperationOwner where
  plugin : String
  instanceId : ℕ
  generation : ℕ
  deriving DecidableEq, Repr

inductive OperationFailure where
  | timeout
  | cancelled
  | unavailable
  | internal
  | resultDropped
  deriving DecidableEq, Repr

def OperationFailure.code : OperationFailure → String
  | .timeout => "timeout"
  | .cancelled => "cancelled"
  | .unavailable => "unavailable"
  | .internal => "internal"
  | .resultDropped => "result-dropped"

inductive OperationTerminal where
  | succeeded
  | failed (failure : OperationFailure)
  deriving DecidableEq, Repr

def OperationTerminal.code : OperationTerminal → String
  | .succeeded => "succeeded"
  | .failed failure => failure.code

/-- What the actor of an instance is told about a finished operation. -/
structure OperationCompletion where
  id : ℕ
  owner : OperationOwner
  capability : CapabilityId
  terminal : OperationTerminal
  deriving DecidableEq, Repr

def OperationCompletion.isCurrentFor (completion : OperationCompletion)
    (owner : OperationOwner) : Bool := completion.owner = owner

inductive OperationCompletionDisposition where
  | delivered
  | staleGeneration
  | queueFull
  | actorClosed
  deriving DecidableEq, Repr

def OperationCompletionDisposition.code : OperationCompletionDisposition → String
  | .delivered => "delivered"
  | .staleGeneration => "stale-generation"
  | .queueFull => "queue-full"
  | .actorClosed => "actor-closed"

end Floatile.Core.Operation
