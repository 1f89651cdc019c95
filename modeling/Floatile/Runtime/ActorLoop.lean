import Floatile.Core.Layout
import Floatile.Lib.Pool
import Floatile.Runtime.Relay
import Mathlib.Algebra.GroupWithZero.Nat

/-! The loop of an actor: the commands it takes from its queue, the calls it makes into the guest,
each with a whole budget, and the answers to those who sent the commands. -/
namespace Floatile.Runtime.ActorLoop

open Floatile.Core.Capability Floatile.Core.Operation
open Floatile.Core.Layout (WidgetMode)
open Floatile.Lib Floatile.Lib.Transition

inductive OperationCapability where
  | storageRead
  | httpsRequest
  deriving DecidableEq

inductive WidgetEvent where
  | ui (name payloadJson : String)
  | timer (id : ℕ)
  | modeChanged (mode : WidgetMode)
  | configChanged (configJson : String)
  | themeChanged (theme : String)
  | operationCompleted (id : ℕ) (capability : OperationCapability) (terminal : OperationTerminal)
  | suspend
  | resume
  deriving DecidableEq

inductive InstanceError where
  | rejected (detail : String)
  | failed (detail : String)
  deriving DecidableEq

/-- What a caller of the handle asks for. -/
inductive Request where
  | start
  | event (event : WidgetEvent)
  deriving DecidableEq

/-- A caller waits for room in the queue, then for the answer to its command. -/
inductive Caller where
  | sending (request : Request)
  | awaiting
  | answered (result : Except InstanceError Unit)
  deriving DecidableEq

/-- The owner of the handle has it, waits for room to send the shutdown, waits for the end of the
actor, or has learned it. -/
inductive Handle where
  | held
  | sending
  | joining
  | joined (failure : Option String)
  deriving DecidableEq

/-- The commands of the queue; those of callers are answered to the number of the caller. -/
inductive InstanceCommand where
  | start (caller : ℕ)
  | event (event : WidgetEvent) (caller : ℕ)
  | timer (id : ℕ)
  | operationCompleted (completion : OperationCompletion)
  | shutdown
  deriving DecidableEq

inductive GuestCall where
  | instantiate
  | constructor
  | start
  | handleEvent (event : WidgetEvent)
  | stop
  | dropResource
  deriving DecidableEq

/-- How a call of the guest ends: an error of the contract, a trap, or the end of its time. -/
inductive GuestOutcome where
  | returned
  | refused (error : String)
  | trapped (error : String)
  | interrupted (error : String)
  deriving DecidableEq

/-- A call with the fuel and the ticks of the clock that it may use. -/
structure CallRecord where
  call : GuestCall
  fuel : ℕ
  ticks : ℕ
  deriving DecidableEq

/-- Where the actor is: a call of the guest goes on in all phases but `loading`, `idle`,
`draining` and `ended`. -/
inductive Phase where
  | loading
  | instantiating
  | constructing
  | idle
  | serving (command : InstanceCommand)
  | draining
  | stopping (ok : Bool)
  | dropping (ok : Bool)
  | ended (failure : Option String)
  deriving DecidableEq

/-- The budget of a call of the guest; the time is in nanoseconds. -/
structure CallBudget where
  fuel : ℕ
  timeout : ℕ
  timeoutText : String

def Request.command (caller : ℕ) : Request → InstanceCommand
  | .start => .start caller
  | .event e => .event e caller

namespace InstanceCommand

def caller : InstanceCommand → Option ℕ
  | .start caller | .event _ caller => some caller
  | .timer _ | .operationCompleted _ | .shutdown => none

/-- Operations of other capabilities have no event. -/
def completionEvent (completion : OperationCompletion) : Option WidgetEvent :=
  match completion.capability with
  | .storageRead =>
    some (.operationCompleted completion.id .storageRead completion.terminal)
  | .networkHttps =>
    some (.operationCompleted completion.id .httpsRequest completion.terminal)
  | _ => none

/-- The call that a command makes. -/
def guestCall : InstanceCommand → Option GuestCall
  | .start _ => some .start
  | .event e _ => some (.handleEvent e)
  | .timer id => some (.handleEvent (.timer id))
  | .operationCompleted completion => (completionEvent completion).map .handleEvent
  | .shutdown => none

/-- The name of the call in the texts of errors. -/
def operation : InstanceCommand → String
  | .start _ => "start"
  | .event _ _ => "handle-event"
  | .timer _ => "timer"
  | .operationCompleted _ => "operation-completed"
  | .shutdown => "stop"

end InstanceCommand

def queueCapacity : ℕ := 64

/-- The time between two ticks of the clock, in nanoseconds. -/
def epochTickInterval : ℕ := 10 * 10^6

/-- The time rounded up to ticks, at least one. -/
def timeoutEpochTicks (timeout : ℕ) : ℕ :=
  min (2^64 - 1) (max 1 ((timeout + epochTickInterval - 1) / epochTickInterval))

namespace CallBudget

variable (budget : CallBudget)

def setupCallError (operation : String) : GuestOutcome → Option String
  | .interrupted error =>
    some s!"实例已终止: {operation} 超过墙钟预算 {budget.timeoutText}: {error}"
  | .trapped error => some s!"实例已终止: {operation} trap: {error}"
  | .returned | .refused _ => none

def callResult (operation : String) : GuestOutcome → Except InstanceError Unit
  | .returned => .ok ()
  | .refused error => .error (.rejected error)
  | .trapped error => .error (.failed error)
  | .interrupted error =>
    .error (.failed s!"{operation} 超过墙钟预算 {budget.timeoutText}: {error}")

end CallBudget

/-- An actor with its callers and the owner of its handle. `published` says that its end has been made known to them. The last
four fields record what has entered the queue, what the loop has taken from it, how that ended, and
the calls of the guest. -/
structure ActorState where
  phase : Phase
  inbox : Channel InstanceCommand
  callers : List Caller
  handle : Handle
  fuel : ℕ
  epoch : ℕ
  deadline : ℕ
  published : Bool
  accepted : List InstanceCommand
  taken : List InstanceCommand
  served : List (InstanceCommand × Except InstanceError Unit)
  calls : List CallRecord

/-- Callers, the senders of timers and completions, and the clock; the rest are steps of the actor
and of the task that waits for its end. -/
inductive ActorLabel where
  | call (request : Request)
  | send (n : ℕ)
  | post (command : InstanceCommand)
  | shutdown
  | sendShutdown
  | tick
  | load (failure : Option String)
  | begin
  | finish (outcome : GuestOutcome) (used : ℕ)
  | drain
  | abort (error : String)
  | publish
  | wake (n : ℕ)
  | join

def Phase.isEnded : Phase → Bool
  | .ended _ => true
  | _ => false

/-- Labels of the callers, the senders and the clock. -/
def ActorLabel.isInput : ActorLabel → Bool
  | .call _ | .post _ | .shutdown | .tick => true
  | _ => false

namespace ActorState

def new : ActorState :=
  ⟨.loading,Channel.empty queueCapacity,[],.held,0,0,0,false,[],[],[],[]⟩

/-- A command enters the queue. -/
def push (s : ActorState) (command : InstanceCommand) (inbox : Channel InstanceCommand) :
    ActorState :=
  { s with inbox := inbox, accepted := s.accepted ++ [command] }

/-- The guest is called with what is left of the budget. -/
def enter (s : ActorState) (call : GuestCall) (phase : Phase) : ActorState :=
  { s with phase := phase, calls := s.calls ++ [⟨call,s.fuel,s.deadline - s.epoch⟩] }

def answer (s : ActorState) (command : InstanceCommand) (result : Except InstanceError Unit) :
    ActorState :=
  { s with callers := match command.caller with
      | some n => s.callers.set n (.answered result)
      | none => s.callers }

/-- The actor returns, and the receiver of its queue is dropped with what is in it. -/
def close (s : ActorState) (failure : Option String) : ActorState :=
  { s with phase := .ended failure, inbox := s.inbox.close }

/-- Only the calls for commands can be refused, and only the clock can end the time of a call. -/
def admits (s : ActorState) : GuestOutcome → Bool
  | .returned | .trapped _ => true
  | .refused _ => match s.phase with
    | .serving _ => true
    | _ => false
  | .interrupted _ => s.deadline ≤ s.epoch

/-- A caller gets its command into the queue as soon as there is room. -/
def send (s : ActorState) (n : ℕ) : Option ActorState :=
  match s.callers[n]? with
  | some (.sending request) =>
    match s.inbox.trySend (request.command n) with
    | .ok inbox => some { s.push (request.command n) inbox with
        callers := s.callers.set n .awaiting }
    | .error .full => none
    | .error .closed => some { s with
        callers := s.callers.set n
          (.answered (.error (.failed "实例已终止（命令通道关闭）"))) }
  | _ => none

/-- Timers and completions are dropped when there is no room. -/
def post (s : ActorState) (command : InstanceCommand) : Option ActorState :=
  match command with
  | .timer _ | .operationCompleted _ =>
    match s.inbox.trySend command with
    | .ok inbox => some (s.push command inbox)
    | .error _ => some s
  | .start _ | .event _ _ | .shutdown => none

/-- The shutdown waits for room. Whether the actor still takes commands makes no difference. -/
def sendShutdown (s : ActorState) : Option ActorState :=
  match s.handle with
  | .sending =>
    match s.inbox.trySend .shutdown with
    | .ok inbox => some { s.push .shutdown inbox with handle := .joining }
    | .error .full => none
    | .error .closed => some { s with handle := .joining }
  | _ => none

/-- The callers whose command was lost learn how the actor has ended. -/
def wake (s : ActorState) (n : ℕ) : Option ActorState :=
  match s.phase, s.published, s.callers[n]? with
  | .ended failure, true, some .awaiting => some { s with
      callers := s.callers.set n
        (.answered (.error (.failed (failure.getD "actor 未返回调用结果")))) }
  | _, _, _ => none

/-- The owner of the handle learns how the actor has ended. -/
def join (s : ActorState) : Option ActorState :=
  match s.phase, s.published, s.handle with
  | .ended failure, true, .joining => some { s with handle := .joined failure }
  | _, _, _ => none

variable (budget : CallBudget)

/-- Every call has the whole fuel and the whole time again. -/
def resetBudget (s : ActorState) : ActorState :=
  { s with fuel := budget.fuel, deadline := s.epoch + timeoutEpochTicks budget.timeout }

/-- The component is read and checked before its code runs. -/
def load (s : ActorState) (failure : Option String) : Option ActorState :=
  match s.phase, failure with
  | .loading, none => some ((s.resetBudget budget).enter .instantiate .instantiating)
  | .loading, some _ => some (s.close failure)
  | _, _ => none

def serve (s : ActorState) (command : InstanceCommand) : ActorState :=
  match command.guestCall with
  | some call => (s.resetBudget budget).enter call (.serving command)
  | none =>
    let s := { s with served := s.served ++ [(command,.ok ())] }
    if command = .shutdown then (s.resetBudget budget).enter .stop (.stopping true) else s

/-- The loop takes the next command. The actor holds a sender itself, so that the queue never
ends. -/
def begin (s : ActorState) : Option ActorState :=
  match s.phase, s.inbox.recv with
  | .idle, some (command,inbox) =>
    some ({ s with inbox := inbox, taken := s.taken ++ [command] }.serve budget command)
  | _, _ => none

/-- The call of the guest ends. What `stop` and the drop of the resource end with is ignored. -/
def finish (s : ActorState) (outcome : GuestOutcome) (used : ℕ) : Option ActorState :=
  if s.admits outcome then
    let s := { s with fuel := s.fuel - used }
    match s.phase with
    | .instantiating =>
      match budget.setupCallError "instantiate" outcome with
      | some failure => some (s.close (some failure))
      | none => some ((s.resetBudget budget).enter .constructor .constructing)
    | .constructing =>
      match budget.setupCallError "constructor" outcome with
      | some failure => some (s.close (some failure))
      | none => some { s with phase := .idle }
    | .serving command =>
      let result := budget.callResult command.operation outcome
      let s := { s with served := s.served ++ [(command,result)] }.answer command result
      some { s with phase := if result = .ok () then .idle else .draining }
    | .stopping ok => some ((s.resetBudget budget).enter .dropResource (.dropping ok))
    | .dropping ok =>
      some (s.close (if ok then none
        else some "实例已终止: actor 因 trap/超时/终止退出"))
    | .loading | .idle | .draining | .ended _ => none
  else none

/-- After a failure the pending commands are answered before the guest is stopped. -/
def drain (s : ActorState) : Option ActorState :=
  match s.phase, s.inbox.recv with
  | .draining, some (command,inbox) =>
    some ({ s with inbox := inbox }.answer command (.error (.failed "实例已终止")))
  | .draining, none => some ((s.resetBudget budget).enter .stop (.stopping false))
  | _, _ => none

def step (s : ActorState) : ActorLabel → Option ActorState
  | .call request => some { s with callers := s.callers ++ [.sending request] }
  | .send n => s.send n
  | .post command => s.post command
  | .shutdown => if s.handle = .held then some { s with handle := .sending } else none
  | .sendShutdown => s.sendShutdown
  | .tick => some { s with epoch := s.epoch + 1 }
  | .load failure => s.load budget failure
  | .begin => s.begin budget
  | .finish outcome used => s.finish budget outcome used
  | .drain => s.drain budget
  | .abort error =>
    match s.phase with
    | .ended _ => none
    | _ => some (s.close (some s!"实例已终止: actor 任务异常终止: {error}"))
  | .publish =>
    match s.phase with
    | .ended _ => if s.published then none else some { s with published := true }
    | _ => none
  | .wake n => s.wake n
  | .join => s.join

end ActorState

def actorSystem (budget : CallBudget) : System ActorState ActorLabel :=
  System.ofPartial (fun s => s = .new) (ActorState.step budget)

/-- The steps of an actor and of its callers. -/
inductive ActorStep (budget : CallBudget) (s : ActorState) : ActorLabel → ActorState → Prop where
  | call {request : Request} :
      ActorStep budget s (.call request) { s with callers := s.callers ++ [.sending request] }
  | enqueue {n : ℕ} {request : Request} {inbox : Channel InstanceCommand}
      (hcaller : s.callers[n]? = some (.sending request)) (hroom : s.inbox.HasRoom)
      (hqueue : inbox.queue = s.inbox.queue ++ [request.command n])
      (hopen : inbox.isOpen = s.inbox.isOpen) (hcapacity : inbox.capacity = s.inbox.capacity) :
      ActorStep budget s (.send n)
        { s.push (request.command n) inbox with callers := s.callers.set n .awaiting }
  | refuse {n : ℕ} {request : Request} {error : InstanceError}
      (hcaller : s.callers[n]? = some (.sending request)) (hclosed : s.inbox.isOpen = false) :
      ActorStep budget s (.send n)
        { s with callers := s.callers.set n (.answered (.error error)) }
  | post {command : InstanceCommand} {inbox : Channel InstanceCommand}
      (hcaller : command.caller = none) (hroom : s.inbox.HasRoom)
      (hqueue : inbox.queue = s.inbox.queue ++ [command])
      (hopen : inbox.isOpen = s.inbox.isOpen) (hcapacity : inbox.capacity = s.inbox.capacity)
      (hcommand : command ≠ .shutdown) : ActorStep budget s (.post command) (s.push command inbox)
  | lose {command : InstanceCommand} : ActorStep budget s (.post command) s
  | release (hhandle : s.handle = .held) :
      ActorStep budget s .shutdown { s with handle := .sending }
  | sendShutdown {inbox : Channel InstanceCommand} (hhandle : s.handle = .sending)
      (hroom : s.inbox.HasRoom) (hqueue : inbox.queue = s.inbox.queue ++ [.shutdown])
      (hopen : inbox.isOpen = s.inbox.isOpen) (hcapacity : inbox.capacity = s.inbox.capacity) :
      ActorStep budget s .sendShutdown { s.push .shutdown inbox with handle := .joining }
  | loseShutdown (hhandle : s.handle = .sending) (hclosed : s.inbox.isOpen = false) :
      ActorStep budget s .sendShutdown { s with handle := .joining }
  | tick : ActorStep budget s .tick { s with epoch := s.epoch + 1 }
  | instantiate (hphase : s.phase = .loading) :
      ActorStep budget s (.load none) ((s.resetBudget budget).enter .instantiate .instantiating)
  | fail {label : ActorLabel} {failure : String} {fuel : ℕ} (hphase : s.phase.isEnded = false)
      (hlabel : label.isInput = false) :
      ActorStep budget s label ({ s with fuel := fuel }.close (some failure))
  | construct {outcome : GuestOutcome} {used : ℕ} (hphase : s.phase = .instantiating) :
      ActorStep budget s (.finish outcome used)
        ((s.resetBudget budget).enter .constructor .constructing)
  | ready {outcome : GuestOutcome} {used fuel : ℕ} (hphase : s.phase = .constructing) :
      ActorStep budget s (.finish outcome used) { s with phase := .idle, fuel := fuel }
  | take {command : InstanceCommand} {call : GuestCall} {inbox : Channel InstanceCommand}
      (hphase : s.phase = .idle) (hqueue : s.inbox.queue = command :: inbox.queue)
      (hopen : inbox.isOpen = s.inbox.isOpen) (hcapacity : inbox.capacity = s.inbox.capacity)
      (hcall : command.guestCall = some call) :
      ActorStep budget s .begin
        (({ s with inbox := inbox, taken := s.taken ++ [command] }.resetBudget budget).enter call
          (.serving command))
  | skip {command : InstanceCommand} {inbox : Channel InstanceCommand}
      (hphase : s.phase = .idle) (hqueue : s.inbox.queue = command :: inbox.queue)
      (hopen : inbox.isOpen = s.inbox.isOpen) (hcapacity : inbox.capacity = s.inbox.capacity)
      (hcall : command.guestCall = none) (hcommand : command ≠ .shutdown) :
      ActorStep budget s .begin { s with
        inbox := inbox
        taken := s.taken ++ [command]
        served := s.served ++ [(command,.ok ())] }
  | shutdown {inbox : Channel InstanceCommand}
      (hphase : s.phase = .idle) (hqueue : s.inbox.queue = .shutdown :: inbox.queue)
      (hopen : inbox.isOpen = s.inbox.isOpen) (hcapacity : inbox.capacity = s.inbox.capacity) :
      ActorStep budget s .begin
        (({ s with
          inbox := inbox
          taken := s.taken ++ [InstanceCommand.shutdown]
          served := s.served ++ [(InstanceCommand.shutdown,Except.ok ())] }.resetBudget budget).enter .stop
          (.stopping true))
  | reply {outcome : GuestOutcome} {used fuel : ℕ} {command : InstanceCommand}
      {result : Except InstanceError Unit} (hphase : s.phase = .serving command) :
      ActorStep budget s (.finish outcome used)
        { { s with fuel := fuel, served := s.served ++ [(command,result)] }.answer command result with
          phase := if result = .ok () then .idle else .draining }
  | stopped {outcome : GuestOutcome} {used : ℕ} {ok : Bool} (hphase : s.phase = .stopping ok) :
      ActorStep budget s (.finish outcome used)
        ((s.resetBudget budget).enter .dropResource (.dropping ok))
  | dropped {outcome : GuestOutcome} {used fuel : ℕ} {ok : Bool} {failure : Option String}
      (hphase : s.phase = .dropping ok) (hfailure : failure = none → ok = true) :
      ActorStep budget s (.finish outcome used) ({ s with fuel := fuel }.close failure)
  | cancel {command : InstanceCommand} {inbox : Channel InstanceCommand} {error : InstanceError}
      (hphase : s.phase = .draining) (hqueue : s.inbox.queue = command :: inbox.queue)
      (hopen : inbox.isOpen = s.inbox.isOpen) (hcapacity : inbox.capacity = s.inbox.capacity) :
      ActorStep budget s .drain ({ s with inbox := inbox }.answer command (.error error))
  | stop (hphase : s.phase = .draining) (hqueue : s.inbox.queue = []) :
      ActorStep budget s .drain ((s.resetBudget budget).enter .stop (.stopping false))
  | publish {failure : Option String} (hphase : s.phase = .ended failure)
      (hpublished : s.published = false) :
      ActorStep budget s .publish { s with published := true }
  | wake {n : ℕ} {failure : Option String} {error : InstanceError}
      (hphase : s.phase = .ended failure) (hpublished : s.published = true)
      (hcaller : s.callers[n]? = some .awaiting) :
      ActorStep budget s (.wake n)
        { s with callers := s.callers.set n (.answered (.error error)) }
  | join {failure : Option String} (hphase : s.phase = .ended failure)
      (hpublished : s.published = true) (hhandle : s.handle = .joining) :
      ActorStep budget s .join { s with handle := .joined failure }

namespace ActorState

variable {budget : CallBudget} {s s' : ActorState}

theorem send_cases {n : ℕ} (h : s.send n = some s') : ActorStep budget s (.send n) s' := by
  unfold send at h
  split at h
  · rename_i request hcaller
    split at h
    · rename_i inbox hsend
      cases h
      obtain ⟨hroom,hqueue,hopen,hcapacity⟩ := Channel.trySend_eq_ok hsend
      exact .enqueue hcaller hroom hqueue hopen hcapacity
    · cases h
    · rename_i hsend
      cases h
      exact .refuse hcaller ((Channel.trySend_eq_error hsend).2.mp rfl)
  · cases h

theorem post_cases {command : InstanceCommand} (h : s.post command = some s') :
    ActorStep budget s (.post command) s' := by
  have hpush {inbox : Channel InstanceCommand} (hcaller : command.caller = none)
      (hcommand : command ≠ .shutdown) (hsend : s.inbox.trySend command = .ok inbox) :
      ActorStep budget s (.post command) (s.push command inbox) := by
    obtain ⟨hroom,hqueue,hopen,hcapacity⟩ := Channel.trySend_eq_ok hsend
    exact .post hcaller hroom hqueue hopen hcapacity hcommand
  cases command with
  | start caller => cases h
  | event e caller => cases h
  | timer id =>
    simp only [post] at h
    split at h <;> cases h
    · rename_i hsend
      exact hpush rfl (by simp) hsend
    · exact .lose
  | operationCompleted completion =>
    simp only [post] at h
    split at h <;> cases h
    · rename_i hsend
      exact hpush rfl (by simp) hsend
    · exact .lose
  | shutdown => cases h

theorem sendShutdown_cases (h : s.sendShutdown = some s') :
    ActorStep budget s .sendShutdown s' := by
  unfold sendShutdown at h
  split at h
  · rename_i hhandle
    split at h
    · rename_i inbox hsend
      cases h
      obtain ⟨hroom,hqueue,hopen,hcapacity⟩ := Channel.trySend_eq_ok hsend
      exact .sendShutdown hhandle hroom hqueue hopen hcapacity
    · cases h
    · rename_i hsend
      cases h
      exact .loseShutdown hhandle ((Channel.trySend_eq_error hsend).2.mp rfl)
  · cases h

theorem begin_cases (h : s.begin budget = some s') : ActorStep budget s .begin s' := by
  unfold begin at h
  split at h
  · rename_i command inbox hphase hrecv
    obtain ⟨hqueue,hopen,hcapacity⟩ := Channel.queue_of_recv hrecv
    cases h
    unfold serve
    split
    · rename_i call hcall
      exact .take hphase hqueue hopen hcapacity hcall
    · rename_i hcall
      dsimp only
      split_ifs with hcommand
      · obtain rfl := hcommand
        exact .shutdown hphase hqueue hopen hcapacity
      · exact .skip hphase hqueue hopen hcapacity hcall hcommand
  · cases h

theorem finish_cases {outcome : GuestOutcome} {used : ℕ}
    (h : s.finish budget outcome used = some s') :
    ActorStep budget s (.finish outcome used) s' := by
  unfold finish at h
  split_ifs at h
  dsimp only at h
  split at h
  · rename_i hphase
    split at h <;> cases h
    · exact .fail (by rw [hphase]; rfl) rfl
    · exact .construct hphase
  · rename_i hphase
    split at h <;> cases h
    · exact .fail (by rw [hphase]; rfl) rfl
    · exact .ready hphase
  · rename_i command hphase
    cases h
    exact .reply hphase
  · rename_i ok hphase
    cases h
    exact .stopped hphase
  · rename_i ok hphase
    cases h
    exact .dropped hphase (by cases ok <;> simp)
  all_goals cases h

theorem drain_cases (h : s.drain budget = some s') : ActorStep budget s .drain s' := by
  unfold drain at h
  split at h
  · rename_i command inbox hphase hrecv
    obtain ⟨hqueue,hopen,hcapacity⟩ := Channel.queue_of_recv hrecv
    cases h
    exact .cancel hphase hqueue hopen hcapacity
  · rename_i hphase hrecv
    cases h
    exact .stop hphase ((Channel.recv_eq_none_iff _).mp hrecv)
  · cases h

theorem step_cases {label : ActorLabel} (h : s.step budget label = some s') :
    ActorStep budget s label s' := by
  cases label with
  | call request =>
    cases h
    exact .call
  | send n => exact send_cases h
  | post command => exact post_cases h
  | shutdown =>
    simp only [step] at h
    split_ifs at h with hhandle
    cases h
    exact .release hhandle
  | sendShutdown => exact sendShutdown_cases h
  | tick =>
    cases h
    exact .tick
  | load failure =>
    simp only [step, load] at h
    split at h
    · rename_i hphase
      cases h
      exact .instantiate hphase
    · rename_i failure' hphase
      cases h
      exact .fail (by rw [hphase]; rfl) rfl
    · cases h
  | begin => exact begin_cases h
  | finish outcome used => exact finish_cases h
  | drain => exact drain_cases h
  | abort error =>
    simp only [step] at h
    split at h
    · cases h
    · rename_i hphase
      cases h
      refine .fail ?_ rfl
      cases hp : s.phase <;> first | rfl | exact absurd hp (hphase _)
  | publish =>
    simp only [step] at h
    split at h
    · rename_i failure hphase
      split_ifs at h with hpublished
      cases h
      exact .publish hphase (by simpa using hpublished)
    · cases h
  | wake n =>
    simp only [step, wake] at h
    split at h
    · rename_i failure hphase hpublished hcaller
      cases h
      exact .wake hphase hpublished hcaller
    · cases h
  | join =>
    simp only [step, join] at h
    split at h
    · rename_i failure hphase hpublished hhandle
      cases h
      exact .join hphase hpublished hhandle
    · cases h

end ActorState

/-- The calls that commands make. -/
def loopCalls (commands : List InstanceCommand) : List GuestCall :=
  commands.filterMap InstanceCommand.guestCall

/-- All calls of an actor that has taken these commands. -/
def session (commands : List InstanceCommand) : List GuestCall :=
  [.instantiate,.constructor] ++ loopCalls commands ++ [.stop,.dropResource]

namespace Phase

/-- The loop has not been left. -/
def looping : Phase → Bool
  | .loading | .instantiating | .constructing | .idle | .serving _ => true
  | .draining | .stopping _ | .dropping _ | .ended _ => false

/-- The loop has not been entered. -/
def starting : Phase → Bool
  | .loading | .instantiating | .constructing => true
  | _ => false

/-- The loop was left to shut down. -/
def clean : Phase → Bool
  | .stopping ok | .dropping ok => ok
  | .ended failure => failure.isNone
  | _ => false

def command : Phase → Option InstanceCommand
  | .serving command => some command
  | _ => none

/-- The calls made so far. -/
def calls (taken : List InstanceCommand) : Phase → List GuestCall
  | .loading => []
  | .instantiating => [.instantiate]
  | .constructing => [.instantiate,.constructor]
  | .idle | .serving _ | .draining => [.instantiate,.constructor] ++ loopCalls taken
  | .stopping _ => [.instantiate,.constructor] ++ loopCalls taken ++ [.stop]
  | .dropping _ | .ended _ => session taken

end Phase

/-- A command that has been served well and does not end the loop. -/
def Continues (e : InstanceCommand × Except InstanceError Unit) : Prop :=
  e.2 = .ok () ∧ e.1 ≠ .shutdown

/-- The calls of the guest are those of the commands, in their order and within the budget. -/
structure Serial (budget : CallBudget) (s : ActorState) : Prop where
  order : s.taken <+: s.accepted
  queued : s.phase.looping = true → s.accepted = s.taken ++ s.inbox.queue
  untaken : s.phase.starting = true → s.taken = []
  serving : ∀ command, s.phase = .serving command → command ≠ .shutdown
  done : s.served.map Prod.fst <+: s.taken
  taken : s.phase.isEnded = false → s.taken = s.served.map Prod.fst ++ s.phase.command.toList
  within : s.calls.map CallRecord.call <+: session s.taken
  made : s.phase.isEnded = false → s.calls.map CallRecord.call = s.phase.calls s.taken
  whole : ∀ c ∈ s.calls, c.fuel = budget.fuel ∧ c.ticks = timeoutEpochTicks budget.timeout
  continues : s.phase.looping = true → ∀ e ∈ s.served, Continues e
  continued : ∀ e ∈ s.served.dropLast, Continues e
  shutdown : s.phase.clean = true → ∃ before, s.served = before ++ [(.shutdown,.ok ())]
  complete : s.phase = .ended none → s.calls.map CallRecord.call = session s.taken ∧
    s.taken = s.served.map Prod.fst

section Serial

variable {budget : CallBudget} {s s' : ActorState}

theorem loopCalls_append (commands commands' : List InstanceCommand) :
    loopCalls (commands ++ commands') = loopCalls commands ++ loopCalls commands' :=
  List.filterMap_append

theorem Phase.calls_prefix (taken : List InstanceCommand) (phase : Phase) :
    phase.calls taken <+: session taken := by
  cases phase with
  | loading => exact List.nil_prefix
  | instantiating => exact ⟨_,rfl⟩
  | constructing => exact ⟨loopCalls taken ++ [.stop,.dropResource],by simp [session, calls]⟩
  | idle | serving command | draining => exact ⟨[.stop,.dropResource],rfl⟩
  | stopping ok => exact ⟨[.dropResource],by simp [session, calls]⟩
  | dropping ok | ended failure => exact List.prefix_refl _

theorem calls_enter (call : GuestCall) (phase : Phase) :
    (s.enter call phase).calls.map CallRecord.call = s.calls.map CallRecord.call ++ [call] := by
  rw [ActorState.enter, List.map_append]
  rfl

/-- A call with a budget that has just been reset. -/
theorem whole_enter (h : Serial budget s) (call : GuestCall) (phase : Phase) :
    ∀ c ∈ ((s.resetBudget budget).enter call phase).calls,
      c.fuel = budget.fuel ∧ c.ticks = timeoutEpochTicks budget.timeout := by
  intro c hc
  rcases List.mem_append.mp hc with hold | hnew
  · exact h.whole c hold
  · obtain rfl := List.mem_singleton.mp hnew
    exact ⟨rfl,Nat.add_sub_cancel_left _ _⟩

/-- Callers, the clock and the end of the actor change nothing about its calls. -/
theorem Serial.of_same (h : Serial budget s) (hphase : s'.phase = s.phase)
    (hqueue : s'.inbox.queue = s.inbox.queue) (haccepted : s'.accepted = s.accepted)
    (htaken : s'.taken = s.taken) (hserved : s'.served = s.served) (hcalls : s'.calls = s.calls) :
    Serial budget s' := by
  obtain ⟨h1,h2,h3,h4,h5,h6,h7,h8,h9,h10,h11,h12,h13⟩ := h
  constructor <;> simp only [hphase, hqueue, haccepted, htaken, hserved, hcalls] <;> assumption

theorem Serial.accept (h : Serial budget s) {command : InstanceCommand}
    {inbox : Channel InstanceCommand} (hqueue : inbox.queue = s.inbox.queue ++ [command]) :
    Serial budget (s.push command inbox) := by
  obtain ⟨h1,h2,h3,h4,h5,h6,h7,h8,h9,h10,h11,h12,h13⟩ := h
  refine ⟨h1.trans (List.prefix_append _ _),fun hlooping => ?_,h3,h4,h5,h6,h7,h8,h9,h10,h11,h12,h13⟩
  change s.accepted ++ [command] = s.taken ++ inbox.queue
  rw [hqueue, h2 hlooping, List.append_assoc]

/-- The actor ends with a failure, or with its loop left to shut down. -/
theorem Serial.close (h : Serial budget s) {failure : Option String}
    (hfailure : failure = none → s.phase = .dropping true) : Serial budget (s.close failure) where
  order := h.order
  queued := by intro hlooping; cases hlooping
  untaken := by intro hstarting; cases hstarting
  serving := by intro command hcommand; cases hcommand
  done := h.done
  taken := by intro hlive; cases hlive
  within := h.within
  made := by intro hlive; cases hlive
  whole := h.whole
  continues := by intro hlooping; cases hlooping
  continued := h.continued
  shutdown := by
    intro hclean
    refine h.shutdown ?_
    rw [hfailure (Option.isNone_iff_eq_none.mp hclean)]
    rfl
  complete := by
    intro hended
    have hphase := hfailure (Phase.ended.inj hended)
    have hmade := h.made (by rw [hphase]; rfl)
    have htaken := h.taken (by rw [hphase]; rfl)
    rw [hphase] at hmade htaken
    exact ⟨hmade,htaken.trans (List.append_nil _)⟩

/-- A call before the loop is entered. -/
theorem Serial.setup (h : Serial budget s) {call : GuestCall} {phase : Phase}
    (hbefore : s.phase.starting = true) (hafter : phase.starting = true)
    (hcalls : s.phase.calls [] ++ [call] = phase.calls []) :
    Serial budget ((s.resetBudget budget).enter call phase) := by
  have htaken := h.untaken hbefore
  have hdone := h.done
  rw [htaken, List.prefix_nil, List.map_eq_nil_iff] at hdone
  have hlive : s.phase.isEnded = false := by
    cases hphase : s.phase <;> simp [hphase, Phase.starting, Phase.isEnded] at hbefore ⊢
  have hmade : ((s.resetBudget budget).enter call phase).calls.map CallRecord.call =
      phase.calls s.taken := by
    rw [calls_enter, htaken, ← hcalls, ← htaken, ← h.made hlive]
    rfl
  have hlooping : s.phase.looping = true := by
    cases hphase : s.phase <;> simp [hphase, Phase.starting, Phase.looping] at hbefore ⊢
  have hcommand : phase.command = none := by
    cases phase <;> first | rfl | cases hafter
  refine ⟨h.order,fun _ => h.queued hlooping,fun _ => htaken,?_,h.done,fun _ => ?_,?_,
    fun _ => hmade,whole_enter h call phase,fun _ => h.continues hlooping,h.continued,?_,?_⟩
  · rintro command rfl
    cases hafter
  · change s.taken = s.served.map Prod.fst ++ phase.command.toList
    rw [htaken, hdone, hcommand]
    rfl
  · rw [hmade]
    exact Phase.calls_prefix _ _
  · have hclean : phase.clean = false := by
      cases phase <;> first | rfl | cases hafter
    intro hafterwards
    exact absurd (hclean.symm.trans hafterwards) (by decide)
  · rintro rfl
    cases hafter

/-- The loop takes the next command and calls the guest for it. -/
theorem Serial.take (h : Serial budget s) {command : InstanceCommand} {call : GuestCall}
    {inbox : Channel InstanceCommand} (hphase : s.phase = .idle)
    (hqueue : s.inbox.queue = command :: inbox.queue) (hcall : command.guestCall = some call) :
    Serial budget (({ s with inbox := inbox, taken := s.taken ++ [command] }.resetBudget budget).enter
      call (.serving command)) := by
  have hlooping : s.phase.looping = true := by rw [hphase]; rfl
  have hlive : s.phase.isEnded = false := by rw [hphase]; rfl
  have hqueued : s.accepted = (s.taken ++ [command]) ++ inbox.queue := by
    rw [h.queued hlooping, hqueue, List.append_assoc, List.singleton_append]
  have hserved : s.taken = s.served.map Prod.fst := by
    simpa [hphase, Phase.command] using h.taken hlive
  have hmade : s.calls.map CallRecord.call ++ [call] =
      (Phase.serving command).calls (s.taken ++ [command]) := by
    rw [h.made hlive, hphase, Phase.calls, Phase.calls, loopCalls_append]
    simp [loopCalls, hcall]
  refine ⟨⟨inbox.queue,hqueued.symm⟩,fun _ => hqueued,by simp [ActorState.enter, Phase.starting],
    ?_,?_,fun _ => ?_,?_,fun _ => (calls_enter call _).trans hmade,
    whole_enter h call (.serving command),fun _ => h.continues hlooping,h.continued,?_,?_⟩
  · rintro _ hserving rfl
    cases hserving
    cases hcall
  · exact h.done.trans (List.prefix_append _ _)
  · change s.taken ++ [command] = _
    rw [hserved]
    rfl
  · rw [calls_enter]
    change s.calls.map CallRecord.call ++ [call] <+: session (s.taken ++ [command])
    rw [hmade]
    exact Phase.calls_prefix _ _
  · intro hclean
    cases hclean
  · intro hended
    cases hended

/-- The loop takes a command that makes no call. It goes on unless it has to shut down. -/
theorem Serial.skip (h : Serial budget s) {command : InstanceCommand}
    {inbox : Channel InstanceCommand} (hphase : s.phase = .idle)
    (hqueue : s.inbox.queue = command :: inbox.queue) (hcall : command.guestCall = none)
    (hcommand : command ≠ .shutdown) : Serial budget { s with
      inbox := inbox
      taken := s.taken ++ [command]
      served := s.served ++ [(command,.ok ())] } := by
  have hlooping : s.phase.looping = true := by rw [hphase]; rfl
  have hlive : s.phase.isEnded = false := by rw [hphase]; rfl
  have hqueued : s.accepted = (s.taken ++ [command]) ++ inbox.queue := by
    rw [h.queued hlooping, hqueue, List.append_assoc, List.singleton_append]
  have hserved : s.taken = s.served.map Prod.fst := by
    simpa [hphase, Phase.command] using h.taken hlive
  have hcalls : loopCalls (s.taken ++ [command]) = loopCalls s.taken := by
    rw [loopCalls_append]
    simp [loopCalls, hcall]
  have hmade : s.calls.map CallRecord.call = s.phase.calls (s.taken ++ [command]) := by
    rw [h.made hlive, hphase, Phase.calls, Phase.calls, hcalls]
  refine ⟨⟨inbox.queue,hqueued.symm⟩,fun _ => hqueued,?_,h.serving,?_,fun _ => ?_,?_,
    fun _ => hmade,h.whole,fun _ => ?_,?_,?_,?_⟩
  · intro hstarting
    rw [show s.phase.starting = false from by rw [hphase]; rfl] at hstarting
    cases hstarting
  · change (s.served ++ [(command,Except.ok ())]).map Prod.fst <+: s.taken ++ [command]
    rw [List.map_append, ← hserved]
    exact List.prefix_refl _
  · change s.taken ++ [command] = (s.served ++ [(command,Except.ok ())]).map Prod.fst ++ _
    rw [List.map_append, ← hserved, hphase]
    exact (List.append_nil _).symm
  · rw [hmade]
    exact Phase.calls_prefix _ _
  · exact List.forall_mem_append.mpr ⟨h.continues hlooping,by simpa [Continues] using hcommand⟩
  · change ∀ e ∈ (s.served ++ [(command,Except.ok ())]).dropLast, Continues e
    rw [List.dropLast_concat]
    exact h.continues hlooping
  · intro hclean
    rw [show s.phase.clean = false from by rw [hphase]; rfl] at hclean
    cases hclean
  · intro hended
    cases hphase.symm.trans hended

/-- The loop is left, and the guest is told to stop. -/
theorem Serial.leave (h : Serial budget s) {served : List (InstanceCommand × Except InstanceError Unit)}
    {commands : List InstanceCommand} {inbox : Channel InstanceCommand} {ok : Bool}
    (hlive : s.phase.isEnded = false)
    (horder : s.taken ++ commands <+: s.accepted)
    (hmade : s.phase.calls s.taken = [.instantiate,.constructor] ++ loopCalls s.taken)
    (hcommands : loopCalls commands = [])
    (hserved : s.taken ++ commands = (s.served ++ served).map Prod.fst)
    (hcontinued : ∀ e ∈ (s.served ++ served).dropLast, Continues e)
    (hshutdown : ok = true → ∃ before, s.served ++ served = before ++ [(.shutdown,.ok ())]) :
    Serial budget (({ s with
      inbox := inbox
      taken := s.taken ++ commands
      served := s.served ++ served }.resetBudget budget).enter .stop (.stopping ok)) := by
  have hmade : s.calls.map CallRecord.call ++ [.stop] =
      (Phase.stopping ok).calls (s.taken ++ commands) := by
    rw [h.made hlive, hmade, Phase.calls, loopCalls_append, hcommands, List.append_nil]
  refine ⟨horder,by simp [ActorState.enter, Phase.looping],by simp [ActorState.enter, Phase.starting],
    ?_,?_,fun _ => ?_,?_,fun _ => (calls_enter _ _).trans hmade,
    whole_enter h .stop (.stopping ok),
    by simp [ActorState.enter, Phase.looping],hcontinued,hshutdown,by simp [ActorState.enter]⟩
  · intro command hcommand
    cases hcommand
  · change (s.served ++ served).map Prod.fst <+: s.taken ++ commands
    rw [hserved]
  · change s.taken ++ commands = (s.served ++ served).map Prod.fst ++ []
    rw [hserved, List.append_nil]
  · rw [calls_enter]
    change s.calls.map CallRecord.call ++ [.stop] <+: session (s.taken ++ commands)
    rw [hmade]
    exact Phase.calls_prefix _ _

/-- The call for a command ends; after a failure the loop is left. -/
theorem Serial.reply (h : Serial budget s) {command : InstanceCommand}
    (result : Except InstanceError Unit) (hphase : s.phase = .serving command) :
    Serial budget { s with
      phase := if result = .ok () then .idle else .draining
      served := s.served ++ [(command,result)] } := by
  have hlooping : s.phase.looping = true := by rw [hphase]; rfl
  have hlive : s.phase.isEnded = false := by rw [hphase]; rfl
  have hserved : s.taken = (s.served ++ [(command,result)]).map Prod.fst := by
    simpa [hphase, Phase.command] using h.taken hlive
  have hmade : s.calls.map CallRecord.call = [.instantiate,.constructor] ++ loopCalls s.taken := by
    rw [h.made hlive, hphase, Phase.calls]
  have hdropLast : ∀ e ∈ (s.served ++ [(command,result)]).dropLast, Continues e := by
    rw [List.dropLast_concat]
    exact h.continues hlooping
  split_ifs with hresult
  · refine ⟨h.order,fun _ => h.queued hlooping,by simp [Phase.starting],by simp,?_,fun _ => ?_,
      h.within,fun _ => hmade,h.whole,fun _ => ?_,hdropLast,by simp [Phase.clean],by simp⟩
    · exact ⟨[],by rw [List.append_nil, ← hserved]⟩
    · exact hserved.trans (List.append_nil _).symm
    · exact List.forall_mem_append.mpr ⟨h.continues hlooping,by
        simpa [Continues, hresult] using h.serving command hphase⟩
  · refine ⟨h.order,by simp [Phase.looping],by simp [Phase.starting],by simp,?_,fun _ => ?_,
      h.within,fun _ => hmade,h.whole,by simp [Phase.looping],hdropLast,by simp [Phase.clean],by simp⟩
    · exact ⟨[],by rw [List.append_nil, ← hserved]⟩
    · exact hserved.trans (List.append_nil _).symm

/-- The resource of the guest is dropped. -/
theorem Serial.release (h : Serial budget s) {ok : Bool} (hphase : s.phase = .stopping ok) :
    Serial budget ((s.resetBudget budget).enter .dropResource (.dropping ok)) := by
  have hlive : s.phase.isEnded = false := by rw [hphase]; rfl
  have hserved : s.taken = s.served.map Prod.fst := by
    simpa [hphase, Phase.command] using h.taken hlive
  have hmade : s.calls.map CallRecord.call ++ [.dropResource] = session s.taken := by
    rw [h.made hlive, hphase, Phase.calls, session, List.append_assoc]
    rfl
  refine ⟨h.order,by simp [ActorState.enter, Phase.looping],by simp [ActorState.enter, Phase.starting],
    ?_,h.done,fun _ => ?_,?_,fun _ => (calls_enter _ _).trans hmade,
    whole_enter h .dropResource (.dropping ok),by simp [ActorState.enter, Phase.looping],h.continued,
    fun hclean => h.shutdown (by rw [hphase]; exact hclean),by simp [ActorState.enter]⟩
  · intro command hcommand
    cases hcommand
  · exact hserved.trans (List.append_nil _).symm
  · rw [calls_enter]
    change s.calls.map CallRecord.call ++ [.dropResource] <+: session s.taken
    rw [hmade]

/-- A failed actor drops what is left in its queue. -/
theorem Serial.cancel (h : Serial budget s) (inbox : Channel InstanceCommand)
    (hphase : s.phase = .draining) : Serial budget { s with inbox := inbox } := by
  obtain ⟨h1,h2,h3,h4,h5,h6,h7,h8,h9,h10,h11,h12,h13⟩ := h
  refine ⟨h1,fun hlooping => ?_,h3,h4,h5,h6,h7,h8,h9,h10,h11,h12,h13⟩
  change s.phase.looping = true at hlooping
  rw [hphase] at hlooping
  cases hlooping

theorem Serial.step (h : Serial budget s) {label : ActorLabel}
    (hstep : ActorStep budget s label s') : Serial budget s' := by
  cases hstep with
  | call => exact h.of_same rfl rfl rfl rfl rfl rfl
  | enqueue hcaller hroom hqueue => exact (h.accept hqueue).of_same rfl rfl rfl rfl rfl rfl
  | refuse => exact h.of_same rfl rfl rfl rfl rfl rfl
  | post hcaller hroom hqueue => exact h.accept hqueue
  | lose => exact h
  | release => exact h.of_same rfl rfl rfl rfl rfl rfl
  | sendShutdown hhandle hroom hqueue => exact (h.accept hqueue).of_same rfl rfl rfl rfl rfl rfl
  | loseShutdown => exact h.of_same rfl rfl rfl rfl rfl rfl
  | tick => exact h.of_same rfl rfl rfl rfl rfl rfl
  | instantiate hphase => exact h.setup (by rw [hphase]; rfl) rfl (by rw [hphase]; rfl)
  | @fail _ failure fuel hphase =>
    have hsame : Serial budget { s with fuel := fuel } := h.of_same rfl rfl rfl rfl rfl rfl
    exact hsame.close (by simp)
  | construct hphase => exact h.setup (by rw [hphase]; rfl) rfl (by rw [hphase]; rfl)
  | @ready _ _ fuel hphase =>
    have htaken := h.untaken (by rw [hphase]; rfl)
    have hmade := h.made (by rw [hphase]; rfl)
    have hserved := h.taken (by rw [hphase]; rfl)
    obtain ⟨h1,h2,h3,h4,h5,h6,h7,h8,h9,h10,h11,h12,h13⟩ := h
    have hlooping : s.phase.looping = true := by rw [hphase]; rfl
    refine ⟨h1,fun _ => h2 hlooping,by simp [Phase.starting],by simp,h5,fun _ => ?_,h7,fun _ => ?_,
      h9,fun _ => h10 hlooping,h11,by simp [Phase.clean],by simp⟩
    · rw [hphase] at hserved
      exact hserved
    · rw [hphase] at hmade
      change s.calls.map CallRecord.call = Phase.idle.calls s.taken
      rw [hmade, htaken]
      rfl
  | take hphase hqueue hopen hcapacity hcall => exact h.take hphase hqueue hcall
  | skip hphase hqueue hopen hcapacity hcall hcommand => exact h.skip hphase hqueue hcall hcommand
  | @shutdown inbox hphase hqueue =>
    have hserved : s.taken = s.served.map Prod.fst := by
      simpa [hphase, Phase.command] using h.taken (by rw [hphase]; rfl)
    have hlooping : s.phase.looping = true := by rw [hphase]; rfl
    refine h.leave (by rw [hphase]; rfl) ?_ (by rw [hphase]; rfl) rfl ?_ ?_ fun _ => ⟨s.served,rfl⟩
    · refine ⟨inbox.queue,?_⟩
      rw [h.queued hlooping, hqueue, List.append_assoc]
      rfl
    · rw [List.map_append, ← hserved]
      rfl
    · rw [List.dropLast_concat]
      exact h.continues hlooping
  | reply hphase => exact (h.reply _ hphase).of_same rfl rfl rfl rfl rfl rfl
  | stopped hphase => exact h.release hphase
  | @dropped _ _ fuel _ _ hphase hfailure =>
    have hsame : Serial budget { s with fuel := fuel } := h.of_same rfl rfl rfl rfl rfl rfl
    refine hsame.close fun hnone => ?_
    rw [← hfailure hnone]
    exact hphase
  | cancel hphase => exact (h.cancel _ hphase).of_same rfl rfl rfl rfl rfl rfl
  | stop hphase hqueue =>
    have hserved : s.taken = s.served.map Prod.fst := by
      simpa [hphase, Phase.command] using h.taken (by rw [hphase]; rfl)
    have hleft : Serial budget (({ s with
        inbox := s.inbox
        taken := s.taken ++ []
        served := s.served ++ [] }.resetBudget budget).enter .stop (.stopping false)) :=
      h.leave (by rw [hphase]; rfl) (by simpa using h.order) (by rw [hphase]; rfl) rfl
        (by simpa using hserved) (by simpa using h.continued) (fun hok => Bool.noConfusion hok)
    simpa only [List.append_nil] using hleft
  | publish => exact h.of_same rfl rfl rfl rfl rfl rfl
  | wake => exact h.of_same rfl rfl rfl rfl rfl rfl
  | join => exact h.of_same rfl rfl rfl rfl rfl rfl

theorem serial_new : Serial budget .new where
  order := List.prefix_refl _
  queued := fun _ => rfl
  untaken := fun _ => rfl
  serving := by intro command hcommand; cases hcommand
  done := List.prefix_refl _
  taken := fun _ => rfl
  within := List.nil_prefix
  made := fun _ => rfl
  whole := by intro c hc; cases hc
  continues := by intro _ e he; cases he
  continued := by intro e he; cases he
  shutdown := by intro hclean; cases hclean
  complete := by intro hended; cases hended

theorem serial_of_reachable (h : (actorSystem budget).Reachable s) : Serial budget s := by
  refine h.invariant (Serial budget) ?_ fun s label s' hs _ hstep => hs.step (ActorState.step_cases hstep)
  rintro _ rfl
  exact serial_new

end Serial

/-- The guest is called for one command after the other, in the order in which the commands came
into the queue, and every call has the whole budget. Only the last command can have failed, and an
actor that ends well has made every call up to its shutdown. -/
theorem guest_called_serially {budget : CallBudget} {s : ActorState}
    (h : (actorSystem budget).Reachable s) :
    s.served.map Prod.fst <+: s.taken ∧ s.taken <+: s.accepted ∧
      s.calls.map CallRecord.call <+: session s.taken ∧
      (∀ c ∈ s.calls, c.fuel = budget.fuel ∧ c.ticks = timeoutEpochTicks budget.timeout) ∧
      (∀ e ∈ s.served.dropLast, Continues e) ∧
      (s.phase = .ended none → s.calls.map CallRecord.call = session s.taken ∧
        ∃ before, s.served = before ++ [(.shutdown,.ok ())] ∧
          s.taken = before.map Prod.fst ++ [.shutdown]) := by
  have hserial := serial_of_reachable h
  refine ⟨hserial.done,hserial.order,hserial.within,hserial.whole,hserial.continued,?_⟩
  intro hended
  obtain ⟨before,hserved⟩ := hserial.shutdown (by rw [hended]; rfl)
  obtain ⟨hcalls,htaken⟩ := hserial.complete hended
  refine ⟨hcalls,before,hserved,?_⟩
  rw [htaken, hserved, List.map_append]
  rfl

def defaultBudget : CallBudget := ⟨10^9,2 * 10^9,"2s"⟩

/-- An instance is started and shut down. -/
def startAndShutdown : List ActorLabel :=
  [.call .start,.load none,.finish .returned 0,.finish .returned 0,.send 0,.begin,
    .finish .returned 0,.shutdown,.sendShutdown,.begin,.finish .returned 0,.finish .returned 0,
    .publish,.join]

theorem guest_called_serially_session : ∃ s, (actorSystem defaultBudget).Reachable s ∧
    s.calls.map CallRecord.call = [.instantiate,.constructor,.start,.stop,.dropResource] := by
  have hrun : ∃ s, startAndShutdown.foldlM (ActorState.step defaultBudget) .new = some s ∧
      s.phase = .ended none ∧ s.taken = [.start 0,.shutdown] := ⟨_,rfl,rfl,rfl⟩
  obtain ⟨s,hs,hphase,htaken⟩ := hrun
  have hreach : (actorSystem defaultBudget).Reachable s :=
    System.reachable_foldlM (.of_init rfl) hs
  obtain ⟨-,-,-,-,-,hended⟩ := guest_called_serially hreach
  refine ⟨s,hreach,?_⟩
  rw [(hended hphase).1, htaken]
  rfl

/-- The commands whose answer is still to be given. -/
def ActorState.pending (s : ActorState) : List InstanceCommand :=
  s.phase.command.toList ++ s.inbox.queue

/-- The callers of commands. -/
def askers (commands : List InstanceCommand) : List ℕ :=
  commands.filterMap InstanceCommand.caller

/-- A caller whose command has entered the queue. -/
def Caller.Sent (c : Caller) : Prop := ∀ request, c ≠ .sending request

/-- Each caller waits for a command that is still to be answered, or has the answer. -/
structure Answered (s : ActorState) : Prop where
  opened : s.inbox.isOpen = !s.phase.isEnded
  capacity : s.inbox.capacity = queueCapacity
  dropped : s.phase.isEnded = true → s.inbox.queue = []
  order : (s.served.map Prod.fst ++ s.pending).Sublist s.accepted
  once : (askers s.accepted).Nodup
  sent : ∀ n ∈ askers s.accepted, ∃ c, s.callers[n]? = some c ∧ c.Sent
  waiting : ∀ n ∈ askers s.pending, s.callers[n]? = some .awaiting
  awaited : s.phase.isEnded = false → ∀ n, s.callers[n]? = some .awaiting → n ∈ askers s.pending
  served : ∀ e ∈ s.served, ∀ n, e.1.caller = some n → s.callers[n]? = some (.answered e.2)
  succeeded : ∀ n, s.callers[n]? = some (.answered (.ok ())) →
    ∃ e ∈ s.served, e.1.caller = some n ∧ e.2 = .ok ()

section Answered

variable {budget : CallBudget} {s s' : ActorState}

theorem askers_append (commands commands' : List InstanceCommand) :
    askers (commands ++ commands') = askers commands ++ askers commands' :=
  List.filterMap_append

theorem mem_askers {commands : List InstanceCommand} {n : ℕ} :
    n ∈ askers commands ↔ ∃ command ∈ commands, command.caller = some n :=
  List.mem_filterMap

theorem pending_of_isEnded (h : Answered s) (hended : s.phase.isEnded = true) :
    s.pending = [] := by
  have hcommand : s.phase.command = none := by
    cases hphase : s.phase <;> simp [hphase, Phase.isEnded, Phase.command] at hended ⊢
  rw [ActorState.pending, hcommand, h.dropped hended]
  rfl

/-- Steps that leave the callers, their commands and the answers alone. -/
theorem Answered.of_same (h : Answered s) (hended : s'.phase.isEnded = s.phase.isEnded)
    (hopen : s'.inbox.isOpen = s.inbox.isOpen) (hcapacity : s'.inbox.capacity = s.inbox.capacity)
    (hqueue : s'.phase.isEnded = true → s'.inbox.queue = s.inbox.queue)
    (hpending : s'.pending = s.pending) (hcallers : s'.callers = s.callers)
    (haccepted : s'.accepted = s.accepted) (hserved : s'.served = s.served) : Answered s' where
  opened := by rw [hopen, hended, h.opened]
  capacity := hcapacity.trans h.capacity
  dropped := fun hdropped => (hqueue hdropped).trans (h.dropped (hended ▸ hdropped))
  order := by rw [hserved, hpending, haccepted]; exact h.order
  once := by rw [haccepted]; exact h.once
  sent := by rw [haccepted, hcallers]; exact h.sent
  waiting := by rw [hpending, hcallers]; exact h.waiting
  awaited := by rw [hended, hpending, hcallers]; exact h.awaited
  served := by rw [hserved, hcallers]; exact h.served
  succeeded := by rw [hserved, hcallers]; exact h.succeeded

/-- A new caller. -/
theorem Answered.call (h : Answered s) (request : Request) :
    Answered { s with callers := s.callers ++ [.sending request] } := by
  have hold {n : ℕ} {c : Caller} (hn : s.callers[n]? = some c) :
      (s.callers ++ [.sending request])[n]? = some c := by
    rw [List.getElem?_append_left (List.getElem?_eq_some_iff.mp hn).1, hn]
  have hnew {n : ℕ} {c : Caller} (hc : c.Sent)
      (hn : (s.callers ++ [.sending request])[n]? = some c) : s.callers[n]? = some c := by
    rw [List.getElem?_append] at hn
    split_ifs at hn with hlt
    · exact hn
    · rw [List.getElem?_singleton] at hn
      split_ifs at hn
      cases hn
      exact absurd rfl (hc request)
  refine ⟨h.opened,h.capacity,h.dropped,h.order,h.once,?_,?_,?_,?_,?_⟩
  · intro n hn
    obtain ⟨c,hc,hsent⟩ := h.sent n hn
    exact ⟨c,hold hc,hsent⟩
  · exact fun n hn => hold (h.waiting n hn)
  · exact fun hlive n hn => h.awaited hlive n (hnew (by intro r hr; cases hr) hn)
  · exact fun e he n hn => hold (h.served e he n hn)
  · exact fun n hn => h.succeeded n (hnew (by intro r hr; cases hr) hn)

/-- A command without a caller enters the queue. -/
theorem Answered.post (h : Answered s) {command : InstanceCommand}
    {inbox : Channel InstanceCommand} (hcaller : command.caller = none) (hroom : s.inbox.HasRoom)
    (hqueue : inbox.queue = s.inbox.queue ++ [command])
    (hopen : inbox.isOpen = s.inbox.isOpen) (hcapacity : inbox.capacity = s.inbox.capacity) :
    Answered (s.push command inbox) := by
  have hlive : s.phase.isEnded = false := by
    simpa [h.opened] using hroom.1
  have hpending : (s.push command inbox).pending = s.pending ++ [command] := by
    change s.phase.command.toList ++ inbox.queue = _
    rw [hqueue, ActorState.pending, List.append_assoc]
  have haskers (commands : List InstanceCommand) :
      askers (commands ++ [command]) = askers commands := by
    rw [askers_append]
    simp [askers, hcaller]
  refine ⟨hopen.trans h.opened,hcapacity.trans h.capacity,?_,?_,?_,?_,?_,?_,h.served,h.succeeded⟩
  · intro hended
    exact absurd (hlive.symm.trans hended) (by decide)
  · rw [hpending, ← List.append_assoc]
    exact h.order.append (List.Sublist.refl _)
  · change (askers (s.accepted ++ [command])).Nodup
    rw [haskers]
    exact h.once
  · change ∀ n ∈ askers (s.accepted ++ [command]), _
    rw [haskers]
    exact h.sent
  · rw [hpending, haskers]
    exact h.waiting
  · rw [hpending, haskers]
    exact h.awaited

/-- The command of a caller enters the queue. -/
theorem Answered.enqueue (h : Answered s) {n : ℕ} {request : Request}
    {inbox : Channel InstanceCommand} (hn : s.callers[n]? = some (.sending request))
    (hroom : s.inbox.HasRoom) (hqueue : inbox.queue = s.inbox.queue ++ [request.command n])
    (hopen : inbox.isOpen = s.inbox.isOpen) (hcapacity : inbox.capacity = s.inbox.capacity) :
    Answered { s.push (request.command n) inbox with callers := s.callers.set n .awaiting } := by
  have hlive : s.phase.isEnded = false := by
    simpa [h.opened] using hroom.1
  have hcaller : (request.command n).caller = some n := by cases request <;> rfl
  have hpending : ({ s.push (request.command n) inbox with
      callers := s.callers.set n .awaiting } : ActorState).pending =
      s.pending ++ [request.command n] := by
    change s.phase.command.toList ++ inbox.queue = _
    rw [hqueue, ActorState.pending, List.append_assoc]
  have haskers (commands : List InstanceCommand) :
      askers (commands ++ [request.command n]) = askers commands ++ [n] := by
    rw [askers_append]
    simp [askers, hcaller]
  have hfresh : n ∉ askers s.accepted := by
    intro hmem
    obtain ⟨c,hc,hsent⟩ := h.sent n hmem
    exact hsent request (Option.some.inj (hc.symm.trans hn))
  have hset (m : ℕ) : (s.callers.set n .awaiting)[m]? =
      if n = m then some .awaiting else s.callers[m]? := Pool.getElem?_set hn
  refine ⟨hopen.trans h.opened,hcapacity.trans h.capacity,?_,?_,?_,?_,?_,?_,?_,?_⟩
  · intro hended
    exact absurd (hlive.symm.trans hended) (by decide)
  · rw [hpending, ← List.append_assoc]
    exact h.order.append (List.Sublist.refl _)
  · change (askers (s.accepted ++ [request.command n])).Nodup
    rw [haskers]
    exact List.nodup_append.mpr ⟨h.once,List.nodup_singleton n,by
      rintro m hm _ hmem rfl
      rw [List.mem_singleton.mp hmem] at hm
      exact hfresh hm⟩
  · change ∀ m ∈ askers (s.accepted ++ [request.command n]),
      ∃ c, (s.callers.set n .awaiting)[m]? = some c ∧ c.Sent
    rw [haskers]
    intro m hm
    rw [hset]
    split_ifs with heq
    · exact ⟨.awaiting,rfl,by intro r hr; cases hr⟩
    · refine h.sent m ((List.mem_append.mp hm).resolve_right fun hmem => ?_)
      exact heq (List.mem_singleton.mp hmem).symm
  · rw [hpending, haskers]
    intro m hm
    rw [hset]
    split_ifs with heq
    · rfl
    · refine h.waiting m ((List.mem_append.mp hm).resolve_right fun hmem => ?_)
      exact heq (List.mem_singleton.mp hmem).symm
  · rw [hpending, haskers]
    intro _ m hm
    rw [hset] at hm
    split_ifs at hm with heq
    · rw [heq]
      exact List.mem_append_right _ (List.mem_singleton_self m)
    · exact List.mem_append_left _ (h.awaited hlive m hm)
  · intro e he m hm
    rw [hset, if_neg]
    · exact h.served e he m hm
    · rintro rfl
      cases hn.symm.trans (h.served e he _ hm)
  · intro m hm
    rw [hset] at hm
    split_ifs at hm with heq
    · cases hm
    · exact h.succeeded m hm

/-- A caller whose command is not in the queue, or lost, gets an error. -/
theorem Answered.reject (h : Answered s) {n : ℕ} {c : Caller} {error : InstanceError}
    (hn : s.callers[n]? = some c) (hc : ∀ result, c ≠ .answered result)
    (hpending : n ∉ askers s.pending) :
    Answered { s with callers := s.callers.set n (.answered (.error error)) } := by
  have hset (m : ℕ) : (s.callers.set n (.answered (.error error)))[m]? =
      if n = m then some (.answered (.error error)) else s.callers[m]? := Pool.getElem?_set hn
  refine ⟨h.opened,h.capacity,h.dropped,h.order,h.once,?_,?_,?_,?_,?_⟩
  · intro m hm
    change ∃ c, (s.callers.set n _)[m]? = some c ∧ c.Sent
    rw [hset]
    split_ifs
    · exact ⟨_,rfl,by intro r hr; cases hr⟩
    · exact h.sent m hm
  · intro m hm
    change (s.callers.set n _)[m]? = _
    rw [hset, if_neg]
    · exact h.waiting m hm
    · rintro rfl
      exact hpending hm
  · intro hlive m hm
    rw [hset] at hm
    split_ifs at hm with heq
    · cases hm
    · exact h.awaited hlive m hm
  · intro e he m hm
    change (s.callers.set n _)[m]? = _
    rw [hset, if_neg]
    · exact h.served e he m hm
    · rintro rfl
      exact hc _ (Option.some.inj (hn.symm.trans (h.served e he _ hm)))
  · intro m hm
    rw [hset] at hm
    split_ifs at hm with heq
    · cases hm
    · exact h.succeeded m hm

/-- The next command is answered, and recorded when it was served. -/
theorem Answered.settle (h : Answered s) (command : InstanceCommand)
    (rest : List InstanceCommand) {result : Except InstanceError Unit}
    (hlive : s.phase.isEnded = false) (hpending : s.pending = command :: rest)
    (hended : s'.phase.isEnded = false) (hopen : s'.inbox.isOpen = s.inbox.isOpen)
    (hcapacity : s'.inbox.capacity = s.inbox.capacity) (hpending' : s'.pending = rest)
    (hcallers : s'.callers = (s.answer command result).callers) (haccepted : s'.accepted = s.accepted)
    (hserved : s'.served = s.served ++ [(command,result)] ∨
      s'.served = s.served ∧ result ≠ .ok ()) : Answered s' := by
  have honce : (askers (s.served.map Prod.fst ++ command :: rest)).Nodup := by
    rw [← hpending]
    exact h.once.sublist (h.order.filterMap _)
  rw [askers_append, List.nodup_append] at honce
  obtain ⟨-,hfresh,hdisjoint⟩ := honce
  have hmem (n : ℕ) : n ∈ askers (command :: rest) ↔ command.caller = some n ∨ n ∈ askers rest := by
    simp only [mem_askers, List.mem_cons, exists_eq_or_imp]
  have hnew {n : ℕ} (hn : command.caller = some n) : n ∉ askers rest := by
    rw [askers, List.filterMap_cons_some hn, List.nodup_cons] at hfresh
    exact hfresh.1
  have hset (m : ℕ) : s'.callers[m]? =
      if command.caller = some m then some (.answered result) else s.callers[m]? := by
    rw [hcallers, ActorState.answer]
    cases hn : command.caller with
    | none => rw [if_neg (by simp)]
    | some n =>
      have hwaiting := h.waiting n (by rw [hpending, hmem]; exact .inl hn)
      rw [Pool.getElem?_set hwaiting]
      simp only [Option.some.injEq]
  have hserved' (e : InstanceCommand × Except InstanceError Unit) (he : e ∈ s'.served) :
      e ∈ s.served ∨ e = (command,result) := by
    obtain hserved | ⟨hserved,-⟩ := hserved
    · rw [hserved] at he
      exact (List.mem_append.mp he).imp_right List.mem_singleton.mp
    · exact .inl (hserved ▸ he)
  refine ⟨?_,hcapacity.trans h.capacity,?_,?_,haccepted ▸ h.once,?_,?_,?_,?_,?_⟩
  · rw [hopen, h.opened, hlive, hended]
  · intro hafter
    exact absurd (hended.symm.trans hafter) (by decide)
  · have horder := h.order
    rw [hpending] at horder
    rw [hpending', haccepted]
    obtain hserved | ⟨hserved,-⟩ := hserved
    · rw [hserved, List.map_append, List.append_assoc]
      exact horder
    · rw [hserved]
      exact ((List.Sublist.refl _).append (List.sublist_cons_self _ _)).trans horder
  · intro m hm
    rw [haccepted] at hm
    rw [hset]
    split_ifs
    · exact ⟨_,rfl,by intro r hr; cases hr⟩
    · exact h.sent m hm
  · intro m hm
    rw [hpending'] at hm
    rw [hset, if_neg (fun hcaller => hnew hcaller hm)]
    exact h.waiting m (by rw [hpending, hmem]; exact .inr hm)
  · intro _ m hm
    rw [hset] at hm
    split_ifs at hm with hcaller
    · cases hm
    · have hold := h.awaited hlive m hm
      rw [hpending, hmem] at hold
      rw [hpending']
      exact hold.resolve_left hcaller
  · intro e he m hm
    rw [hset]
    obtain hold | rfl := hserved' e he
    · rw [if_neg]
      · exact h.served e hold m hm
      · intro hcaller
        refine hdisjoint m ?_ m ((hmem m).mpr (.inl hcaller)) rfl
        exact mem_askers.mpr ⟨e.1,List.mem_map_of_mem hold,hm⟩
    · exact if_pos hm
  · intro m hm
    rw [hset] at hm
    split_ifs at hm with hcaller
    · have hresult : result = .ok () := Caller.answered.inj (Option.some.inj hm)
      obtain hserved | ⟨-,hfailed⟩ := hserved
      · refine ⟨(command,result),?_,hcaller,hresult⟩
        rw [hserved]
        exact List.mem_append_right _ (List.mem_singleton_self _)
      · exact absurd hresult hfailed
    · obtain ⟨e,he,hn⟩ := h.succeeded m hm
      refine ⟨e,?_,hn⟩
      obtain hserved | ⟨hserved,-⟩ := hserved
      · rw [hserved]
        exact List.mem_append_left _ he
      · rw [hserved]
        exact he

/-- The commands that are left are dropped with the queue. -/
theorem Answered.close (h : Answered s) (failure : Option String) : Answered (s.close failure) where
  opened := rfl
  capacity := h.capacity
  dropped := fun _ => rfl
  order := by
    refine List.Sublist.trans ?_ h.order
    exact (List.Sublist.refl _).append (List.nil_sublist _)
  once := h.once
  sent := h.sent
  waiting := by intro n hn; cases hn
  awaited := by intro hlive; cases hlive
  served := h.served
  succeeded := h.succeeded

/-- A step to another phase that serves the same command. -/
theorem Answered.enter (h : Answered s) {phase : Phase} (call : GuestCall)
    (hended : phase.isEnded = s.phase.isEnded) (hcommand : phase.command = s.phase.command) :
    Answered ((s.resetBudget budget).enter call phase) := by
  refine h.of_same hended rfl rfl (fun _ => rfl) ?_ rfl rfl rfl
  change phase.command.toList ++ s.inbox.queue = _
  rw [hcommand, ActorState.pending]

theorem Answered.step (h : Answered s) {label : ActorLabel}
    (hstep : ActorStep budget s label s') : Answered s' := by
  cases hstep with
  | call => exact h.call _
  | enqueue hcaller hroom hqueue hopen hcapacity =>
    exact h.enqueue hcaller hroom hqueue hopen hcapacity
  | refuse hcaller hclosed =>
    have hended : s.phase.isEnded = true := by simpa [h.opened] using hclosed
    refine h.reject hcaller (by intro r hr; cases hr) ?_
    rw [pending_of_isEnded h hended]
    exact List.not_mem_nil
  | post hcaller hroom hqueue hopen hcapacity => exact h.post hcaller hroom hqueue hopen hcapacity
  | lose => exact h
  | release => exact h.of_same rfl rfl rfl (fun _ => rfl) rfl rfl rfl rfl
  | @sendShutdown inbox hhandle hroom hqueue hopen hcapacity =>
    have hpost : Answered (s.push .shutdown inbox) := h.post rfl hroom hqueue hopen hcapacity
    exact hpost.of_same rfl rfl rfl (fun _ => rfl) rfl rfl rfl rfl
  | loseShutdown => exact h.of_same rfl rfl rfl (fun _ => rfl) rfl rfl rfl rfl
  | tick => exact h.of_same rfl rfl rfl (fun _ => rfl) rfl rfl rfl rfl
  | instantiate hphase => exact h.enter _ (by rw [hphase]; rfl) (by rw [hphase]; rfl)
  | @fail _ failure fuel hphase =>
    have hsame : Answered { s with fuel := fuel } :=
      h.of_same rfl rfl rfl (fun _ => rfl) rfl rfl rfl rfl
    exact hsame.close _
  | construct hphase => exact h.enter _ (by rw [hphase]; rfl) (by rw [hphase]; rfl)
  | ready hphase =>
    refine h.of_same (by rw [hphase]; rfl) rfl rfl (fun _ => rfl) ?_ rfl rfl rfl
    rw [ActorState.pending, ActorState.pending, hphase]
    rfl
  | take hphase hqueue hopen hcapacity hcall =>
    refine h.of_same (by rw [hphase]; rfl) hopen hcapacity (by simp [ActorState.enter, Phase.isEnded])
      ?_ rfl rfl rfl
    rw [ActorState.pending, ActorState.pending, hphase, hqueue]
    rfl
  | @skip command inbox hphase hqueue hopen hcapacity hcall hcommand =>
    have hlive : s.phase.isEnded = false := by rw [hphase]; rfl
    have hcaller : command.caller = none := by
      cases command <;> first | rfl | cases hcall
    refine h.settle command inbox.queue hlive ?_ hlive hopen hcapacity ?_ ?_ rfl (.inl rfl)
    · rw [ActorState.pending, hphase, hqueue]
      rfl
    · rw [ActorState.pending, hphase]
      rfl
    · rw [ActorState.answer, hcaller]
  | @shutdown inbox hphase hqueue hopen hcapacity =>
    have hlive : s.phase.isEnded = false := by rw [hphase]; rfl
    refine h.settle .shutdown inbox.queue hlive ?_ rfl hopen hcapacity rfl rfl rfl (.inl rfl)
    rw [ActorState.pending, hphase, hqueue]
    rfl
  | @reply _ _ fuel command result hphase =>
    have hlive : s.phase.isEnded = false := by rw [hphase]; rfl
    refine h.settle command s.inbox.queue hlive ?_ ?_ rfl rfl ?_ rfl rfl (.inl rfl)
    · rw [ActorState.pending, hphase]
      rfl
    · dsimp only
      split_ifs <;> rfl
    · rw [ActorState.pending]
      dsimp only
      split_ifs <;> rfl
  | stopped hphase => exact h.enter _ (by rw [hphase]; rfl) (by rw [hphase]; rfl)
  | @dropped _ _ fuel _ _ hphase hfailure =>
    have hsame : Answered { s with fuel := fuel } :=
      h.of_same rfl rfl rfl (fun _ => rfl) rfl rfl rfl rfl
    exact hsame.close _
  | @cancel command inbox error hphase hqueue hopen hcapacity =>
    have hlive : s.phase.isEnded = false := by rw [hphase]; rfl
    refine h.settle command inbox.queue hlive ?_ hlive hopen hcapacity ?_ rfl rfl
      (.inr ⟨rfl,by simp⟩)
    · rw [ActorState.pending, hphase, hqueue]
      rfl
    · rw [ActorState.pending]
      dsimp only [ActorState.answer]
      rw [hphase]
      rfl
  | stop hphase => exact h.enter _ (by rw [hphase]; rfl) (by rw [hphase]; rfl)
  | publish => exact h.of_same rfl rfl rfl (fun _ => rfl) rfl rfl rfl rfl
  | wake hphase hpublished hcaller =>
    refine h.reject hcaller (by intro r hr; cases hr) ?_
    rw [pending_of_isEnded h (by rw [hphase]; rfl)]
    exact List.not_mem_nil
  | join => exact h.of_same rfl rfl rfl (fun _ => rfl) rfl rfl rfl rfl

theorem answered_new : Answered .new where
  opened := rfl
  capacity := rfl
  dropped := fun _ => rfl
  order := List.nil_sublist _
  once := List.nodup_nil
  sent := by intro n hn; cases hn
  waiting := by intro n hn; cases hn
  awaited := by intro _ n hn; cases hn
  served := by intro e he; cases he
  succeeded := by intro n hn; cases hn

theorem answered_of_reachable (h : (actorSystem budget).Reachable s) : Answered s := by
  refine h.invariant Answered ?_ fun s label s' hs _ hstep => hs.step (ActorState.step_cases hstep)
  rintro _ rfl
  exact answered_new

theorem kept_of_set {l : List Caller} {n m : ℕ} {c c' : Caller} {result : Except InstanceError Unit}
    (hm : l[m]? = some c) (hc : ∀ result, c ≠ .answered result)
    (hn : l[n]? = some (.answered result)) : (l.set m c')[n]? = some (.answered result) := by
  rw [List.getElem?_set_ne, hn]
  rintro rfl
  exact hc _ (Option.some.inj (hm.symm.trans hn))

/-- An answer never changes. -/
theorem Answered.kept (h : Answered s) {label : ActorLabel} (hstep : ActorStep budget s label s')
    {n : ℕ} {result : Except InstanceError Unit} (hn : s.callers[n]? = some (.answered result)) :
    s'.callers[n]? = some (.answered result) := by
  have hanswer {s₀ : ActorState} {command : InstanceCommand}
      (answer : Except InstanceError Unit) (hcallers : s₀.callers = s.callers)
      (hpending : command ∈ s.pending) :
      (s₀.answer command answer).callers[n]? = some (.answered result) := by
    rw [ActorState.answer, hcallers]
    cases hcaller : command.caller with
    | none => exact hn
    | some m =>
      have hwaiting := h.waiting m (mem_askers.mpr ⟨command,hpending,hcaller⟩)
      exact kept_of_set hwaiting (by intro r hr; cases hr) hn
  cases hstep with
  | call => exact (List.getElem?_append_left (List.getElem?_eq_some_iff.mp hn).1).trans hn
  | enqueue hcaller | refuse hcaller => exact kept_of_set hcaller (by intro r hr; cases hr) hn
  | wake _ _ hcaller => exact kept_of_set hcaller (by intro r hr; cases hr) hn
  | reply hphase =>
    refine hanswer _ rfl ?_
    rw [ActorState.pending, hphase]
    exact List.mem_cons_self
  | cancel hphase hqueue =>
    refine hanswer _ rfl ?_
    rw [ActorState.pending, hphase, hqueue]
    exact List.mem_cons_self
  | _ => exact hn

end Answered

def Phase.work : Phase → ℕ
  | .loading => 8
  | .instantiating => 7
  | .constructing => 6
  | .serving _ => 5
  | .idle => 4
  | .draining => 3
  | .stopping _ => 2
  | .dropping _ => 1
  | .ended _ => 0

def Caller.work : Caller → ℕ
  | .sending _ => 5
  | .awaiting => 1
  | .answered _ => 0

def Handle.work : Handle → ℕ
  | .sending => 5
  | .joining => 1
  | .held | .joined _ => 0

def callersWork (callers : List Caller) : ℕ := (callers.map Caller.work).sum

/-- A bound on the steps until the actor waits for input. -/
def ActorState.work (s : ActorState) : ℕ :=
  s.phase.work + 3 * s.inbox.queue.length + callersWork s.callers + s.handle.work +
    (!s.published).toNat

section Progress

variable {budget : CallBudget} {s s' : ActorState}

theorem callersWork_set {l : List Caller} {n : ℕ} {c : Caller} (hn : l[n]? = some c) (c' : Caller) :
    callersWork (l.set n c') + c.work = callersWork l + c'.work := by
  obtain ⟨pre,post,rfl,hset,-⟩ := Pool.exists_split hn
  simp only [callersWork, hset, List.map_append, List.map_cons, List.sum_append, List.sum_cons]
  omega

@[simp] theorem ActorState.phase_answer (s : ActorState) (command : InstanceCommand)
    (result : Except InstanceError Unit) : (s.answer command result).phase = s.phase := rfl

@[simp] theorem ActorState.inbox_answer (s : ActorState) (command : InstanceCommand)
    (result : Except InstanceError Unit) : (s.answer command result).inbox = s.inbox := rfl

@[simp] theorem ActorState.published_answer (s : ActorState) (command : InstanceCommand)
    (result : Except InstanceError Unit) : (s.answer command result).published = s.published := rfl

@[simp] theorem ActorState.handle_answer (s : ActorState) (command : InstanceCommand)
    (result : Except InstanceError Unit) : (s.answer command result).handle = s.handle := rfl

theorem callersWork_answer_le (s : ActorState) (command : InstanceCommand)
    (result : Except InstanceError Unit) :
    callersWork (s.answer command result).callers ≤ callersWork s.callers := by
  rw [ActorState.answer]
  cases command.caller with
  | none => exact le_refl _
  | some n =>
    cases hn : s.callers[n]? with
    | none =>
      exact le_of_eq (congrArg callersWork
        (List.set_eq_of_length_le (List.getElem?_eq_none_iff.mp hn)))
    | some c =>
      have hset := callersWork_set hn (.answered result)
      change callersWork (s.callers.set n (.answered result)) ≤ _
      simp only [Caller.work, Nat.add_zero] at hset
      exact hset ▸ Nat.le_add_right _ _

theorem Phase.work_pos {phase : Phase} (h : phase.isEnded = false) : 0 < phase.work := by
  cases phase <;> first | cases h; done | exact Nat.succ_pos _

/-- Every step but those of the outside brings the actor nearer to its rest. -/
theorem work_lt {label : ActorLabel} (hstep : ActorStep budget s label s')
    (hlabel : label.isInput = false) : s'.work < s.work := by
  cases hstep with
  | call | post | lose | release | tick => cases hlabel
  | @sendShutdown inbox hhandle hroom hqueue =>
    have hlength := congrArg List.length hqueue
    rw [List.length_append, List.length_singleton] at hlength
    simp only [ActorState.work, ActorState.push, hhandle, Handle.work]
    omega
  | loseShutdown hhandle =>
    simp only [ActorState.work, hhandle, Handle.work]
    omega
  | @enqueue n request inbox hcaller hroom hqueue =>
    have hset := callersWork_set hcaller .awaiting
    have hlength := congrArg List.length hqueue
    rw [List.length_append, List.length_singleton] at hlength
    simp only [Caller.work] at hset
    simp only [ActorState.work, ActorState.push]
    omega
  | @refuse n request error hcaller hclosed =>
    have hset := callersWork_set hcaller (.answered (.error error))
    simp only [Caller.work] at hset
    simp only [ActorState.work]
    omega
  | instantiate hphase | construct hphase | ready hphase | stopped hphase | stop hphase =>
    simp only [ActorState.work, ActorState.enter, ActorState.resetBudget, hphase, Phase.work]
    omega
  | fail hphase =>
    have hpos := Phase.work_pos hphase
    change 0 + 3 * 0 + callersWork s.callers + s.handle.work + (!s.published).toNat < _
    simp only [ActorState.work]
    omega
  | take hphase hqueue | shutdown hphase hqueue =>
    have hlength := congrArg List.length hqueue
    rw [List.length_cons] at hlength
    simp only [ActorState.work, ActorState.enter, ActorState.resetBudget, hphase, Phase.work]
    omega
  | skip hphase hqueue =>
    have hlength := congrArg List.length hqueue
    rw [List.length_cons] at hlength
    simp only [ActorState.work]
    omega
  | @reply _ _ fuel command result hphase =>
    have hle : callersWork ({ s with
        fuel := fuel
        served := s.served ++ [(command,result)] }.answer command result).callers ≤
        callersWork s.callers := callersWork_answer_le _ _ _
    have hbefore : s.phase.work = 5 := by rw [hphase]; rfl
    have hrest : (if result = .ok () then Phase.idle else .draining).work ≤ 4 := by
      split_ifs <;> decide
    simp only [ActorState.work, ActorState.inbox_answer, ActorState.published_answer,
      ActorState.handle_answer]
    omega
  | dropped hphase =>
    change 0 + 3 * 0 + callersWork s.callers + s.handle.work + (!s.published).toNat < _
    simp only [ActorState.work, hphase, Phase.work]
    omega
  | @cancel command inbox error hphase hqueue =>
    have hle : callersWork ({ s with inbox := inbox }.answer command (.error error)).callers ≤
        callersWork s.callers := callersWork_answer_le _ _ _
    have hlength := congrArg List.length hqueue
    rw [List.length_cons] at hlength
    simp only [ActorState.work, ActorState.inbox_answer, ActorState.published_answer,
      ActorState.handle_answer, ActorState.phase_answer]
    omega
  | publish hphase hpublished =>
    simp only [ActorState.work, hpublished]
    simp
  | @wake n failure error hphase hpublished hcaller =>
    have hset := callersWork_set hcaller (.answered (.error error))
    simp only [Caller.work] at hset
    simp only [ActorState.work]
    omega
  | join hphase hpublished hhandle =>
    simp only [ActorState.work, hhandle, Handle.work]
    omega

/-- An actor with nothing left to do waits for a command, or its end is known. -/
theorem idle_of_rest (hrest : ∀ label : ActorLabel, label.isInput = false →
    (∀ error, label ≠ .abort error) → s.step budget label = none) :
    (s.phase = .idle ∧ s.inbox.queue = []) ∨
      ∃ failure, s.phase = .ended failure ∧ s.published = true := by
  have hfinish := hrest (.finish .returned 0) rfl (by simp)
  cases hphase : s.phase with
  | loading =>
    have hload := hrest (.load none) rfl (by simp)
    simp [ActorState.step, ActorState.load, hphase] at hload
  | idle =>
    have hbegin := hrest .begin rfl (by simp)
    cases hrecv : s.inbox.recv with
    | none => exact .inl ⟨rfl,(Channel.recv_eq_none_iff _).mp hrecv⟩
    | some received => simp [ActorState.step, ActorState.begin, hphase, hrecv] at hbegin
  | draining =>
    have hdrain := hrest .drain rfl (by simp)
    cases hrecv : s.inbox.recv <;>
      simp [ActorState.step, ActorState.drain, hphase, hrecv] at hdrain
  | ended failure =>
    have hpublish := hrest .publish rfl (by simp)
    simp only [ActorState.step, hphase, ite_eq_left_iff, reduceCtorEq, imp_false, not_not] at hpublish
    exact .inr ⟨failure,rfl,hpublish⟩
  | instantiating | constructing | serving command | stopping ok | dropping ok =>
    simp [ActorState.step, ActorState.finish, ActorState.admits, CallBudget.setupCallError,
      hphase] at hfinish

/-- Where nothing is left to do, there is room in the queue or nobody takes from it. -/
theorem Answered.not_full_of_rest (h : Answered s) (hrest : ∀ label : ActorLabel,
    label.isInput = false → (∀ error, label ≠ .abort error) → s.step budget label = none)
    (command : InstanceCommand) : s.inbox.trySend command ≠ .error .full := by
  intro hfull
  obtain ⟨hroom,hclosed⟩ := Channel.trySend_eq_error hfull
  have hopen : s.inbox.isOpen = true := by simpa using hclosed
  refine absurd ⟨hopen,?_⟩ hroom
  obtain ⟨-,hqueue⟩ | ⟨failure,hphase,-⟩ := idle_of_rest hrest
  · rw [hqueue, h.capacity]
    exact Nat.zero_lt_succ _
  · rw [h.opened, hphase] at hopen
    cases hopen

/-- Where nothing is left to do, every caller has its answer. -/
theorem Answered.rest (h : Answered s) (hrest : ∀ label : ActorLabel, label.isInput = false →
    (∀ error, label ≠ .abort error) → s.step budget label = none) (n : ℕ) (c : Caller)
    (hn : s.callers[n]? = some c) : ∃ result, c = .answered result := by
  cases c with
  | answered result => exact ⟨result,rfl⟩
  | sending request =>
    have hsend := hrest (.send n) rfl (by simp)
    simp only [ActorState.step, ActorState.send, hn] at hsend
    split at hsend
    · cases hsend
    · rename_i hfull
      exact absurd hfull (h.not_full_of_rest hrest _)
    · cases hsend
  | awaiting =>
    obtain ⟨hphase,hqueue⟩ | ⟨failure,hphase,hpublished⟩ := idle_of_rest hrest
    · have hmem := h.awaited (by rw [hphase]; rfl) n hn
      rw [ActorState.pending, hphase, hqueue] at hmem
      cases hmem
    · have hwake := hrest (.wake n) rfl (by simp)
      simp [ActorState.step, ActorState.wake, hphase, hpublished, hn] at hwake

end Progress

/-- The shutdown of the handle has been sent, or could not be. -/
def Handle.left : Handle → Bool
  | .held | .sending => false
  | .joining | .joined _ => true

/-- Who waits for the end of the actor has a shutdown in its queue, unless the loop has been left. -/
structure Joins (s : ActorState) : Prop where
  waits : s.handle = .joining → s.phase.looping = true → .shutdown ∈ s.inbox.queue
  joined : ∀ failure, s.handle = .joined failure → s.phase = .ended failure
  once : s.accepted.count .shutdown ≤ s.handle.left.toNat

section Joins

variable {budget : CallBudget} {s s' : ActorState}

/-- Steps that leave the handle and the shutdowns alone. -/
theorem Joins.of_same (h : Joins s) (hhandle : s'.handle = s.handle)
    (haccepted : s'.accepted.count .shutdown = s.accepted.count .shutdown)
    (hwaits : s'.phase.looping = true → s.phase.looping = true ∧
      (.shutdown ∈ s.inbox.queue → .shutdown ∈ s'.inbox.queue))
    (hended : ∀ failure, s.phase = .ended failure → s'.phase = .ended failure) : Joins s' where
  waits := by
    intro hjoining hlooping
    obtain ⟨hbefore,hqueue⟩ := hwaits hlooping
    exact hqueue (h.waits (hhandle ▸ hjoining) hbefore)
  joined := fun failure hjoined => hended failure (h.joined failure (hhandle ▸ hjoined))
  once := by rw [haccepted, hhandle]; exact h.once

/-- A command other than the shutdown enters the queue. -/
theorem Joins.push (h : Joins s) {command : InstanceCommand} {inbox : Channel InstanceCommand}
    (hcommand : command ≠ .shutdown) (hqueue : inbox.queue = s.inbox.queue ++ [command]) :
    Joins (s.push command inbox) := by
  refine h.of_same rfl ?_ (fun hlooping => ⟨hlooping,fun hmem => ?_⟩) fun _ hphase => hphase
  · change (s.accepted ++ [command]).count .shutdown = _
    rw [List.count_append, List.count_singleton, if_neg (by simpa using hcommand), Nat.add_zero]
  · change .shutdown ∈ inbox.queue
    rw [hqueue]
    exact List.mem_append_left _ hmem

/-- A step to a phase outside the loop, from one that has not ended. -/
theorem Joins.leave (h : Joins s) (hhandle : s'.handle = s.handle)
    (haccepted : s'.accepted = s.accepted) (hlooping : s'.phase.looping = false)
    (hlive : s.phase.isEnded = false) : Joins s' := by
  refine h.of_same hhandle (by rw [haccepted]) (fun hloops => ?_) fun failure hphase => ?_
  · exact absurd (hlooping.symm.trans hloops) (by decide)
  · rw [hphase] at hlive
    cases hlive

/-- A step inside the loop that keeps a shutdown in the queue. -/
theorem Joins.loop (h : Joins s) (hhandle : s'.handle = s.handle)
    (haccepted : s'.accepted = s.accepted) (hlooping : s.phase.looping = true)
    (hqueue : .shutdown ∈ s.inbox.queue → .shutdown ∈ s'.inbox.queue) : Joins s' := by
  refine h.of_same hhandle (by rw [haccepted]) (fun _ => ⟨hlooping,hqueue⟩) fun failure hphase => ?_
  rw [hphase] at hlooping
  cases hlooping

/-- Who has learned the end of the actor has learned it for good. -/
theorem handle_kept {label : ActorLabel} (hstep : ActorStep budget s label s')
    {failure : Option String} (h : s.handle = .joined failure) : s'.handle = .joined failure := by
  cases hstep with
  | release hhandle | sendShutdown hhandle | loseShutdown hhandle =>
    rw [h] at hhandle
    cases hhandle
  | join _ _ hhandle =>
    rw [h] at hhandle
    cases hhandle
  | _ => exact h

theorem mem_of_taken {commands rest : List InstanceCommand} {command : InstanceCommand}
    (hqueue : commands = command :: rest) (hcommand : command ≠ .shutdown)
    (h : .shutdown ∈ commands) : .shutdown ∈ rest := by
  rw [hqueue] at h
  exact (List.mem_cons.mp h).resolve_left fun heq => hcommand heq.symm

theorem Joins.step (h : Joins s) (hanswered : Answered s) {label : ActorLabel}
    (hstep : ActorStep budget s label s') : Joins s' := by
  have hsame {callers : List Caller} : Joins { s with callers := callers } :=
    h.of_same rfl rfl (fun hlooping => ⟨hlooping,id⟩) fun _ hphase => hphase
  cases hstep with
  | call | refuse | wake => exact hsame
  | @enqueue n request inbox hcaller hroom hqueue =>
    have hpush : Joins (s.push (request.command n) inbox) :=
      h.push (by cases request <;> simp [Request.command]) hqueue
    exact hpush.of_same rfl rfl (fun hlooping => ⟨hlooping,id⟩) fun _ hphase => hphase
  | post _ _ hqueue _ _ hcommand => exact h.push hcommand hqueue
  | lose => exact h
  | release hhandle =>
    refine ⟨by simp,by simp,?_⟩
    have hnone := h.once
    rw [hhandle] at hnone
    exact hnone
  | @sendShutdown inbox hhandle hroom hqueue =>
    refine ⟨fun _ _ => ?_,by simp,?_⟩
    · change .shutdown ∈ inbox.queue
      rw [hqueue]
      exact List.mem_append_right _ (List.mem_singleton_self _)
    · have hnone := h.once
      rw [hhandle] at hnone
      change (s.accepted ++ [InstanceCommand.shutdown]).count .shutdown ≤ 1
      rw [List.count_append, Nat.le_zero.mp hnone]
      simp
  | loseShutdown hhandle hclosed =>
    have hended : s.phase.looping = false := by
      have hopen := hanswered.opened
      rw [hclosed] at hopen
      cases hphase : s.phase <;> first | rfl | simp [hphase, Phase.isEnded] at hopen
    refine ⟨fun _ hlooping => absurd (hended.symm.trans hlooping) (by decide),by simp,?_⟩
    have hnone := h.once
    rw [hhandle] at hnone
    exact hnone.trans (Nat.zero_le _)
  | tick | publish => exact h.of_same rfl rfl (fun hlooping => ⟨hlooping,id⟩) fun _ hphase => hphase
  | instantiate hphase | construct hphase | ready hphase =>
    exact h.loop rfl rfl (by rw [hphase]; rfl) id
  | fail hphase => exact h.leave rfl rfl rfl hphase
  | take hphase hqueue _ _ hcall =>
    refine h.loop rfl rfl (by rw [hphase]; rfl) (mem_of_taken hqueue ?_)
    rintro rfl
    cases hcall
  | skip hphase hqueue _ _ _ hcommand =>
    exact h.loop rfl rfl (by rw [hphase]; rfl) (mem_of_taken hqueue hcommand)
  | shutdown hphase | stopped hphase | dropped hphase | stop hphase =>
    exact h.leave rfl rfl rfl (by rw [hphase]; rfl)
  | reply hphase => exact h.loop rfl rfl (by rw [hphase]; rfl) id
  | cancel hphase => exact h.leave rfl rfl (by rw [hphase]; rfl) (by rw [hphase]; rfl)
  | join hphase hpublished hhandle =>
    refine ⟨by simp,?_,?_⟩
    · rintro failure hjoined
      rw [hphase, Handle.joined.inj hjoined]
    · have honce := h.once
      rw [hhandle] at honce
      exact honce

theorem joins_of_reachable (h : (actorSystem budget).Reachable s) : Joins s := by
  refine (h.invariant (fun s => Answered s ∧ Joins s) ?_ ?_).2
  · rintro _ rfl
    exact ⟨answered_new,⟨(by intro hjoining; cases hjoining),
      (by intro failure hjoined; cases hjoined),le_refl _⟩⟩
  · rintro s label s' ⟨hanswered,hjoins⟩ - hstep
    have hcases := ActorState.step_cases hstep
    exact ⟨hanswered.step hcases,hjoins.step hanswered hcases⟩

/-- Where nothing is left to do, nobody waits for the end of the actor. -/
theorem Joins.rest (h : Joins s) (hanswered : Answered s)
    (hrest : ∀ label : ActorLabel, label.isInput = false →
      (∀ error, label ≠ .abort error) → s.step budget label = none) :
    s.handle = .held ∨ ∃ failure, s.handle = .joined failure := by
  cases hhandle : s.handle with
  | held => exact .inl rfl
  | joined failure => exact .inr ⟨failure,rfl⟩
  | sending =>
    have hsend := hrest .sendShutdown rfl (by simp)
    simp only [ActorState.step, ActorState.sendShutdown, hhandle] at hsend
    split at hsend
    · cases hsend
    · rename_i hfull
      exact absurd hfull (hanswered.not_full_of_rest hrest _)
    · cases hsend
  | joining =>
    obtain ⟨hphase,hqueue⟩ | ⟨failure,hphase,hpublished⟩ := idle_of_rest hrest
    · have hmem := h.waits hhandle (by rw [hphase]; rfl)
      rw [hqueue] at hmem
      cases hmem
    · have hjoin := hrest .join rfl (by simp)
      simp [ActorState.step, ActorState.join, hphase, hpublished, hhandle] at hjoin

end Joins

/-- A caller gets at most one answer, which says that its command succeeded exactly when the guest
was called for it, once, and returned. The owner of the handle shuts the actor down at most once and
learns how it has ended, which is well only after the shutdown was served. Left to itself the actor
soon comes to rest, and at rest nobody waits for an answer. -/
theorem callers_answered_once {budget : CallBudget} {s : ActorState}
    (h : (actorSystem budget).Reachable s) :
    (∀ label s', s.step budget label = some s' → ∀ (n : ℕ) (result : Except InstanceError Unit),
      s.callers[n]? = some (Caller.answered result) →
        s'.callers[n]? = some (Caller.answered result)) ∧
    (∀ n : ℕ, s.callers[n]? = some (Caller.answered (.ok ())) ↔
      ∃ e ∈ s.served, e.1.caller = some n ∧ e.2 = .ok ()) ∧
    (askers (s.served.map Prod.fst)).Nodup ∧
    (∀ k s', (actorSystem budget).StepsWhen (fun _ label => label.isInput = false) k s s' →
      k ≤ s.work) ∧
    ((∀ label : ActorLabel, label.isInput = false → (∀ error, label ≠ .abort error) →
      s.step budget label = none) →
      (∀ (n : ℕ) (c : Caller), s.callers[n]? = some c → ∃ result, c = .answered result) ∧
        (s.handle = .held ∨ ∃ failure, s.handle = .joined failure)) ∧
    (s.served.map Prod.fst).count .shutdown ≤ 1 ∧
    (∀ failure, s.handle = .joined failure → s.phase = .ended failure ∧
      (failure = none → ∃ before, s.served = before ++ [(.shutdown,.ok ())]) ∧
      ∀ label s', s.step budget label = some s' → s'.handle = .joined failure) := by
  have hanswered := answered_of_reachable h
  have hserial := serial_of_reachable h
  have hjoins := joins_of_reachable h
  refine ⟨fun label s' hstep n result => hanswered.kept (ActorState.step_cases hstep),fun n => ?_,
    ?_,fun k s' hrun => ?_,fun hrest => ⟨hanswered.rest hrest,hjoins.rest hanswered hrest⟩,?_,
    fun failure hjoined => ⟨hjoins.joined failure hjoined,?_,fun label s' hstep =>
      handle_kept (ActorState.step_cases hstep) hjoined⟩⟩
  · constructor
    · exact hanswered.succeeded n
    · rintro ⟨e,he,hn,hok⟩
      rw [hanswered.served e he n hn, hok]
  · have hserved := (List.sublist_append_left _ _).trans hanswered.order
    exact hanswered.once.sublist (hserved.filterMap _)
  · refine hrun.length_le ActorState.work fun t label t' hlabel hstep => ?_
    exact work_lt (ActorState.step_cases hstep) hlabel
  · calc (s.served.map Prod.fst).count .shutdown
        ≤ s.accepted.count .shutdown := (hserial.done.sublist.trans hserial.order.sublist).count_le _
      _ ≤ s.handle.left.toNat := hjoins.once
      _ ≤ 1 := Bool.toNat_le _
  · rintro rfl
    exact hserial.shutdown (by rw [hjoins.joined none hjoined]; rfl)

theorem callers_answered_once_start : ∃ s, (actorSystem defaultBudget).Reachable s ∧
    s.callers = [.answered (.ok ())] ∧ s.handle = .joined none ∧
    (∃ e ∈ s.served, e.1.caller = some 0 ∧ e.2 = .ok ()) ∧
    ∃ before, s.served = before ++ [(.shutdown,.ok ())] := by
  have hrun : ∃ s, startAndShutdown.foldlM (ActorState.step defaultBudget) .new = some s ∧
      s.callers = [.answered (.ok ())] ∧ s.handle = .joined none := ⟨_,rfl,rfl,rfl⟩
  obtain ⟨s,hs,hcallers,hjoined⟩ := hrun
  have hreach : (actorSystem defaultBudget).Reachable s :=
    System.reachable_foldlM (.of_init rfl) hs
  obtain ⟨-,hserved,-,-,-,-,hhandle⟩ := callers_answered_once hreach
  exact ⟨s,hreach,hcallers,hjoined,(hserved 0).mp (by rw [hcallers]; rfl),
    (hhandle none hjoined).2.1 rfl⟩

end Floatile.Runtime.ActorLoop
