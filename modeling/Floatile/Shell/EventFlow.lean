import Floatile.Runtime.ActorLoop
import Floatile.Shell.EventBridge

/-! The worker of a plugin window between the callbacks of the window and the actor of the instance:
the way of the clicks to the guest. -/
namespace Floatile.Shell.EventFlow

open Floatile.Lib Floatile.Lib.Transition
open Floatile.UiSchema
open Floatile.Renderer
open Floatile.Runtime.ActorLoop

/-- Where the worker is in its loop, with what is left of a batch of events. -/
inductive WorkerPhase where
  | spawned
  | starting
  | report
  | poll
  | forward (left : ℕ)
  | calling (left : ℕ)
  | project
  | leave
  | closing
  | joining
  | ended
  deriving DecidableEq

namespace WorkerPhase

/-- The worker waits for the answer to a call. -/
def waits : WorkerPhase → Bool
  | .starting | .calling _ => true
  | _ => false

def isEnded : WorkerPhase → Bool
  | .ended => true
  | _ => false

end WorkerPhase

/-- The bridge, the actor and the worker between them. `clicked` records the events of the clicks
whose callback was set. -/
structure SessionState where
  worker : WorkerPhase
  bridge : EventBridge
  actor : ActorState
  clicked : List UiEvent

/-- `choice` says whether the host wants the worker to stop, or whether it cannot go on: it has no
runtime for the actor, or no more updates. -/
inductive SessionLabel where
  | click (leaf : Component × List Piece)
  | worker (choice : Bool)
  | actor (label : ActorLabel)

section Steps

variable (budget : CallBudget) (json : EventJson) (interp : Interpreter)

/-- The event of the callback that a click on an element calls. -/
def clickEvent (b : EventBridge) (element : String) : Option UiEvent :=
  (interp.clicked element).bind fun call =>
    (b.handlers.get call.1).map fun name => ⟨name,callbackPayload json call.2⟩

/-- The answer to the last call. -/
def lastAnswer (a : ActorState) : Option (Except InstanceError Unit) :=
  match a.callers.getLast? with
  | some (.answered result) => some result
  | _ => none

namespace SessionState

/-- The worker calls the actor. -/
def call (s : SessionState) (request : Request) (worker : WorkerPhase) : Option SessionState :=
  (s.actor.step budget (.call request)).map fun actor =>
    { s with actor := actor, worker := worker }

def workerStep (s : SessionState) (choice : Bool) : Option SessionState :=
  match s.worker with
  | .spawned =>
    if choice then
      some { s with bridge := { s.bridge with events := s.bridge.events.close }, worker := .ended }
    else s.call budget .start .starting
  | .starting =>
    match lastAnswer s.actor with
    | some (.ok ()) => some { s with worker := .report }
    | some (.error _) => some { s with worker := .closing }
    | none => none
  | .report => some { s with bridge := s.bridge.flushOverload, worker := .poll }
  | .poll => some { s with worker := if choice then .leave else .forward eventBatchSize }
  | .forward 0 => some { s with worker := .project }
  | .forward (left + 1) =>
    match s.bridge.events.recv with
    | some ((name,payload),_) =>
      { s with bridge := s.bridge.forward }.call budget (.event (.ui name payload)) (.calling left)
    | none => some { s with worker := .project }
  | .calling left =>
    match lastAnswer s.actor with
    | some _ => some { s with worker := .forward left }
    | none => none
  | .project => some { s with worker := if choice then .leave else .report }
  | .leave => some { s with bridge := s.bridge.flushOverload, worker := .closing }
  | .closing =>
    (s.actor.step budget .shutdown).map fun actor =>
      { s with actor := actor, worker := .joining }
  | .joining =>
    match s.actor.handle with
    | .joined _ =>
      some { s with bridge := { s.bridge with events := s.bridge.events.close }, worker := .ended }
    | _ => none
  | .ended => none

/-- Only the worker has a handle of the actor. -/
def step (s : SessionState) : SessionLabel → Option SessionState
  | .click leaf => some { s with
      bridge := s.bridge.click json interp (leafText leaf)
      clicked := s.clicked ++ (clickEvent json interp s.bridge (leafText leaf)).toList }
  | .worker choice => s.workerStep budget choice
  | .actor (.call _) | .actor .shutdown => none
  | .actor label => (s.actor.step budget label).map fun actor => { s with actor := actor }

end SessionState

def sessionSystem (r : RenderedComponent) : System SessionState SessionLabel :=
  System.ofPartial (fun s => ∃ handlers, registerEvents interp r.source r.events = .ok handlers ∧
    s = ⟨.spawned,.new handlers,.new,[]⟩) (SessionState.step budget json interp)

end Steps

/-- The event of the window in a command. -/
def commandEvent : InstanceCommand → Option UiEvent
  | .event (.ui name payload) _ => some ⟨name,payload⟩
  | _ => none

def callEvent : GuestCall → Option UiEvent
  | .handleEvent (.ui name payload) => some ⟨name,payload⟩
  | _ => none

def callerEvent : Caller → Option UiEvent
  | .sending (.event (.ui name payload)) => some ⟨name,payload⟩
  | _ => none

/-- The events of the window that the guest has been called with. -/
def guestEvents (a : ActorState) : List UiEvent := (a.calls.map CallRecord.call).filterMap callEvent

/-- The events whose command is in the queue or on its way there. -/
def askedEvents (a : ActorState) : List UiEvent :=
  a.accepted.filterMap commandEvent ++ a.callers.filterMap callerEvent

theorem filterMap_loopCalls (commands : List InstanceCommand) :
    (loopCalls commands).filterMap callEvent = commands.filterMap commandEvent := by
  rw [loopCalls, List.filterMap_filterMap]
  congr 1
  funext command
  cases command with
  | start caller | shutdown => rfl
  | event e caller => cases e <;> rfl
  | timer id => rfl
  | operationCompleted completion =>
    simp only [InstanceCommand.guestCall, InstanceCommand.completionEvent]
    split <;> rfl

/-- The guest is called with events of commands that have come into the queue, in their order. -/
theorem guestEvents_sublist {budget : CallBudget} {a : ActorState}
    (h : (actorSystem budget).Reachable a) : (guestEvents a).Sublist (askedEvents a) := by
  have hserial := serial_of_reachable h
  have hsession : (session a.taken).filterMap callEvent = a.taken.filterMap commandEvent := by
    rw [session, List.filterMap_append, List.filterMap_append, filterMap_loopCalls]
    exact List.append_nil _
  calc (guestEvents a).Sublist ((session a.taken).filterMap callEvent) :=
        hserial.within.sublist.filterMap _
    _ = a.taken.filterMap commandEvent := hsession
    List.Sublist _ (a.accepted.filterMap commandEvent) := hserial.order.sublist.filterMap _
    List.Sublist _ (askedEvents a) := List.sublist_append_left _ _

/-- All callers but the last have their answer. -/
def Settled (a : ActorState) : Prop :=
  ∀ n, n + 1 < a.callers.length → ∃ result, a.callers[n]? = some (Caller.answered result)

def isCall : ActorLabel → Bool
  | .call _ => true
  | _ => false

section Actor

variable {budget : CallBudget} {a a' : ActorState} {label : ActorLabel}

theorem length_callers (h : ActorStep budget a label a') (hlabel : isCall label = false) :
    a'.callers.length = a.callers.length := by
  have hanswer (a : ActorState) (command : InstanceCommand) (result : Except InstanceError Unit) :
      (a.answer command result).callers.length = a.callers.length := by
    rw [ActorState.answer]
    cases command.caller with
    | none => rfl
    | some n => exact List.length_set
  cases h with
  | call => cases hlabel
  | enqueue | refuse | wake => exact List.length_set
  | reply => exact hanswer _ _ _
  | cancel => exact hanswer _ _ _
  | _ => rfl

theorem Settled.step (h : Settled a) (hanswered : Answered a) (hstep : ActorStep budget a label a')
    (hlabel : isCall label = false) : Settled a' := by
  intro n hn
  rw [length_callers hstep hlabel] at hn
  obtain ⟨result,hresult⟩ := h n hn
  exact ⟨result,hanswered.kept hstep hresult⟩

/-- A caller that is still sending is the last one, and the others have no event on its way. -/
theorem Settled.split (h : Settled a) {n : ℕ} {request : Request}
    (hn : a.callers[n]? = some (.sending request)) : ∃ answered : List Caller,
      a.callers = answered ++ [.sending request] ∧ answered.filterMap callerEvent = [] ∧
        ∀ c, a.callers.set n c = answered ++ [c] := by
  obtain hnil | ⟨answered,last,hcallers⟩ := List.eq_nil_or_concat' a.callers
  · rw [hnil] at hn
    cases hn
  rw [Settled] at h
  rw [hcallers] at h hn ⊢
  have hearlier {m : ℕ} (hm : m < answered.length) :
      ∃ result, answered[m]? = some (Caller.answered result) := by
    obtain ⟨result,hresult⟩ := h m (by rw [List.length_append, List.length_singleton]; omega)
    rw [List.getElem?_append_left hm] at hresult
    exact ⟨result,hresult⟩
  have hlength : n = answered.length := by
    have hlt := (List.getElem?_eq_some_iff.mp hn).1
    rw [List.length_append, List.length_singleton] at hlt
    by_contra hne
    obtain ⟨result,hresult⟩ := hearlier (m := n) (by omega)
    rw [List.getElem?_append_left (by omega), hresult] at hn
    cases hn
  subst hlength
  rw [List.getElem?_concat_length] at hn
  obtain rfl := Option.some.inj hn
  refine ⟨answered,rfl,List.filterMap_eq_nil_iff.mpr fun c hc => ?_,fun c => ?_⟩
  · obtain ⟨m,hm,rfl⟩ := List.getElem_of_mem hc
    obtain ⟨result,hresult⟩ := hearlier hm
    rw [List.getElem?_eq_getElem hm] at hresult
    rw [Option.some.inj hresult]
    rfl
  · rw [List.set_append_right _ _ (le_refl _), Nat.sub_self]
    rfl

theorem filterMap_set_answered (l : List Caller) (n : ℕ) (result : Except InstanceError Unit) :
    ((l.set n (.answered result)).filterMap callerEvent).Sublist (l.filterMap callerEvent) := by
  cases hn : l[n]? with
  | none => rw [List.set_eq_of_length_le (List.getElem?_eq_none_iff.mp hn)]
  | some c =>
    obtain ⟨pre,post,rfl,hset,-⟩ := Pool.exists_split hn
    rw [hset, List.filterMap_append, List.filterMap_append]
    refine (List.Sublist.refl _).append ?_
    exact ((List.sublist_cons_self c post).filterMap callerEvent)

/-- Only a new call adds an event. -/
theorem askedEvents_sublist (hstep : ActorStep budget a label a') (hsettled : Settled a)
    (hlabel : isCall label = false) : (askedEvents a').Sublist (askedEvents a) := by
  have hanswer (b : ActorState) (command : InstanceCommand) (result : Except InstanceError Unit) :
      ((b.answer command result).callers.filterMap callerEvent).Sublist
        (b.callers.filterMap callerEvent) := by
    rw [ActorState.answer]
    cases command.caller with
    | none => exact List.Sublist.refl _
    | some n => exact filterMap_set_answered _ _ _
  cases hstep with
  | call => cases hlabel
  | @enqueue n request inbox hcaller =>
    obtain ⟨answered,hcallers,hnone,hset⟩ := hsettled.split hcaller
    have hevent : commandEvent (request.command n) = callerEvent (.sending request) := by
      cases request with
      | start => rfl
      | event e => cases e <;> rfl
    have hafter : (a.callers.set n .awaiting).filterMap callerEvent = [] := by
      rw [hset, List.filterMap_append, hnone]
      rfl
    have hsame : askedEvents { a.push (request.command n) inbox with
        callers := a.callers.set n .awaiting } = askedEvents a := by
      change (a.accepted ++ [request.command n]).filterMap commandEvent ++
        (a.callers.set n .awaiting).filterMap callerEvent = _
      rw [hafter, List.append_nil, List.filterMap_append, askedEvents, hcallers,
        List.filterMap_append, hnone, List.nil_append]
      simp only [List.filterMap_cons, List.filterMap_nil, hevent]
    rw [hsame]
  | refuse | wake => exact (List.Sublist.refl _).append (filterMap_set_answered _ _ _)
  | @post command inbox hcaller =>
    have hnone : commandEvent command = none := by
      cases command with
      | event e caller => cases hcaller
      | _ => rfl
    have hsame : askedEvents (a.push command inbox) = askedEvents a := by
      rw [askedEvents, ActorState.push, List.filterMap_append, List.filterMap_cons_none hnone]
      exact congrArg (· ++ _) (List.append_nil _)
    rw [hsame]
  | sendShutdown =>
    have hsame : (a.accepted ++ [InstanceCommand.shutdown]).filterMap commandEvent =
        a.accepted.filterMap commandEvent := by
      rw [List.filterMap_append]
      exact List.append_nil _
    rw [askedEvents, ActorState.push, hsame]
    exact List.Sublist.refl _
  | reply => exact (List.Sublist.refl _).append (hanswer _ _ _)
  | cancel => exact (List.Sublist.refl _).append (hanswer _ _ _)
  | _ => exact List.Sublist.refl _

end Actor

section Bridge

variable {json : EventJson} {interp : Interpreter} (b : EventBridge)

theorem click_eq (element : String) : b.click json interp element =
    ((clickEvent json interp b element).map fun e => (b.trySend e.name e.payloadJson).2).getD b := by
  rw [EventBridge.click, clickEvent]
  cases interp.clicked element with
  | none => rfl
  | some call =>
    change b.invoke json call.1 call.2 = _
    rw [EventBridge.invoke, Option.bind_some]
    cases b.handlers.get call.1 <;> rfl

/-- An event is announced, or counted as dropped, or lost when the worker has gone. -/
theorem trySend_cases (e : UiEvent) :
    (b.trySend e.name e.payloadJson).2.events.isOpen = b.events.isOpen ∧
    (b.trySend e.name e.payloadJson).2.events.capacity = b.events.capacity ∧
    (b.trySend e.name e.payloadJson).2.delivered = b.delivered ∧
    (b.trySend e.name e.payloadJson).2.audited = b.audited ∧
    (b.trySend e.name e.payloadJson).2.announced.Sublist (b.announced ++ [e]) ∧
    (b.events.isOpen = true → (b.trySend e.name e.payloadJson).2.announced.length +
      (b.trySend e.name e.payloadJson).2.dropped = b.announced.length + b.dropped + 1) := by
  rw [EventBridge.trySend]
  split
  · rename_i events hsend
    obtain ⟨-,hqueue,hopen,hcapacity⟩ := Channel.trySend_eq_ok hsend
    have hannounced : ({ b with events := events } : EventBridge).announced = b.announced ++ [e] := by
      rw [EventBridge.announced, hqueue, List.map_append, ← List.append_assoc]
      rfl
    refine ⟨hopen,hcapacity,rfl,rfl,?_,fun _ => ?_⟩
    · rw [hannounced]
    · rw [hannounced, List.length_append, List.length_singleton]
      exact Nat.add_right_comm _ _ _
  · exact ⟨rfl,rfl,rfl,rfl,List.sublist_append_left _ _,fun _ => (Nat.add_assoc _ _ _).symm⟩
  · rename_i hsend
    have hclosed := (Channel.trySend_eq_error hsend).2.mp rfl
    refine ⟨rfl,rfl,rfl,rfl,List.sublist_append_left _ _,fun hopen => ?_⟩
    rw [hclosed] at hopen
    cases hopen

theorem flushOverload_count : b.flushOverload.dropped + b.flushOverload.audited.sum =
    b.dropped + b.audited.sum := by
  rw [EventBridge.flushOverload]
  split_ifs
  · rfl
  · change 0 + (b.audited ++ [b.dropped]).sum = _
    rw [List.sum_append, List.sum_singleton]
    omega

theorem flushOverload_same : b.flushOverload.events = b.events ∧
    b.flushOverload.delivered = b.delivered := by
  rw [EventBridge.flushOverload]
  split_ifs <;> exact ⟨rfl,rfl⟩

theorem forward_recv {name payload : String} {events : Channel (String × String)}
    (h : b.events.recv = some ((name,payload),events)) : b.forward = { b with
      events := events
      delivered := b.delivered ++ [⟨name,payload⟩] } := by
  rw [EventBridge.forward, h]

end Bridge

/-- What holds of the window, the worker and the actor together. -/
structure Flow (budget : CallBudget) (handlers : Handlers) (s : SessionState) : Prop where
  handlers : s.bridge.handlers = handlers
  actor : (actorSystem budget).Reachable s.actor
  settled : Settled s.actor
  answered : s.worker.waits = false → ∀ (n : ℕ) (c : Caller), s.actor.callers[n]? = some c →
    ∃ result, c = .answered result
  asked : (askedEvents s.actor).Sublist s.bridge.delivered
  announced : s.bridge.announced.Sublist s.clicked
  opened : s.bridge.events.isOpen = !s.worker.isEnded
  capacity : s.bridge.events.capacity = eventQueueCapacity
  counted : s.worker.isEnded = false →
    s.clicked.length = s.bridge.announced.length + s.bridge.dropped + s.bridge.audited.sum

section Flow

variable {budget : CallBudget} {json : EventJson} {interp : Interpreter} {handlers : Handlers}
  {s s' : SessionState}

/-- The worker goes on, and changes nothing about the events or only reports the dropped ones. -/
theorem Flow.move (h : Flow budget handlers s) {worker : WorkerPhase} {bridge : EventBridge}
    (hanswered : worker.waits = false → ∀ (n : ℕ) (c : Caller), s.actor.callers[n]? = some c →
      ∃ result, c = .answered result)
    (hworker : worker.isEnded = s.worker.isEnded)
    (hhandlers : bridge.handlers = s.bridge.handlers) (hevents : bridge.events = s.bridge.events)
    (hdelivered : bridge.delivered = s.bridge.delivered)
    (hcount : bridge.dropped + bridge.audited.sum = s.bridge.dropped + s.bridge.audited.sum) :
    Flow budget handlers { s with worker := worker, bridge := bridge } := by
  have hannounced : bridge.announced = s.bridge.announced := by
    rw [EventBridge.announced, hevents, hdelivered, EventBridge.announced]
  refine ⟨hhandlers.trans h.handlers,h.actor,h.settled,hanswered,?_,?_,?_,?_,fun hlive => ?_⟩
  · rw [hdelivered]
    exact h.asked
  · rw [hannounced]
    exact h.announced
  · rw [hevents, h.opened, hworker]
  · rw [hevents, h.capacity]
  · have hcounted := h.counted (hworker ▸ hlive)
    change s.clicked.length = bridge.announced.length + bridge.dropped + bridge.audited.sum
    rw [hannounced]
    omega

/-- A step of the actor, or of a sender other than the worker. -/
theorem Flow.act (h : Flow budget handlers s) {label : ActorLabel} {actor : ActorState}
    (hlabel : isCall label = false) (hstep : s.actor.step budget label = some actor) :
    Flow budget handlers { s with actor := actor } := by
  have hstep' := ActorState.step_cases hstep
  have hanswered := answered_of_reachable h.actor
  refine ⟨h.handlers,h.actor.next trivial hstep,h.settled.step hanswered hstep' hlabel,?_,?_,h.announced,
    h.opened,h.capacity,h.counted⟩
  · intro hwaits n c hn
    have hlt := (List.getElem?_eq_some_iff.mp hn).1
    rw [length_callers hstep' hlabel] at hlt
    obtain ⟨result,hresult⟩ := h.answered hwaits n _ (List.getElem?_eq_getElem hlt)
    have hkept := hanswered.kept hstep' ((List.getElem?_eq_getElem hlt).trans (congrArg some hresult))
    exact ⟨result,Option.some.inj (hn.symm.trans hkept)⟩
  · exact (askedEvents_sublist hstep' h.settled hlabel).trans h.asked

/-- The worker calls the actor once it has all its answers. -/
theorem Flow.call (h : Flow budget handlers s) (request : Request) {worker : WorkerPhase}
    {bridge : EventBridge} (hidle : s.worker.waits = false) (hwaits : worker.waits = true)
    (hworker : worker.isEnded = s.worker.isEnded)
    (hhandlers : bridge.handlers = s.bridge.handlers)
    (hdelivered : bridge.delivered =
      s.bridge.delivered ++ (callerEvent (.sending request)).toList)
    (hannounced : bridge.announced = s.bridge.announced)
    (hopen : bridge.events.isOpen = s.bridge.events.isOpen)
    (hcapacity : bridge.events.capacity = s.bridge.events.capacity)
    (hdropped : bridge.dropped = s.bridge.dropped) (haudited : bridge.audited = s.bridge.audited) :
    Flow budget handlers ⟨worker,bridge,{ s.actor with callers := s.actor.callers ++ [.sending request] },
      s.clicked⟩ := by
  refine ⟨hhandlers.trans h.handlers,h.actor.next (i := .call request) trivial rfl,?_,?_,?_,?_,?_,
    hcapacity.trans h.capacity,fun hlive => ?_⟩
  · intro n hn
    rw [List.length_append, List.length_singleton] at hn
    have hlt : n < s.actor.callers.length := by omega
    obtain ⟨result,hresult⟩ := h.answered hidle n _ (List.getElem?_eq_getElem hlt)
    refine ⟨result,?_⟩
    change (s.actor.callers ++ [Caller.sending request])[n]? = _
    rw [List.getElem?_append_left hlt, List.getElem?_eq_getElem hlt, hresult]
  · intro hfree
    rw [hwaits] at hfree
    cases hfree
  · change (s.actor.accepted.filterMap commandEvent ++
      (s.actor.callers ++ [Caller.sending request]).filterMap callerEvent).Sublist bridge.delivered
    rw [hdelivered, List.filterMap_append, ← List.append_assoc]
    refine h.asked.append ?_
    cases hevent : callerEvent (.sending request) <;> simp [hevent]
  · rw [hannounced]
    exact h.announced
  · rw [hopen, h.opened, hworker]
  · change s.clicked.length = bridge.announced.length + bridge.dropped + bridge.audited.sum
    rw [hannounced, hdropped, haudited]
    exact h.counted (hworker ▸ hlive)

theorem Flow.click (h : Flow budget handlers s) (leaf : Component × List Piece) : Flow budget handlers { s with
    bridge := s.bridge.click json interp (leafText leaf)
    clicked := s.clicked ++ (clickEvent json interp s.bridge (leafText leaf)).toList } := by
  rw [click_eq]
  cases clickEvent json interp s.bridge (leafText leaf) with
  | none =>
    change Flow budget handlers { s with clicked := s.clicked ++ [] }
    rw [List.append_nil]
    exact h
  | some e =>
    obtain ⟨hopen,hcapacity,hdelivered,haudited,hannounced,hcount⟩ := trySend_cases s.bridge e
    refine ⟨?_,h.actor,h.settled,h.answered,?_,?_,hopen.trans h.opened,
      hcapacity.trans h.capacity,fun hlive => ?_⟩
    · exact (s.bridge.handlers_trySend _ _).trans h.handlers
    · change (askedEvents s.actor).Sublist (s.bridge.trySend e.name e.payloadJson).2.delivered
      rw [hdelivered]
      exact h.asked
    · exact hannounced.trans (h.announced.append (List.Sublist.refl _))
    · have hcounted := h.counted hlive
      have hcount' := hcount (by rw [h.opened]; exact congrArg _ hlive)
      change (s.clicked ++ [e]).length = (s.bridge.trySend e.name e.payloadJson).2.announced.length +
        (s.bridge.trySend e.name e.payloadJson).2.dropped +
        (s.bridge.trySend e.name e.payloadJson).2.audited.sum
      rw [haudited, List.length_append, List.length_singleton]
      omega

theorem lastAnswer_some {a : ActorState} {result : Except InstanceError Unit}
    (h : lastAnswer a = some result) (hsettled : Settled a) (n : ℕ) (c : Caller)
    (hn : a.callers[n]? = some c) : ∃ result, c = .answered result := by
  by_cases hlt : n + 1 < a.callers.length
  · obtain ⟨result,hresult⟩ := hsettled n hlt
    exact ⟨result,Option.some.inj (hn.symm.trans hresult)⟩
  · have hlength := (List.getElem?_eq_some_iff.mp hn).1
    rw [lastAnswer] at h
    split at h
    · rename_i last hlast
      rw [List.getLast?_eq_getElem?, show a.callers.length - 1 = n from by omega, hn] at hlast
      exact ⟨last,Option.some.inj hlast⟩
    · cases h

/-- The worker ends, and the receiver of the events is dropped with what is in it. -/
theorem Flow.finish (h : Flow budget handlers s) (hwaits : s.worker.waits = false) :
    Flow budget handlers { s with
      bridge := { s.bridge with events := s.bridge.events.close }
      worker := .ended } := by
  refine ⟨h.handlers,h.actor,h.settled,fun _ => h.answered hwaits,h.asked,?_,rfl,h.capacity,
    fun hlive => by cases hlive⟩
  refine List.Sublist.trans ?_ h.announced
  exact (List.Sublist.refl _).append (List.nil_sublist _)

theorem Flow.workerStep (h : Flow budget handlers s) {choice : Bool}
    (hstep : s.workerStep budget choice = some s') : Flow budget handlers s' := by
  have hidle (worker : WorkerPhase) (hwaits : s.worker.waits = false) :
      worker.waits = false → ∀ (n : ℕ) (c : Caller), s.actor.callers[n]? = some c →
        ∃ result, c = .answered result := fun _ => h.answered hwaits
  have hsettled (worker : WorkerPhase) {result : Except InstanceError Unit}
      (hlast : lastAnswer s.actor = some result) :
      worker.waits = false → ∀ (n : ℕ) (c : Caller), s.actor.callers[n]? = some c →
        ∃ result, c = .answered result := fun _ => lastAnswer_some hlast h.settled
  obtain ⟨hevents,hdelivered⟩ := flushOverload_same s.bridge
  unfold SessionState.workerStep at hstep
  split at hstep
  · rename_i hworker
    split_ifs at hstep <;> cases hstep
    · exact h.finish (by rw [hworker]; rfl)
    · exact h.call .start (by rw [hworker]; rfl) rfl (by rw [hworker]; rfl)
        rfl (List.append_nil _).symm rfl rfl rfl rfl rfl
  · rename_i hworker
    split at hstep
    · rename_i hlast
      cases hstep
      exact h.move (hsettled _ hlast) (by rw [hworker]; rfl) rfl rfl rfl rfl
    · rename_i error hlast
      cases hstep
      exact h.move (hsettled _ hlast) (by rw [hworker]; rfl) rfl rfl rfl rfl
    · cases hstep
  · rename_i hworker
    cases hstep
    exact h.move (hidle _ (by rw [hworker]; rfl)) (by rw [hworker]; rfl)
      (EventBridge.handlers_flushOverload _) hevents hdelivered (flushOverload_count _)
  · rename_i hworker
    cases hstep
    exact h.move (hidle _ (by rw [hworker]; rfl)) (by rw [hworker]; cases choice <;> rfl) rfl rfl rfl
      rfl
  · rename_i hworker
    cases hstep
    exact h.move (hidle _ (by rw [hworker]; rfl)) (by rw [hworker]; rfl) rfl rfl rfl rfl
  · rename_i left hworker
    split at hstep
    · rename_i name payload events hrecv
      cases hstep
      have hforward := forward_recv s.bridge hrecv
      refine h.call (.event (.ui name payload)) (by rw [hworker]; rfl) rfl
        (by rw [hworker]; rfl) (EventBridge.handlers_forward _) ?_
        (EventBridge.announced_forward _) ?_ ?_ ?_ ?_
      · rw [hforward]
        rfl
      · rw [hforward]
        exact (Channel.queue_of_recv hrecv).2.1
      · rw [hforward]
        exact (Channel.queue_of_recv hrecv).2.2
      · rw [hforward]
      · rw [hforward]
    · cases hstep
      exact h.move (hidle _ (by rw [hworker]; rfl)) (by rw [hworker]; rfl) rfl rfl rfl rfl
  · rename_i left hworker
    split at hstep
    · rename_i result hlast
      cases hstep
      exact h.move (hsettled _ hlast) (by rw [hworker]; rfl) rfl rfl rfl rfl
    · cases hstep
  · rename_i hworker
    cases hstep
    exact h.move (hidle _ (by rw [hworker]; rfl)) (by rw [hworker]; cases choice <;> rfl) rfl rfl rfl
      rfl
  · rename_i hworker
    cases hstep
    exact h.move (hidle _ (by rw [hworker]; rfl)) (by rw [hworker]; rfl)
      (EventBridge.handlers_flushOverload _) hevents hdelivered (flushOverload_count _)
  · rename_i hworker
    obtain ⟨actor,hactor,rfl⟩ := Option.map_eq_some_iff.mp hstep
    have hposted := h.act rfl hactor
    exact hposted.move (fun _ => hposted.answered (by rw [hworker]; rfl)) (by rw [hworker]; rfl) rfl
      rfl rfl rfl
  · rename_i hworker
    split at hstep <;> cases hstep
    exact h.finish (by rw [hworker]; rfl)
  · cases hstep

theorem Flow.step (h : Flow budget handlers s) {label : SessionLabel}
    (hstep : s.step budget json interp label = some s') : Flow budget handlers s' := by
  unfold SessionState.step at hstep
  split at hstep
  · cases hstep
    exact h.click _
  · exact h.workerStep hstep
  · cases hstep
  · cases hstep
  · rename_i label hcall hshutdown
    obtain ⟨actor,hactor,rfl⟩ := Option.map_eq_some_iff.mp hstep
    refine h.act ?_ hactor
    cases label <;> first | rfl | exact absurd rfl (hcall _)

/-- The callbacks stay those of the registration. -/
theorem flow_of_reachable {r : RenderedComponent}
    (h : (sessionSystem budget json interp r).Reachable s) :
    ∃ handlers, registerEvents interp r.source r.events = .ok handlers ∧
      Flow budget handlers s := by
  refine h.invariant (fun s => ∃ handlers, registerEvents interp r.source r.events = .ok handlers ∧
    Flow budget handlers s) ?_ ?_
  · rintro _ ⟨handlers,hregistered,rfl⟩
    refine ⟨handlers,hregistered,rfl,.of_init rfl,fun n hn => ?_,fun _ n c hn => ?_,
      List.nil_sublist _,List.nil_sublist _,rfl,rfl,fun _ => rfl⟩
    · cases hn
    · cases hn
  · rintro s label s' ⟨handlers,hregistered,hflow⟩ - hstep
    exact ⟨handlers,hregistered,hflow.step hstep⟩

end Flow

/-- A click on a control calls the guest with the event of the control and an empty list. -/
theorem clickEvent_control {json : EventJson} {interp : Interpreter} {lib : JsonLib}
    {doc : UiDocument} {r : RenderedComponent} {body : List Markup} {ctx : Ctx} {b : EventBridge}
    (hjson : json.Documented) (hinterp : interp.Documented r) (h : Rendering lib doc r body ctx)
    (hregistered : registerEvents interp r.source r.events = .ok b.handlers) (c : Control doc)
    {pieces : List Piece} (hpieces : (c.comp,pieces) ∈ leavesList r.markup) :
    clickEvent json interp b (leafText (c.comp,pieces)) = some ⟨c.emitted.emit,"[]"⟩ := by
  obtain ⟨-,slot,hslot,hevent,hcalls⟩ := h.control_calls c
  have hclicked := hinterp.clicked _ hpieces slot (hcalls pieces hpieces)
  have hget : b.handlers.get slot.callback = some slot.event := by
    refine get_of_setCallbacks hregistered (fun slot' hslot' heq => ?_) (Or.inr ⟨slot,hslot,rfl⟩)
    rw [h.callback_injective hslot' hslot heq]
  have hpayload : callbackPayload json [] = "[]" := by
    rw [callbackPayload, serializeCallbackArgs, List.map_nil, hjson.toString_nil, Option.getD_some]
  rw [clickEvent, hclicked, Option.bind_some, hget, Option.map_some, hpayload, hevent]

/-- The guest gets the events of clicks in their order, none twice. Until the worker has ended every
click has been handed over, waits in a queue of at most 64, or counts among the dropped ones. -/
theorem guest_gets_clicks {budget : CallBudget} {json : EventJson} {interp : Interpreter}
    {lib : JsonLib} {doc : UiDocument} {r : RenderedComponent} {s : SessionState}
    (hjson : json.Documented) (hinterp : interp.Documented r) (h : renderComponent lib doc = .ok r)
    (hreach : (sessionSystem budget json interp r).Reachable s) :
    (guestEvents s.actor).Sublist s.bridge.delivered ∧ s.bridge.delivered.Sublist s.clicked ∧
    (s.worker.isEnded = false → s.clicked.length = s.bridge.delivered.length +
      s.bridge.events.queue.length + s.bridge.dropped + s.bridge.audited.sum) ∧
    s.bridge.events.queue.length ≤ 64 ∧
    (∀ c : Control doc, ∀ pieces, (c.comp,pieces) ∈ leavesList r.markup →
      ∃ s', s.step budget json interp (.click (c.comp,pieces)) = some s' ∧
        s'.clicked = s.clicked ++ [⟨c.emitted.emit,"[]"⟩]) := by
  obtain ⟨body,ctx,hrendering⟩ := rendering_of_ok h
  obtain ⟨handlers,hregistered,hflow⟩ := flow_of_reachable hreach
  refine ⟨(guestEvents_sublist hflow.actor).trans hflow.asked,?_,fun hlive => ?_,?_,
    fun c pieces hpieces => ⟨_,rfl,?_⟩⟩
  · exact (List.sublist_append_left _ _).trans hflow.announced
  · have hcounted := hflow.counted hlive
    rw [EventBridge.announced, List.length_append, List.length_map] at hcounted
    exact hcounted
  · exact s.bridge.events.bounded.trans (le_of_eq hflow.capacity)
  · have hevent := clickEvent_control hjson hinterp hrendering (hflow.handlers ▸ hregistered) c
      hpieces
    change s.clicked ++ (clickEvent json interp s.bridge (leafText (c.comp,pieces))).toList = _
    rw [hevent]
    rfl

/-- A window is started, and its button is clicked. -/
def startAndClick (leaf : Component × List Piece) : List SessionLabel :=
  [.worker false,.actor (.load none),.actor (.finish .returned 0),.actor (.finish .returned 0),
    .actor (.send 0),.actor .begin,.actor (.finish .returned 0),.worker false,.click leaf,
    .worker false,.worker false,.worker false,.actor (.send 1),.actor .begin]

theorem guest_gets_clicks_refresh : ∃ r s, renderComponent (selectLib 361) refreshDocument = .ok r ∧
    (sessionSystem defaultBudget selectJson selectInterpreter r).Reachable s ∧
    guestEvents s.actor = [⟨"select","[]"⟩] ∧ ⟨"select","[]"⟩ ∈ s.clicked := by
  obtain ⟨r,hr,hevents⟩ := select_rendered refreshDocument 361 (by decide +kernel)
  have hinterp := select_documented hr hevents
  have hregistered : registerEvents selectInterpreter r.source r.events =
      .ok (OrdMap.empty.insert "emit_0" "select") := by
    rw [hevents]
    rfl
  have hrun : ∃ s, (startAndClick (plainComponent "Button",[])).foldlM
      (SessionState.step defaultBudget selectJson selectInterpreter)
      ⟨.spawned,.new (OrdMap.empty.insert "emit_0" "select"),.new,[]⟩ = some s ∧
      guestEvents s.actor = [⟨"select","[]"⟩] := ⟨_,rfl,rfl⟩
  obtain ⟨s,hs,hguest⟩ := hrun
  have hreach : (sessionSystem defaultBudget selectJson selectInterpreter r).Reachable s :=
    System.reachable_foldlM (.of_init ⟨_,hregistered,rfl⟩) hs
  obtain ⟨hdelivered,hclicked,-⟩ := guest_gets_clicks selectJson_documented hinterp hr hreach
  refine ⟨r,s,hr,hreach,hguest,(hdelivered.trans hclicked).subset ?_⟩
  rw [hguest]
  exact List.mem_singleton_self _

end Floatile.Shell.EventFlow
