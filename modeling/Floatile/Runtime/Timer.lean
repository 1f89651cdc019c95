import Floatile.Runtime.Relay
import Floatile.Runtime.State
import Floatile.Services.Local

/-! The timers of an instance: the tasks that sleep for them, the queue of the actor and the calls
of the guest. -/
namespace Floatile.Runtime.Timer

open Floatile.Lib Floatile.Lib.Transition
open Floatile.Services
open Floatile.Runtime.Relay (Actor)

/-- A command in the queue. The event of a timer has only its id; the flag says which timer sent
it, and no step looks at it. -/
inductive TimerCommand where
  | timer (id flag : ℕ)
  | call
  | shutdown
  deriving DecidableEq

/-- The call of the guest that is going on. -/
inductive GuestCall where
  | none
  | other
  | timer (id flag : ℕ)
  deriving DecidableEq

/-- `firing` are the tasks that have found their timer due and not cancelled, and have not sent
its event yet. -/
structure TimerHost where
  timer : TimerService
  firing : List SleepingTask
  inbox : Channel TimerCommand
  actor : Actor
  guest : GuestCall
  now : ℕ

inductive TimerLabel where
  | elapse (nanos : ℕ)
  | schedule (delayMs : ℕ)
  | cancel (id : ℕ)
  | wake (n : ℕ)
  | send (n : ℕ)
  | post (shutdown : Bool)
  | begin (ready : Bool)
  | finish (failed : Bool)
  | drain
  | close
  deriving DecidableEq

namespace TimerHost

/-- A new instance is in its constructor. -/
def new (timer : TimerService) (now : ℕ) : TimerHost where
  timer := timer
  firing := []
  inbox := Channel.empty queueCapacity
  actor := .setup
  guest := .other
  now := now

/-- A sleeping task is due and looks at its flag. -/
def wake (s : TimerHost) (n : ℕ) : Option TimerHost :=
  match s.timer.sleeping[n]? with
  | some task =>
    if task.due ≤ s.now then
      let woken := { s with timer := { s.timer with sleeping := s.timer.sleeping.eraseIdx n } }
      some (if task.flag ∈ s.timer.cancelled then woken
        else { woken with firing := task :: woken.firing })
    else none
  | none => none

/-- The event of a timer is dropped when the queue is full or closed. -/
def send (s : TimerHost) (n : ℕ) : Option TimerHost :=
  match s.firing[n]? with
  | some task =>
    let sent := { s with firing := s.firing.eraseIdx n }
    some (match s.inbox.trySend (.timer task.id task.flag) with
      | .ok inbox => { sent with inbox := inbox }
      | .error _ => sent)
  | none => none

/-- The actor takes a command. A call that is not ready has failed before it begins. -/
def start (s : TimerHost) (ready : Bool) : TimerCommand → TimerHost
  | .shutdown => { s with actor := .finished, guest := .other }
  | .call => if ready then { s with guest := .other } else { s with actor := .draining }
  | .timer id flag =>
    if ready then { s with guest := .timer id flag } else { s with actor := .draining }

def begin (s : TimerHost) (ready : Bool) : Option TimerHost :=
  match s.actor, s.guest, s.inbox.recv with
  | .running, .none, some (command,inbox) => some ({ s with inbox := inbox }.start ready command)
  | _, _, _ => none

/-- The call of the guest returns. The slot of a timer is freed when its event has been handled. -/
def finish (s : TimerHost) (failed : Bool) : Option TimerHost :=
  match s.actor, s.guest with
  | _, .none => none
  | .setup, _ => some { s with
      actor := if failed then .finished else .running
      guest := .none }
  | .running, .timer id _ =>
    some (if failed then { s with actor := .draining, guest := .none }
      else { s with timer := s.timer.complete id, guest := .none })
  | .running, .other =>
    some { s with actor := if failed then .draining else .running, guest := .none }
  | .finished, _ => some { s with guest := .none }
  | _, _ => none

/-- A failed actor empties its queue before the guest is stopped. -/
def drain (s : TimerHost) : Option TimerHost :=
  match s.actor with
  | .draining =>
    match s.inbox.recv with
    | some (_,inbox) => some { s with inbox := inbox }
    | none => some { s with actor := .finished, guest := .other }
  | _ => none

/-- The host state goes away with the actor. -/
def close (s : TimerHost) : Option TimerHost :=
  match s.actor, s.guest with
  | .finished, .none => some { s with
      timer := { s.timer with active := OrdMap.empty }
      inbox := s.inbox.close
      actor := .closed }
  | _, _ => none

def step (s : TimerHost) : TimerLabel → Option TimerHost
  | .elapse nanos => some { s with now := s.now + nanos }
  | .schedule delayMs =>
    if s.guest = .none then none
    else some { s with timer := (s.timer.schedule s.now delayMs).state }
  | .cancel id =>
    if s.guest = .none then none else some { s with timer := (s.timer.cancel id).state }
  | .wake n => s.wake n
  | .send n => s.send n
  | .post shutdown =>
    match s.inbox.trySend (if shutdown then .shutdown else .call) with
    | .ok inbox => some { s with inbox := inbox }
    | .error _ => some s
  | .begin ready => s.begin ready
  | .finish failed => s.finish failed
  | .drain => s.drain
  | .close => s.close

theorem wake_cases {s s' : TimerHost} {n : ℕ} (h : s.wake n = some s') :
    ∃ task, s.timer.sleeping[n]? = some task ∧
      s'.timer = { s.timer with sleeping := s.timer.sleeping.eraseIdx n } ∧
      s'.firing = (if task.flag ∈ s.timer.cancelled then s.firing else task :: s.firing) ∧
      s'.inbox = s.inbox ∧ s'.actor = s.actor ∧ s'.guest = s.guest := by
  unfold wake at h
  cases htask : s.timer.sleeping[n]? with
  | none => simp [htask] at h
  | some task =>
    simp only [htask] at h
    split_ifs at h with hdue hcancelled <;> cases h
    · exact ⟨task,rfl,rfl,by rw [if_pos hcancelled],rfl,rfl,rfl⟩
    · exact ⟨task,rfl,rfl,by rw [if_neg hcancelled],rfl,rfl,rfl⟩

theorem send_cases {s s' : TimerHost} {n : ℕ} (h : s.send n = some s') :
    ∃ task, s.firing[n]? = some task ∧ s'.timer = s.timer ∧
      s'.firing = s.firing.eraseIdx n ∧ s'.actor = s.actor ∧ s'.guest = s.guest ∧
      s'.inbox.queue =
        s.inbox.queue ++ (if s.inbox.HasRoom then [.timer task.id task.flag] else []) := by
  unfold send at h
  cases htask : s.firing[n]? with
  | none => simp [htask] at h
  | some task =>
    simp only [htask] at h
    cases hsend : s.inbox.trySend (.timer task.id task.flag) with
    | ok inbox =>
      obtain ⟨hroom,hqueue,-,-⟩ := Channel.trySend_eq_ok hsend
      simp only [hsend] at h
      cases h
      exact ⟨task,rfl,rfl,rfl,rfl,rfl,by rw [if_pos hroom, hqueue]⟩
    | error e =>
      have hroom := (Channel.trySend_eq_error hsend).1
      simp only [hsend] at h
      cases h
      exact ⟨task,rfl,rfl,rfl,rfl,rfl,by rw [if_neg hroom, List.append_nil]⟩

theorem post_cases {s s' : TimerHost} {shutdown : Bool} (h : s.step (.post shutdown) = some s') :
    s'.timer = s.timer ∧ s'.firing = s.firing ∧ s'.actor = s.actor ∧ s'.guest = s.guest ∧
      ∃ rest : List TimerCommand, s'.inbox.queue = s.inbox.queue ++ rest ∧
        ∀ command ∈ rest, ∀ id flag, command ≠ .timer id flag := by
  simp only [step] at h
  cases hsend : s.inbox.trySend (if shutdown then .shutdown else .call) with
  | ok inbox =>
    obtain ⟨-,hqueue,-,-⟩ := Channel.trySend_eq_ok hsend
    simp only [hsend] at h
    cases h
    refine ⟨rfl,rfl,rfl,rfl,_,hqueue,?_⟩
    intro command hcommand id flag
    rw [List.mem_singleton] at hcommand
    subst hcommand
    cases shutdown <;> simp
  | error e =>
    simp only [hsend] at h
    cases h
    exact ⟨rfl,rfl,rfl,rfl,[],(List.append_nil _).symm,by simp⟩

theorem begin_cases {s s' : TimerHost} {ready : Bool} (h : s.begin ready = some s') :
    s.actor = .running ∧ s.guest = .none ∧ ∃ command inbox,
      s.inbox.recv = some (command,inbox) ∧ s' = { s with inbox := inbox }.start ready command := by
  unfold begin at h
  split at h
  · rename_i command inbox hactor hguest hrecv
    cases h
    exact ⟨hactor,hguest,command,inbox,hrecv,rfl⟩
  · cases h

theorem drain_cases {s s' : TimerHost} (h : s.drain = some s') :
    s.actor = .draining ∧
      ((∃ command inbox, s.inbox.recv = some (command,inbox) ∧ s' = { s with inbox := inbox }) ∨
        s.inbox.recv = none ∧ s' = { s with actor := .finished, guest := .other }) := by
  unfold drain at h
  split at h
  · rename_i hactor
    cases hrecv : s.inbox.recv with
    | none =>
      simp only [hrecv] at h
      cases h
      exact ⟨hactor,.inr ⟨rfl,rfl⟩⟩
    | some taken =>
      simp only [hrecv] at h
      cases h
      exact ⟨hactor,.inl ⟨taken.1,taken.2,rfl,rfl⟩⟩
  · cases h

theorem finish_cases {s s' : TimerHost} {failed : Bool} (h : s.finish failed = some s') :
    s.guest ≠ .none ∧ s'.guest = .none ∧ s'.firing = s.firing ∧ s'.inbox = s.inbox ∧
      (s'.actor = .setup ∨ s'.actor = .running → s.actor = .setup ∨ s.actor = .running) ∧
      ((∃ id flag, s.actor = .running ∧ s.guest = .timer id flag ∧ failed = false ∧
          s'.timer = s.timer.complete id) ∨
        s'.timer = s.timer ∧ (s.actor = .running → ∀ id flag, s.guest = .timer id flag →
          failed = true)) := by
  unfold finish at h
  split at h
  · cases h
  · rename_i hactor hguest
    cases h
    exact ⟨hguest,rfl,rfl,rfl,fun _ => .inl hactor,.inr ⟨rfl,by simp [hactor]⟩⟩
  · rename_i id flag hactor hguest
    cases failed with
    | true =>
      cases h
      exact ⟨by simp [hguest],rfl,rfl,rfl,fun _ => .inr hactor,.inr ⟨rfl,fun _ _ _ _ => rfl⟩⟩
    | false =>
      cases h
      exact ⟨by simp [hguest],rfl,rfl,rfl,fun _ => .inr hactor,
        .inl ⟨id,flag,hactor,hguest,rfl,rfl⟩⟩
  · rename_i hactor hguest
    cases h
    exact ⟨by simp [hguest],rfl,rfl,rfl,fun _ => .inr hactor,.inr ⟨rfl,by simp [hguest]⟩⟩
  · rename_i hactor hguest
    cases h
    exact ⟨hguest,rfl,rfl,rfl,by simp [hactor],.inr ⟨rfl,by simp [hactor]⟩⟩
  · cases h

theorem close_cases {s s' : TimerHost} (h : s.close = some s') :
    s.actor = .finished ∧ s.guest = .none ∧ s' = { s with
      timer := { s.timer with active := OrdMap.empty }
      inbox := s.inbox.close
      actor := .closed } := by
  unfold close at h
  split at h
  · rename_i hactor hguest
    cases h
    exact ⟨hactor,hguest,rfl⟩
  · cases h

end TimerHost

/-- The runs of a new instance with any budgets. -/
def timerSystem : System TimerHost TimerLabel :=
  .ofPartial (fun s => ∃ now maxPerMinute maxActive,
    s = TimerHost.new ((TimerService.new now).setQuota maxPerMinute maxActive) now)
    TimerHost.step

end Floatile.Runtime.Timer
