import Floatile.Runtime.Timer

/-! What the guest can rely on: a cancelled timer is not delivered, and the slot of a timer is
freed by its event. Both hold in the runs that do not take the steps named here. -/
namespace Floatile.Runtime.Timer

open Floatile.Lib Floatile.Lib.Transition
open Floatile.Services
open Floatile.Runtime.Relay (Actor)

namespace TimerCommand

def timerId : TimerCommand → Option ℕ
  | .timer id _ => some id
  | _ => none

def timerFlag : TimerCommand → Option ℕ
  | .timer _ flag => some flag
  | _ => none

end TimerCommand

def GuestCall.timerId : GuestCall → Option ℕ
  | .timer id _ => some id
  | _ => Option.none

@[simp] theorem GuestCall.timerId_none : GuestCall.none.timerId = Option.none := rfl

@[simp] theorem GuestCall.timerId_other : GuestCall.other.timerId = Option.none := rfl

@[simp] theorem GuestCall.timerId_timer (id flag : ℕ) :
    (GuestCall.timer id flag).timerId = some id := rfl

namespace TimerHost

/-- The actor still takes commands. -/
def Takes (s : TimerHost) : Prop := s.actor = .setup ∨ s.actor = .running

instance (s : TimerHost) : Decidable s.Takes := inferInstanceAs (Decidable (_ ∨ _))

/-- The flags of the events on their way to the guest: their tasks no longer look at the flag. -/
def firedFlags (s : TimerHost) : List ℕ :=
  s.firing.map SleepingTask.flag ++ s.inbox.queue.filterMap TimerCommand.timerFlag

/-- A timer is cancelled only while its task is asleep, or when no event is taken any more. -/
def CancelsAsleep (s : TimerHost) : TimerLabel → Prop
  | .cancel id => s.Takes → ∀ timer ∈ s.timer.active.get id, timer.flag ∉ s.firedFlags
  | _ => True

instance (s : TimerHost) (i : TimerLabel) : Decidable (s.CancelsAsleep i) :=
  match i with
  | .cancel id => inferInstanceAs
    (Decidable (s.Takes → ∀ timer ∈ s.timer.active.get id, timer.flag ∉ s.firedFlags))
  | .elapse _ | .schedule _ | .wake _ | .send _ | .post _ | .begin _ | .finish _ | .drain
  | .close => .isTrue trivial

/-- No event on its way belongs to a cancelled timer. -/
def NoneCancelled (s : TimerHost) : Prop :=
  s.Takes → ∀ flag ∈ s.firedFlags, flag ∉ s.timer.cancelled

/-- A step after which no more events are on their way and no more timers are cancelled. -/
theorem NoneCancelled.of_subset {s s' : TimerHost} (h : s.NoneCancelled)
    (htakes : s'.Takes → s.Takes) (hfired : s'.firedFlags ⊆ s.firedFlags)
    (hcancelled : s'.timer.cancelled = s.timer.cancelled) : s'.NoneCancelled := by
  intro ht flag hflag
  rw [hcancelled]
  exact h (htakes ht) flag (hfired hflag)

theorem timer_schedule_cancelled (s : TimerService) (now delayMs : ℕ) :
    (s.schedule now delayMs).state.cancelled = s.cancelled := by
  obtain ⟨-,window,hstate⟩ | ⟨-,-,hstate⟩ := s.schedule_cases now delayMs
  · rw [hstate]
  · rw [hstate]

theorem noneCancelled_cancel {s : TimerHost} {id : ℕ} (h : s.NoneCancelled)
    (hcond : s.CancelsAsleep (.cancel id)) :
    NoneCancelled { s with timer := (s.timer.cancel id).state } := by
  intro ht flag hflag
  have hold : flag ∉ s.timer.cancelled := h ht flag hflag
  obtain ⟨-,hstate⟩ | ⟨timer,hget,hstate⟩ := s.timer.cancel_cases id
  · simpa [hstate] using hold
  · have hother : timer.flag ∉ s.firedFlags := hcond ht timer hget
    have hne : flag ≠ timer.flag := by
      intro heq
      rw [heq] at hflag
      exact hother hflag
    simpa [hstate, hne] using hold

theorem noneCancelled_wake {s s' : TimerHost} {n : ℕ} (h : s.NoneCancelled)
    (hstep : s.wake n = some s') : s'.NoneCancelled := by
  obtain ⟨task,-,htimer,hfiring,hinbox,hactor,-⟩ := wake_cases hstep
  intro ht flag hflag
  have htakes : s.Takes := by simpa [Takes, hactor] using ht
  rw [htimer]
  rw [firedFlags, hinbox, hfiring] at hflag
  split_ifs at hflag with hcancelled
  · exact h htakes flag hflag
  · rw [List.map_cons, List.cons_append, List.mem_cons] at hflag
    rcases hflag with rfl | hflag
    · exact hcancelled
    · exact h htakes flag hflag

theorem noneCancelled_send {s s' : TimerHost} {n : ℕ} (h : s.NoneCancelled)
    (hstep : s.send n = some s') : s'.NoneCancelled := by
  obtain ⟨task,htask,htimer,hfiring,hactor,-,hqueue⟩ := send_cases hstep
  refine h.of_subset ?_ ?_ (by rw [htimer])
  · simp [Takes, hactor]
  · intro flag hflag
    have hmem : task ∈ s.firing := List.mem_of_getElem? htask
    simp only [firedFlags, hfiring, hqueue, List.filterMap_append, List.mem_append] at hflag ⊢
    rcases hflag with hflag | hflag | hflag
    · exact .inl (((List.eraseIdx_sublist _ _).map _).subset hflag)
    · exact .inr hflag
    · left
      split_ifs at hflag
      · have hflag : flag = task.flag := by simpa [TimerCommand.timerFlag] using hflag
        rw [hflag]
        exact List.mem_map_of_mem hmem
      · simp at hflag

theorem noneCancelled_post {s s' : TimerHost} {shutdown : Bool} (h : s.NoneCancelled)
    (hstep : s.step (.post shutdown) = some s') : s'.NoneCancelled := by
  obtain ⟨htimer,hfiring,hactor,-,rest,hqueue,hrest⟩ := post_cases hstep
  refine h.of_subset ?_ ?_ (by rw [htimer])
  · simp [Takes, hactor]
  · intro flag hflag
    simp only [firedFlags, hfiring, hqueue, List.filterMap_append, List.mem_append] at hflag ⊢
    rcases hflag with hflag | hflag | hflag
    · exact .inl hflag
    · exact .inr hflag
    · obtain ⟨command,hmem,hcommand⟩ := List.mem_filterMap.mp hflag
      cases command with
      | timer id f => exact absurd rfl (hrest _ hmem id f)
      | call => simp [TimerCommand.timerFlag] at hcommand
      | shutdown => simp [TimerCommand.timerFlag] at hcommand

/-- Taking a command from the queue leaves fewer events on their way. -/
theorem firedFlags_subset_of_recv {s : TimerHost} {command : TimerCommand}
    {inbox : Channel TimerCommand} (h : s.inbox.recv = some (command,inbox)) :
    s.firing.map SleepingTask.flag ++ inbox.queue.filterMap TimerCommand.timerFlag ⊆
      s.firedFlags := by
  obtain ⟨hqueue,-,-⟩ := Channel.queue_of_recv h
  intro flag hflag
  rw [firedFlags, hqueue]
  simp only [List.mem_append, List.mem_filterMap] at hflag ⊢
  rcases hflag with hflag | ⟨taken,htaken,hflag⟩
  · exact .inl hflag
  · exact .inr ⟨taken,List.mem_cons_of_mem _ htaken,hflag⟩

theorem noneCancelled_begin {s s' : TimerHost} {ready : Bool} (h : s.NoneCancelled)
    (hstep : s.begin ready = some s') : s'.NoneCancelled := by
  obtain ⟨hactor,-,command,inbox,hrecv,rfl⟩ := begin_cases hstep
  have hsub := firedFlags_subset_of_recv hrecv
  refine h.of_subset (fun _ => .inr hactor) ?_ ?_
  · cases command <;> cases ready <;> exact hsub
  · cases command <;> cases ready <;> rfl

theorem noneCancelled_step {s s' : TimerHost} {i : TimerLabel} (h : s.NoneCancelled)
    (hcond : s.CancelsAsleep i) (hstep : s.step i = some s') : s'.NoneCancelled := by
  cases i with
  | elapse nanos =>
    cases hstep
    exact h
  | schedule delayMs =>
    simp only [step] at hstep
    split_ifs at hstep
    cases hstep
    exact h.of_subset id (List.Subset.refl _) (timer_schedule_cancelled _ _ _)
  | cancel id =>
    simp only [step] at hstep
    split_ifs at hstep
    cases hstep
    exact noneCancelled_cancel h hcond
  | wake n => exact noneCancelled_wake h hstep
  | send n => exact noneCancelled_send h hstep
  | post shutdown => exact noneCancelled_post h hstep
  | begin ready => exact noneCancelled_begin h hstep
  | finish failed =>
    obtain ⟨-,-,hfiring,hinbox,htakes,htimer⟩ := finish_cases hstep
    refine h.of_subset htakes ?_ ?_
    · rw [firedFlags, hfiring, hinbox]
      exact List.Subset.refl _
    · obtain ⟨id,flag,-,-,-,htimer⟩ | ⟨htimer,-⟩ := htimer
      · rw [htimer]
        rfl
      · rw [htimer]
  | drain =>
    -- nothing is taken any more
    obtain ⟨hactor,⟨command,inbox,-,rfl⟩ | ⟨-,rfl⟩⟩ := drain_cases hstep
    · simp [NoneCancelled, Takes, hactor]
    · simp [NoneCancelled, Takes]
  | close =>
    obtain ⟨-,-,rfl⟩ := close_cases hstep
    simp [NoneCancelled, Takes]

/-- In a run that cancels timers only while they sleep, no event of a cancelled timer reaches
the guest. -/
theorem cancelled_not_delivered {s s' : TimerHost} {ready : Bool} {id flag : ℕ}
    (h : timerSystem.ReachableWhen CancelsAsleep s) (hstep : s.begin ready = some s')
    (hguest : s'.guest = .timer id flag) : flag ∉ s.timer.cancelled := by
  have hnone : s.NoneCancelled := by
    apply h.invariant NoneCancelled
    · rintro s ⟨now,maxPerMinute,maxActive,rfl⟩ - flag hflag
      cases hflag
    · exact fun _ _ _ => noneCancelled_step
  obtain ⟨hactor,hidle,command,inbox,hrecv,rfl⟩ := begin_cases hstep
  obtain ⟨hqueue,-,-⟩ := Channel.queue_of_recv hrecv
  apply hnone (.inr hactor)
  rw [firedFlags, hqueue]
  cases command with
  | timer i f =>
    cases ready with
    | true =>
      cases hguest
      simp [TimerCommand.timerFlag]
    | false => simp [start, hidle] at hguest
  | call => cases ready <;> simp [start, hidle] at hguest
  | shutdown => simp [start] at hguest

/-- The guest schedules a timer in its constructor and starts to handle an event. -/
def scheduleFirst : List TimerLabel :=
  [.schedule 1,.finish false,.post false,.begin true]

def newHost : TimerHost := TimerHost.new ((TimerService.new 0).setQuota 60 8) 0

theorem reachable_newHost {C : TimerHost → TimerLabel → Prop} :
    timerSystem.ReachableWhen C newHost := .of_init ⟨0,60,8,rfl⟩

/-- Two timers, the first of which is cancelled before the second one fires. -/
def afterCancel : Option TimerHost :=
  System.runWhen step CancelsAsleep newHost
    (.schedule 1 :: scheduleFirst ++
      [.cancel 1,.finish false,.elapse 1000000,.wake 1,.wake 0,.send 0])

theorem afterCancel_delivers :
    ∃ s s', afterCancel = some s ∧ s.begin true = some s' ∧ s'.guest = .timer 2 1 ∧
      s.timer.cancelled = [0] ∧ 1 ∉ s.timer.cancelled := by
  obtain ⟨s,hs⟩ : ∃ s, afterCancel = some s := Option.isSome_iff_exists.mp (by decide +kernel)
  have hcancelled : afterCancel.map (fun s => s.timer.cancelled) = some [0] := by decide +kernel
  have hguest : (afterCancel.bind (fun s => s.begin true)).map TimerHost.guest =
      some (.timer 2 1) := by decide +kernel
  rw [hs, Option.map_some, Option.some.injEq] at hcancelled
  rw [hs, Option.bind_some, Option.map_eq_some_iff] at hguest
  obtain ⟨s',hstep,htimer⟩ := hguest
  have hreach := System.reachableWhen_runWhen reachable_newHost hs
  exact ⟨s,s',hs,hstep,htimer,hcancelled,cancelled_not_delivered hreach hstep htimer⟩

/-- The event of the timer is in the queue when the guest cancels it. -/
def lateCancel : List TimerLabel :=
  scheduleFirst ++ [.elapse 1000000,.wake 0,.send 0,.cancel 1,.finish false]

def afterLateCancel : Option TimerHost := lateCancel.foldlM step newHost

theorem cancelled_timer_delivered :
    ¬∀ (s s' : TimerHost) (ready : Bool) (id flag : ℕ), timerSystem.Reachable s →
      s.begin ready = some s' → s'.guest = .timer id flag → flag ∉ s.timer.cancelled := by
  intro hnone
  obtain ⟨s,hs⟩ : ∃ s, afterLateCancel = some s :=
    Option.isSome_iff_exists.mp (by decide +kernel)
  have hcancelled : afterLateCancel.map (fun s => s.timer.cancelled) = some [0] := by
    decide +kernel
  have hguest : (afterLateCancel.bind (fun s => s.begin true)).map TimerHost.guest =
      some (.timer 1 0) := by decide +kernel
  rw [hs, Option.map_some, Option.some.injEq] at hcancelled
  rw [hs, Option.bind_some, Option.map_eq_some_iff] at hguest
  obtain ⟨s',hstep,htimer⟩ := hguest
  have hreach := System.reachable_foldlM reachable_newHost hs
  apply hnone s s' true 1 0 hreach hstep htimer
  rw [hcancelled]
  exact List.mem_singleton_self 0

/-- The deliveries that are pending for an id: tasks that will send its event, events in the queue
and the event that the guest is handling. -/
def pending (s : TimerHost) (id : ℕ) : ℕ :=
  s.timer.sleeping.countP (fun task => task.id = id ∧ task.flag ∉ s.timer.cancelled) +
    s.firing.countP (fun task => task.id = id) +
    s.inbox.queue.countP (fun command => command.timerId = some id) +
    (if s.guest.timerId = some id then 1 else 0)

/-- The timer whose event is dropped by a step: the queue is full or closed, or the actor has
failed. -/
def droppedTimer (s : TimerHost) : TimerLabel → Option ℕ
  | .send n => if s.inbox.HasRoom then none else s.firing[n]?.map SleepingTask.id
  | .begin false => s.inbox.queue.head?.bind TimerCommand.timerId
  | .finish true => s.guest.timerId
  | .drain => s.inbox.queue.head?.bind TimerCommand.timerId
  | _ => none

/-- A new timer gets an id without deliveries. -/
def UsesFreshId (s : TimerHost) : TimerLabel → Prop
  | .schedule delayMs => s.timer.CanSchedule s.now delayMs → s.pending s.timer.nextId = 0
  | _ => True

instance (s : TimerHost) (i : TimerLabel) : Decidable (s.UsesFreshId i) :=
  match i with
  | .schedule delayMs => inferInstanceAs
    (Decidable (s.timer.CanSchedule s.now delayMs → s.pending s.timer.nextId = 0))
  | .elapse _ | .cancel _ | .wake _ | .send _ | .post _ | .begin _ | .finish _ | .drain
  | .close => .isTrue trivial

/-- No event of an active timer is dropped, and no id is used again while it has a delivery. -/
def KeepsPending (s : TimerHost) (i : TimerLabel) : Prop :=
  (∀ id ∈ s.droppedTimer i, s.timer.active.get id = none) ∧ s.UsesFreshId i

instance (s : TimerHost) (i : TimerLabel) : Decidable (s.KeepsPending i) :=
  inferInstanceAs (Decidable (_ ∧ _))

/-- The id of the timer with this number. -/
def idOf (flag : ℕ) : ℕ := flag % (2^32 - 1) + 1

theorem nextTimerId_idOf (flag : ℕ) : nextTimerId (idOf flag) = idOf (flag + 1) := by
  unfold nextTimerId idOf
  have hlt : flag % (2^32 - 1) < 2^32 - 1 := Nat.mod_lt _ (by decide)
  have hmod := Nat.add_mod flag 1 (2^32 - 1)
  have hone : 1 % (2^32 - 1) = 1 := by decide
  rw [hone] at hmod
  rcases Nat.lt_or_ge (flag % (2^32 - 1) + 1) (2^32 - 1) with hsmall | hlarge
  · rw [Nat.mod_eq_of_lt hsmall] at hmod
    rw [Nat.mod_eq_of_lt (by omega), hmod]
    omega
  · have heq : flag % (2^32 - 1) + 1 = 2^32 - 1 := by omega
    rw [heq, Nat.mod_self] at hmod
    rw [heq, hmod]
    decide

/-- What holds of the slots: every active timer has one delivery pending, under its own id. -/
structure Slots (s : TimerHost) : Prop where
  bounded : s.timer.active.entries.length ≤ s.timer.maxActive
  nextId : s.timer.nextId = idOf s.timer.flags
  asleep : ∀ task ∈ s.timer.sleeping, task.id = idOf task.flag
  old : ∀ flag ∈ s.timer.cancelled, flag < s.timer.flags
  active : ∀ id timer, s.timer.active.get id = some timer →
    id = idOf timer.flag ∧ timer.flag < s.timer.flags ∧ s.pending id = 1
  handling : ∀ id flag, s.guest = .timer id flag → s.actor = .running

/-- A step that schedules and cancels nothing keeps the slots when the timers that stay active
keep their deliveries. -/
theorem Slots.of_pending {s s' : TimerHost} (h : s.Slots)
    (hmax : s'.timer.maxActive = s.timer.maxActive) (hnext : s'.timer.nextId = s.timer.nextId)
    (hflags : s'.timer.flags = s.timer.flags)
    (hcancelled : s'.timer.cancelled = s.timer.cancelled)
    (hsleeping : s'.timer.sleeping ⊆ s.timer.sleeping)
    (hlength : s'.timer.active.entries.length ≤ s.timer.active.entries.length)
    (hactive : ∀ id timer, s'.timer.active.get id = some timer →
      s.timer.active.get id = some timer ∧ s'.pending id = s.pending id)
    (hhandling : ∀ id flag, s'.guest = .timer id flag → s'.actor = .running) : s'.Slots where
  bounded := by
    rw [hmax]
    exact hlength.trans h.bounded
  nextId := by rw [hnext, hflags, h.nextId]
  asleep := fun task htask => h.asleep task (hsleeping htask)
  old := by
    rw [hcancelled, hflags]
    exact h.old
  active := by
    intro id timer hget
    obtain ⟨hold,hpending⟩ := hactive id timer hget
    rw [hflags, hpending]
    exact h.active id timer hold
  handling := hhandling

/-- Taking an entry out of a list lowers the counts by that entry. -/
theorem countP_eraseIdx_add {α : Type} (p : α → Bool) {l : List α} {n : ℕ} {a : α}
    (h : l[n]? = some a) : l.countP p = (l.eraseIdx n).countP p + if p a then 1 else 0 := by
  obtain ⟨hn,rfl⟩ := List.getElem?_eq_some_iff.mp h
  rw [← (List.getElem_cons_eraseIdx_perm hn).countP_eq p, List.countP_cons]

theorem slots_schedule {s : TimerHost} {delayMs : ℕ} (h : s.Slots)
    (hcond : s.KeepsPending (.schedule delayMs)) :
    Slots { s with timer := (s.timer.schedule s.now delayMs).state } := by
  obtain ⟨-,window,hstate⟩ | ⟨hcan,-,hstate⟩ := s.timer.schedule_cases s.now delayMs
  · rw [hstate]
    exact h.of_pending rfl rfl rfl rfl (List.Subset.refl _) le_rfl
      (fun _ _ hget => ⟨hget,rfl⟩) h.handling
  · have hnone : s.pending s.timer.nextId = 0 := hcond.2 hcan
    have hnew : s.timer.flags ∉ s.timer.cancelled :=
      fun hmem => absurd (h.old _ hmem) (lt_irrefl _)
    have hpending : ∀ id, pending { s with timer := (s.timer.schedule s.now delayMs).state } id =
        s.pending id + if s.timer.nextId = id then 1 else 0 := by
      intro id
      rw [hstate]
      simp only [pending, List.countP_cons]
      simp only [hnew, not_false_eq_true, and_true, decide_eq_true_eq]
      omega
    refine ⟨?_,?_,?_,?_,?_,?_⟩
    · rw [hstate]
      exact (OrdMap.length_insert_le _ _ _).trans hcan.2.2
    · rw [hstate]
      simp only [h.nextId, nextTimerId_idOf]
    · rw [hstate]
      intro task htask
      rcases List.mem_cons.mp htask with rfl | htask
      · exact h.nextId
      · exact h.asleep task htask
    · rw [hstate]
      exact fun flag hflag => Nat.lt_succ_of_lt (h.old flag hflag)
    · intro id timer hget
      rw [hpending]
      rw [hstate, OrdMap.get_insert] at hget
      rw [hstate]
      split_ifs at hget with heq
      · cases hget
        subst heq
        exact ⟨h.nextId,Nat.lt_succ_self _,by simp [hnone]⟩
      · obtain ⟨hid,hlt,hone⟩ := h.active id timer hget
        refine ⟨hid,Nat.lt_succ_of_lt hlt,?_⟩
        rw [if_neg (fun hn => heq hn.symm), hone]
    · exact h.handling

theorem slots_cancel {s : TimerHost} {id : ℕ} (h : s.Slots) :
    Slots { s with timer := (s.timer.cancel id).state } := by
  obtain ⟨-,hstate⟩ | ⟨timer,hget,hstate⟩ := s.timer.cancel_cases id
  · rw [hstate]
    exact h
  · obtain ⟨hid,hlt,-⟩ := h.active id timer hget
    refine ⟨?_,?_,?_,?_,?_,?_⟩
    · rw [hstate]
      exact (OrdMap.length_erase_le _ _).trans h.bounded
    · rw [hstate]
      exact h.nextId
    · rw [hstate]
      exact h.asleep
    · rw [hstate]
      intro flag hflag
      rcases List.mem_cons.mp hflag with rfl | hflag
      · exact hlt
      · exact h.old flag hflag
    · intro i other hother
      rw [hstate, OrdMap.get_erase] at hother
      split_ifs at hother with hne
      obtain ⟨hi,hless,hone⟩ := h.active i other hother
      rw [hstate]
      refine ⟨hi,hless,?_⟩
      rw [← hone]
      simp only [pending]
      -- a sleeping task with the raised flag has the id of the cancelled timer
      have hsame : s.timer.sleeping.countP
            (fun task => task.id = i ∧ task.flag ∉ timer.flag :: s.timer.cancelled) =
          s.timer.sleeping.countP (fun task => task.id = i ∧ task.flag ∉ s.timer.cancelled) := by
        apply List.countP_congr
        intro task htask
        have htaskId := h.asleep task htask
        simp only [List.mem_cons, not_or, decide_eq_true_eq]
        constructor
        · exact fun ⟨hti,_,hno⟩ => ⟨hti,hno⟩
        · rintro ⟨hti,hno⟩
          refine ⟨hti,?_,hno⟩
          intro hflag
          apply hne
          rw [← hti, htaskId, hflag, ← hid]
      rw [hsame]
    · exact h.handling

/-- A step that leaves the service alone. -/
theorem Slots.of_timer_eq {s s' : TimerHost} (h : s.Slots) (htimer : s'.timer = s.timer)
    (hpending : ∀ id, s.timer.active.get id ≠ none → s'.pending id = s.pending id)
    (hhandling : ∀ id flag, s'.guest = .timer id flag → s'.actor = .running) : s'.Slots := by
  refine h.of_pending ?_ ?_ ?_ ?_ ?_ ?_ ?_ hhandling
  · rw [htimer]
  · rw [htimer]
  · rw [htimer]
  · rw [htimer]
  · rw [htimer]
    exact List.Subset.refl _
  · rw [htimer]
  · intro id timer hget
    rw [htimer] at hget
    exact ⟨hget,hpending id (by simp [hget])⟩

theorem slots_wake {s s' : TimerHost} {n : ℕ} (h : s.Slots) (hstep : s.wake n = some s') :
    s'.Slots := by
  obtain ⟨task,htask,htimer,hfiring,hinbox,hactor,hguest⟩ := wake_cases hstep
  refine h.of_pending ?_ ?_ ?_ ?_ ?_ ?_ ?_ ?_
  · rw [htimer]
  · rw [htimer]
  · rw [htimer]
  · rw [htimer]
  · rw [htimer]
    exact List.eraseIdx_subset
  · rw [htimer]
  · intro id timer hget
    rw [htimer] at hget
    refine ⟨hget,?_⟩
    have hcount := countP_eraseIdx_add
      (fun task : SleepingTask => decide (task.id = id ∧ task.flag ∉ s.timer.cancelled)) htask
    simp only [pending, htimer, hfiring, hinbox, hguest]
    by_cases hcancelled : task.flag ∈ s.timer.cancelled
    · simp only [hcancelled, not_true_eq_false, and_false, decide_false, Bool.false_eq_true,
        if_false] at hcount
      rw [if_pos hcancelled]
      omega
    · simp only [hcancelled, not_false_eq_true, and_true, decide_eq_true_eq] at hcount
      rw [if_neg hcancelled, List.countP_cons]
      simp only [decide_eq_true_eq]
      omega
  · rw [hguest, hactor]
    exact h.handling

theorem slots_send {s s' : TimerHost} {n : ℕ} (h : s.Slots) (hcond : s.KeepsPending (.send n))
    (hstep : s.send n = some s') : s'.Slots := by
  obtain ⟨task,htask,htimer,hfiring,hactor,hguest,hqueue⟩ := send_cases hstep
  refine h.of_timer_eq htimer ?_ ?_
  · intro id hid
    have hcount := countP_eraseIdx_add (fun task : SleepingTask => decide (task.id = id)) htask
    simp only [decide_eq_true_eq] at hcount
    simp only [pending, htimer, hfiring, hguest, hqueue, List.countP_append]
    by_cases hroom : s.inbox.HasRoom
    · rw [if_pos hroom, List.countP_singleton]
      simp only [TimerCommand.timerId, Option.some.injEq, decide_eq_true_eq]
      omega
    · -- the event is dropped, so its timer is not active
      have hne : task.id ≠ id := by
        rintro rfl
        apply hid
        apply hcond.1
        simp [droppedTimer, hroom, htask]
      rw [if_neg hne] at hcount
      rw [if_neg hroom, List.countP_nil]
      omega
  · rw [hguest, hactor]
    exact h.handling

theorem slots_post {s s' : TimerHost} {shutdown : Bool} (h : s.Slots)
    (hstep : s.step (.post shutdown) = some s') : s'.Slots := by
  obtain ⟨htimer,hfiring,hactor,hguest,rest,hqueue,hrest⟩ := post_cases hstep
  refine h.of_timer_eq htimer ?_ ?_
  · intro id _
    have hzero : rest.countP (fun command => decide (command.timerId = some id)) = 0 := by
      rw [List.countP_eq_zero]
      intro command hcommand
      cases command with
      | timer i flag => exact absurd rfl (hrest _ hcommand i flag)
      | call => simp [TimerCommand.timerId]
      | shutdown => simp [TimerCommand.timerId]
    simp only [pending, htimer, hfiring, hguest, hqueue, List.countP_append, hzero]
    omega
  · rw [hguest, hactor]
    exact h.handling

/-- The deliveries in the queue before and after a command is taken from it. -/
theorem pending_of_recv {s : TimerHost} {command : TimerCommand} {inbox : Channel TimerCommand}
    (h : s.inbox.recv = some (command,inbox)) (id : ℕ) :
    s.pending id = pending { s with inbox := inbox } id +
      if command.timerId = some id then 1 else 0 := by
  obtain ⟨hqueue,-,-⟩ := Channel.queue_of_recv h
  simp only [pending, hqueue, List.countP_cons, decide_eq_true_eq]
  omega

/-- The event of a timer that is taken from the queue and dropped. -/
theorem timerId_ne_of_head {s : TimerHost} {command : TimerCommand} {inbox : Channel TimerCommand}
    {i : TimerLabel} (hcond : s.KeepsPending i)
    (hdropped : s.droppedTimer i = s.inbox.queue.head?.bind TimerCommand.timerId)
    (h : s.inbox.recv = some (command,inbox)) {id : ℕ} (hid : s.timer.active.get id ≠ none) :
    command.timerId ≠ some id := by
  obtain ⟨hqueue,-,-⟩ := Channel.queue_of_recv h
  intro heq
  apply hid
  apply hcond.1
  rw [hdropped, hqueue]
  exact heq

/-- An idle actor that takes a command has the event of a timer to handle, if it is one. -/
theorem pending_start {s : TimerHost} {ready : Bool} {command : TimerCommand}
    {inbox : Channel TimerCommand} (hguest : s.guest = .none) (id : ℕ) :
    ({ s with inbox := inbox }.start ready command).pending id =
      pending { s with inbox := inbox } id +
        if ready = true ∧ command.timerId = some id then 1 else 0 := by
  cases command with
  | timer i flag => cases ready <;> simp [start, pending, hguest, TimerCommand.timerId]
  | call => cases ready <;> simp [start, pending, hguest, TimerCommand.timerId]
  | shutdown =>
    simp only [start, pending, hguest, TimerCommand.timerId, GuestCall.timerId_none,
      GuestCall.timerId_other, reduceCtorEq, and_false, if_false, Nat.add_zero]
    rfl

theorem slots_begin {s s' : TimerHost} {ready : Bool} (h : s.Slots)
    (hcond : s.KeepsPending (.begin ready)) (hstep : s.begin ready = some s') : s'.Slots := by
  obtain ⟨hactor,hguest,command,inbox,hrecv,rfl⟩ := begin_cases hstep
  refine h.of_timer_eq ?_ ?_ ?_
  · cases command <;> cases ready <;> rfl
  · intro id hid
    rw [pending_start hguest, pending_of_recv hrecv id]
    cases ready with
    | false =>
      have hne := timerId_ne_of_head hcond rfl hrecv hid
      simp [hne]
    | true => simp
  · intro id flag hnow
    cases command <;> cases ready <;> simp_all [start]

theorem slots_finish {s s' : TimerHost} {failed : Bool} (h : s.Slots)
    (hcond : s.KeepsPending (.finish failed)) (hstep : s.finish failed = some s') :
    s'.Slots := by
  obtain ⟨-,hguest,hfiring,hinbox,-,hcases⟩ := finish_cases hstep
  have hhandling : ∀ id flag, s'.guest = .timer id flag → s'.actor = .running := by
    simp [hguest]
  obtain ⟨id,flag,hactor,hevent,-,htimer⟩ | ⟨htimer,hfailed⟩ := hcases
  · refine h.of_pending ?_ ?_ ?_ ?_ ?_ ?_ ?_ hhandling
    · rw [htimer]
      rfl
    · rw [htimer]
      rfl
    · rw [htimer]
      rfl
    · rw [htimer]
      rfl
    · rw [htimer]
      exact List.Subset.refl _
    · rw [htimer]
      exact OrdMap.length_erase_le _ _
    · intro i timer hget
      rw [htimer, TimerService.complete, OrdMap.get_erase] at hget
      split_ifs at hget with hne
      refine ⟨hget,?_⟩
      have hother : id ≠ i := fun heq => hne heq.symm
      simp [pending, htimer, TimerService.complete, hfiring, hinbox, hguest, hevent, hother]
  · refine h.of_timer_eq htimer ?_ hhandling
    intro id hid
    -- the call that returns is not the event of an active timer
    have hne : s.guest.timerId ≠ some id := by
      intro heq
      cases hcall : s.guest with
      | none => simp [hcall] at heq
      | other => simp [hcall] at heq
      | timer i flag =>
        obtain rfl := hfailed (h.handling i flag hcall) i flag hcall
        exact hid (hcond.1 id heq)
    simp only [pending, htimer, hfiring, hinbox, hguest, if_neg hne]
    simp

theorem slots_drain {s s' : TimerHost} (h : s.Slots) (hcond : s.KeepsPending .drain)
    (hstep : s.drain = some s') : s'.Slots := by
  obtain ⟨hactor,⟨command,inbox,hrecv,rfl⟩ | ⟨-,rfl⟩⟩ := drain_cases hstep
  · refine h.of_timer_eq rfl ?_ h.handling
    intro id hid
    have hcount := pending_of_recv hrecv id
    rw [if_neg (timerId_ne_of_head hcond rfl hrecv hid)] at hcount
    exact hcount.symm
  · have hidle : s.guest.timerId = none := by
      cases hcall : s.guest with
      | none => rfl
      | other => rfl
      | timer id flag => simpa [hactor] using h.handling id flag hcall
    refine h.of_timer_eq rfl ?_ (by simp)
    intro id _
    simp only [pending, hidle]
    simp

theorem slots_close {s s' : TimerHost} (h : s.Slots) (hstep : s.close = some s') : s'.Slots := by
  obtain ⟨-,hguest,rfl⟩ := close_cases hstep
  refine h.of_pending rfl rfl rfl rfl (List.Subset.refl _) (Nat.zero_le _) ?_ (by simp [hguest])
  intro id timer hget
  cases hget

theorem slots_step {s s' : TimerHost} {i : TimerLabel} (h : s.Slots) (hcond : s.KeepsPending i)
    (hstep : s.step i = some s') : s'.Slots := by
  cases i with
  | elapse nanos =>
    cases hstep
    exact h.of_timer_eq rfl (fun _ _ => rfl) h.handling
  | schedule delayMs =>
    simp only [step] at hstep
    split_ifs at hstep
    cases hstep
    exact slots_schedule h hcond
  | cancel id =>
    simp only [step] at hstep
    split_ifs at hstep
    cases hstep
    exact slots_cancel h
  | wake n => exact slots_wake h hstep
  | send n => exact slots_send h hcond hstep
  | post shutdown => exact slots_post h hstep
  | begin ready => exact slots_begin h hcond hstep
  | finish failed => exact slots_finish h hcond hstep
  | drain => exact slots_drain h hcond hstep
  | close => exact slots_close h hstep

/-- In a run that drops no event of an active timer and uses no id again while it has a delivery,
the slots stay within their limit, a new timer gets an id that is not active, and every active
timer has exactly one delivery pending. -/
theorem slot_freed_by_event {s : TimerHost} (h : timerSystem.ReachableWhen KeepsPending s) :
    s.timer.active.entries.length ≤ s.timer.maxActive ∧
      (∀ delayMs id, s.KeepsPending (.schedule delayMs) →
        (s.timer.schedule s.now delayMs).result = .ok id → s.timer.active.get id = none) ∧
      ∀ id timer, s.timer.active.get id = some timer → s.pending id = 1 := by
  have hslots : s.Slots := by
    apply h.invariant Slots
    · rintro s ⟨now,maxPerMinute,maxActive,rfl⟩
      refine ⟨Nat.zero_le _,rfl,?_,?_,?_,?_⟩
      · exact fun task htask => absurd htask List.not_mem_nil
      · exact fun flag hflag => absurd hflag List.not_mem_nil
      · intro id timer hget
        cases hget
      · intro id flag hguest
        cases hguest
    · exact fun _ _ _ => slots_step
  refine ⟨hslots.bounded,?_,fun id timer hget => (hslots.active id timer hget).2.2⟩
  intro delayMs id hcond hresult
  obtain ⟨⟨e,herror⟩,-⟩ | ⟨hcan,hok,-⟩ := s.timer.schedule_cases s.now delayMs
  · rw [herror] at hresult
    cases hresult
  · rw [hok] at hresult
    cases hresult
    cases hget : s.timer.active.get s.timer.nextId with
    | none => rfl
    | some timer =>
      have hone := (hslots.active _ timer hget).2.2
      have hzero := hcond.2 hcan
      omega

/-- One timer has fired into the queue, the other one is still asleep. -/
def afterFirst : Option TimerHost :=
  System.runWhen step KeepsPending newHost
    (.schedule 5 :: scheduleFirst ++ [.elapse 1000000,.wake 0,.send 0])

theorem afterFirst_slots :
    ∃ s, afterFirst = some s ∧ s.timer.active.entries = [(1,⟨0⟩),(2,⟨1⟩)] ∧
      s.inbox.queue = [.timer 2 1] ∧ s.pending 1 = 1 ∧ s.pending 2 = 1 := by
  obtain ⟨s,hs⟩ : ∃ s, afterFirst = some s := Option.isSome_iff_exists.mp (by decide +kernel)
  have hentries : afterFirst.map (fun s => s.timer.active.entries) =
      some [(1,⟨0⟩),(2,⟨1⟩)] := by decide +kernel
  have hqueue : afterFirst.map (fun s => s.inbox.queue) = some [.timer 2 1] := by decide +kernel
  rw [hs, Option.map_some, Option.some.injEq] at hentries hqueue
  have hreach := System.reachableWhen_runWhen reachable_newHost hs
  obtain ⟨-,-,hone⟩ := slot_freed_by_event hreach
  have hfirst : s.timer.active.get 1 = some ⟨0⟩ := by
    rw [← OrdMap.mem_entries_iff, hentries]
    simp
  have hsecond : s.timer.active.get 2 = some ⟨1⟩ := by
    rw [← OrdMap.mem_entries_iff, hentries]
    simp
  exact ⟨s,hs,hentries,hqueue,hone 1 _ hfirst,hone 2 _ hsecond⟩

/-- The timer fires into a queue that is full of calls. -/
def fillQueue : List TimerLabel :=
  scheduleFirst ++ List.replicate queueCapacity (.post false) ++ [.elapse 1000000,.wake 0,.send 0]

def afterFull : Option TimerHost := fillQueue.foldlM step newHost

theorem slot_leaked :
    ¬∀ s, timerSystem.Reachable s →
      ∀ id timer, s.timer.active.get id = some timer → s.pending id = 1 := by
  intro hone
  obtain ⟨s,hs⟩ : ∃ s, afterFull = some s := Option.isSome_iff_exists.mp (by decide +kernel)
  have hactive : afterFull.map (fun s => s.timer.active.get 1) = some (some ⟨0⟩) := by
    decide +kernel
  have hpending : afterFull.map (fun s => s.pending 1) = some 0 := by decide +kernel
  rw [hs, Option.map_some, Option.some.injEq] at hactive hpending
  have hreach := System.reachable_foldlM reachable_newHost hs
  have hpendingOne := hone s hreach 1 _ hactive
  omega

end TimerHost

end Floatile.Runtime.Timer
