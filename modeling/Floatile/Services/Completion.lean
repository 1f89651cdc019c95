import Floatile.Lib.Checked
import Floatile.Lib.Transition
import Floatile.Services.Tally
import Mathlib.Algebra.Order.BigOperators.Group.List
import Mathlib.Data.List.Nodup

/-! Accepted operations complete exactly once: none completes twice, a measure falls with every
step of the dispatcher, the tasks and the receiver, and where no such step is left every
accepted operation has completed. -/
namespace Floatile.Services.Operation

open Floatile.Core.Capability Floatile.Core.Operation
open Floatile.Lib Floatile.Lib.Transition

variable {τ α : Type} {owner : OperationOwner} {limits : OperationLimits}

/-- What keeps the dispatcher and the tasks going. -/
structure Going (limits : OperationLimits) (s : Registry τ α) : Prop where
  inFlight : s.permits + s.tasks.length + (if s.dispatcher = .awaitingJob then 1 else 0) =
    limits.maxInFlight
  ended : s.dispatcher = .ended → s.held = false ∧ s.jobs.queue = []
  released : s.held = false → s.submissions = []
  isOpen : s.completions.isOpen = true
  capacity : s.completions.capacity = limits.completionCapacity
  undelivered : s.undelivered = []
  noneUnsent : ∀ t ∈ s.tasks, t.phase ≠ .unsent

/-- Another phase for one task, as long as its completion can still be sent. -/
theorem Going.replace {s : Registry τ α} {pre post : List (Task τ α)} {job : OperationJob}
    {phase : TaskPhase τ α} (h : Going limits s) (htasks : s.tasks = pre ++ ⟨job,phase⟩ :: post)
    (phase' : TaskPhase τ α) (hphase : phase' ≠ .unsent) :
    s.permits + (pre ++ ⟨job,phase'⟩ :: post).length +
        (if s.dispatcher = .awaitingJob then 1 else 0) = limits.maxInFlight ∧
      ∀ t ∈ pre ++ ⟨job,phase'⟩ :: post, t.phase ≠ .unsent := by
  have hinFlight := h.inFlight
  have hunsent := h.noneUnsent
  rw [htasks, List.length_append, List.length_cons] at hinFlight
  rw [htasks, List.forall_mem_append, List.forall_mem_cons] at hunsent
  refine ⟨?_,List.forall_mem_append.mpr ⟨hunsent.1,List.forall_mem_cons.mpr ⟨hphase,hunsent.2.2⟩⟩⟩
  rw [List.length_append, List.length_cons]
  exact hinFlight

theorem Going.step {s s' : Registry τ α} {i : RegistryLabel τ α} (h : Going limits s)
    (hstep : RegistryStep owner limits s i s') : Going limits s' := by
  have hgoing := h
  obtain ⟨h1,h2,h3,h4,h5,h6,h7⟩ := h
  cases hstep with
  | tick => exact ⟨h1,h2,h3,h4,h5,h6,h7⟩
  | drawElsewhere => exact ⟨h1,h2,h3,h4,h5,h6,h7⟩
  | draw hheld => exact ⟨h1,h2,fun h => by simp [hheld] at h,h4,h5,h6,h7⟩
  | refuse => exact ⟨h1,h2,h3,h4,h5,h6,h7⟩
  | insertActive hsubmissions =>
    exact ⟨h1,h2,fun h => by simp [h3 h] at hsubmissions,h4,h5,h6,h7⟩
  | enqueue hsubmissions =>
    -- a call in progress holds the registry, so the dispatcher has not ended
    have hheld : s.held ≠ false := fun h => by simp [h3 h] at hsubmissions
    exact ⟨h1,fun h => absurd (h2 h).1 hheld,fun h => absurd h hheld,h4,h5,h6,h7⟩
  | reject hsubmissions =>
    exact ⟨h1,h2,fun h => by simp [h3 h] at hsubmissions,h4,h5,h6,h7⟩
  | removeRejected hsubmissions =>
    exact ⟨h1,h2,fun h => by simp [h3 h] at hsubmissions,h4,h5,h6,h7⟩
  | cancel => exact ⟨h1,h2,h3,h4,h5,h6,h7⟩
  | cancelAll => exact ⟨h1,h2,h3,h4,h5,h6,h7⟩
  | dropRegistry hidle => exact ⟨h1,fun h => ⟨rfl,(h2 h).2⟩,fun _ => hidle,h4,h5,h6,h7⟩
  | acquirePermit hdispatcher hpermits =>
    refine ⟨?_,by simp,h3,h4,h5,h6,h7⟩
    simp only [hdispatcher, hpermits, reduceCtorEq, ↓reduceIte] at h1 ⊢
    omega
  | receiveJob hdispatcher =>
    refine ⟨?_,by simp,h3,h4,h5,h6,?_⟩
    · simp only [hdispatcher, ↓reduceIte, reduceCtorEq, List.length_append, List.length_singleton]
        at h1 ⊢
      omega
    · intro t ht
      rcases List.mem_append.mp ht with ht | ht
      · exact h7 t ht
      · obtain rfl := List.mem_singleton.mp ht
        simp
  | endDispatch hdispatcher hjobs hheld =>
    refine ⟨?_,fun _ => ⟨hheld,rfl⟩,h3,h4,h5,h6,h7⟩
    simp only [hdispatcher, ↓reduceIte, reduceCtorEq] at h1 ⊢
    omega
  | @start _ _ _ _ job phase htasks hphase =>
    have hreplace := hgoing.replace htasks phase (by rcases hphase with rfl | rfl <;> simp)
    exact ⟨hreplace.1,h2,h3,h4,h5,h6,hreplace.2⟩
  | observeCancel htasks =>
    have hreplace := hgoing.replace htasks (.finished (.error .cancelled)) (by simp)
    exact ⟨hreplace.1,h2,h3,h4,h5,h6,hreplace.2⟩
  | @poll _ poll _ _ job htask hcancelled htasks =>
    have hphase : Registry.pollUntil s.now job.deadline poll ≠ .unsent := by
      cases poll with
      | some result => simp [Registry.pollUntil]
      | none =>
        unfold Registry.pollUntil
        split_ifs <;> simp
    have hreplace := hgoing.replace htasks _ hphase
    exact ⟨hreplace.1,h2,h3,h4,h5,h6,hreplace.2⟩
  | @settle _ _ _ _ _ failure _ htasks =>
    have hreplace := hgoing.replace htasks (.settled (.failed failure)) (by simp)
    exact ⟨hreplace.1,h2,h3,h4,h5,h6,hreplace.2⟩
  | retain htasks =>
    have hreplace := hgoing.replace htasks (.settled .succeeded) (by simp)
    exact ⟨hreplace.1,h2,h3,h4,h5,h6,hreplace.2⟩
  | @deactivate _ _ _ _ _ terminal htasks =>
    have hreplace := hgoing.replace htasks (.sending terminal) (by simp)
    exact ⟨hreplace.1,h2,h3,h4,h5,h6,hreplace.2⟩
  | send htasks hqueue hopen hcapacity =>
    simp only [htasks, List.length_append, List.length_cons, List.forall_mem_append,
      List.forall_mem_cons] at h1 h7
    refine ⟨?_,h2,h3,hopen.trans h4,hcapacity.trans h5,h6,
      List.forall_mem_append.mpr ⟨h7.1,h7.2.2⟩⟩
    simp only [List.length_append]
    omega
  | closed htasks hclosed => exact absurd h4 (by simp [hclosed])
  | @dropUnsent _ _ _ _ job htasks =>
    exact absurd rfl (h7 ⟨job,.unsent⟩ (by rw [htasks]; simp))
  | takeFail => exact ⟨h1,h2,h3,h4,h5,h6,h7⟩
  | take => exact ⟨h1,h2,h3,h4,h5,h6,h7⟩
  | discard => exact ⟨h1,h2,h3,h4,h5,h6,h7⟩

variable [DecidableEq τ] (owner limits)

/-- Steps of the registry and of the receiver of its completions. -/
inductive ServiceLabel (τ α : Type) where
  | registry (label : RegistryLabel τ α)
  | receive

def Registry.receive (s : Registry τ α) : Option (Registry τ α) :=
  match s.completions.recv with
  | none => none
  | some (_,completions) => some { s with completions := completions }

def serviceStep (s : Registry τ α) : ServiceLabel τ α → Option (Registry τ α)
  | .registry label => s.step owner limits label
  | .receive => s.receive

/-- Runs of a new registry whose completion receiver stays open. Ids are drawn from 1 on. -/
def serviceSystem : System (Registry τ α) (ServiceLabel τ α) :=
  .ofPartial (fun s => ∃ now counter, 0 < counter ∧ Registry.new limits now counter = .ok s)
    (serviceStep owner limits)

/-- Steps that get accepted operations closer to their completion. Polls of work that stays
pending are left out, and so is the clock once no task waits for a later deadline. -/
def Progresses (s : Registry τ α) : ServiceLabel τ α → Prop
  | .receive => True
  | .registry .tick => ∃ job, ⟨job,.selecting⟩ ∈ s.tasks ∧ s.now < job.deadline
  | .registry (.insertActive _) => True
  | .registry (.trySend _) => True
  | .registry (.removeRejected _) => True
  | .registry .acquirePermit => True
  | .registry .receiveJob => True
  | .registry (.run n poll) => ∀ job, s.tasks[n]? = some ⟨job,.selecting⟩ → poll = none →
      job.id ∉ s.cancelled → job.deadline ≤ s.now
  | _ => False

def SubmitPhase.cost : SubmitPhase → ℕ → ℕ
  | .allocated, wait => 11 + wait
  | .inserted, wait => 10 + wait
  | .rejected _, _ => 1

def TaskPhase.cost : TaskPhase τ α → ℕ → ℕ
  | .spawned, wait => 6 + wait
  | .selecting, wait => 5 + wait
  | .finished _, _ => 4
  | .settled _, _ => 3
  | .sending _, _ => 2
  | .unsent, _ => 1

def Dispatcher.cost : Dispatcher → ℕ
  | .awaitingPermit => 2
  | .awaitingJob => 1
  | .ended => 0

/-- The steps and the time that are left for what has been submitted. -/
def Registry.work (s : Registry τ α) : ℕ :=
  (s.submissions.map (fun x => x.phase.cost (x.job.deadline - s.now))).sum +
  (s.jobs.queue.map (fun job => 8 + (job.deadline - s.now))).sum +
  (s.tasks.map (fun t => t.phase.cost (t.job.deadline - s.now))).sum +
  s.completions.queue.length + s.dispatcher.cost

variable {owner limits}

theorem SubmitPhase.cost_mono (phase : SubmitPhase) {wait wait' : ℕ} (h : wait ≤ wait') :
    phase.cost wait ≤ phase.cost wait' := by
  cases phase <;> simp only [SubmitPhase.cost] <;> omega

omit [DecidableEq τ] in
theorem TaskPhase.cost_mono (phase : TaskPhase τ α) {wait wait' : ℕ} (h : wait ≤ wait') :
    phase.cost wait ≤ phase.cost wait' := by
  cases phase <;> simp only [TaskPhase.cost] <;> omega

omit [DecidableEq τ] in
/-- The clock shortens the time that is left for a task that waits. -/
theorem work_tick {s : Registry τ α} {job : OperationJob} (hmem : ⟨job,.selecting⟩ ∈ s.tasks)
    (hwait : s.now < job.deadline) : ({ s with now := s.now + 1 } : Registry τ α).work < s.work := by
  have hshorter : ∀ deadline : ℕ, deadline - (s.now + 1) ≤ deadline - s.now := by
    intro deadline
    omega
  have hcalls : (s.submissions.map (fun x => x.phase.cost (x.job.deadline - (s.now + 1)))).sum ≤
      (s.submissions.map (fun x => x.phase.cost (x.job.deadline - s.now))).sum :=
    List.sum_le_sum (fun x _ => x.phase.cost_mono (hshorter _))
  have hjobs : (s.jobs.queue.map (fun job => 8 + (job.deadline - (s.now + 1)))).sum ≤
      (s.jobs.queue.map (fun job => 8 + (job.deadline - s.now))).sum :=
    List.sum_le_sum (fun job _ => Nat.add_le_add_left (hshorter _) 8)
  have htasks : (s.tasks.map (fun t => t.phase.cost (t.job.deadline - (s.now + 1)))).sum <
      (s.tasks.map (fun t => t.phase.cost (t.job.deadline - s.now))).sum := by
    refine List.sum_lt_sum _ _ (fun t _ => t.phase.cost_mono (hshorter _)) ⟨_,hmem,?_⟩
    simp only [TaskPhase.cost]
    omega
  unfold Registry.work
  simp only
  omega

omit [DecidableEq τ] in
theorem registryStep_work_lt {s s' : Registry τ α} {i : RegistryLabel τ α}
    (hprogress : Progresses s (.registry i)) (hstep : RegistryStep owner limits s i s') :
    s'.work < s.work := by
  cases hstep with
  | tick =>
    obtain ⟨job,hmem,hwait⟩ := hprogress
    exact work_tick hmem hwait
  | drawElsewhere => exact hprogress.elim
  | draw => exact hprogress.elim
  | refuse => exact hprogress.elim
  | insertActive hsubmissions =>
    simp [Registry.work, hsubmissions, SubmitPhase.cost]
  | enqueue hsubmissions hopen hjobs =>
    simp [Registry.work, hsubmissions, hjobs, SubmitPhase.cost]
    omega
  | reject hsubmissions =>
    simp [Registry.work, hsubmissions, SubmitPhase.cost]
    omega
  | removeRejected hsubmissions =>
    simp [Registry.work, hsubmissions, SubmitPhase.cost]
  | cancel => exact hprogress.elim
  | cancelAll => exact hprogress.elim
  | dropRegistry => exact hprogress.elim
  | acquirePermit hdispatcher =>
    simp [Registry.work, hdispatcher, Dispatcher.cost]
  | receiveJob hdispatcher hjobs =>
    simp [Registry.work, hdispatcher, hjobs, Dispatcher.cost, TaskPhase.cost]
    omega
  | endDispatch hdispatcher hjobs =>
    simp [Registry.work, hdispatcher, hjobs, Dispatcher.cost]
  | start htasks hphase =>
    rcases hphase with rfl | rfl <;> simp [Registry.work, htasks, TaskPhase.cost]
    omega
  | observeCancel htasks =>
    simp [Registry.work, htasks, TaskPhase.cost]
    omega
  | @poll _ poll _ _ job htask hcancelled htasks =>
    cases poll with
    | some result =>
      simp [Registry.work, htasks, TaskPhase.cost, Registry.pollUntil]
      omega
    | none =>
      have hexpired : job.deadline ≤ s.now := hprogress job htask rfl hcancelled
      simp [Registry.work, htasks, TaskPhase.cost, Registry.pollUntil, hexpired]
  | settle htasks => simp [Registry.work, htasks, TaskPhase.cost]
  | retain htasks => simp [Registry.work, htasks, TaskPhase.cost]
  | deactivate htasks => simp [Registry.work, htasks, TaskPhase.cost]
  | send htasks hqueue =>
    simp [Registry.work, htasks, hqueue, TaskPhase.cost]
    omega
  | closed htasks => simp [Registry.work, htasks, TaskPhase.cost]
  | dropUnsent htasks => simp [Registry.work, htasks, TaskPhase.cost]
  | takeFail => exact hprogress.elim
  | take => exact hprogress.elim
  | discard => exact hprogress.elim

theorem serviceStep_work_lt {s s' : Registry τ α} {i : ServiceLabel τ α}
    (hprogress : Progresses s i) (hstep : serviceStep owner limits s i = some s') :
    s'.work < s.work := by
  cases i with
  | registry label => exact registryStep_work_lt hprogress (Registry.step_cases hstep)
  | receive =>
    simp only [serviceStep, Registry.receive] at hstep
    split at hstep
    · cases hstep
    · next completions hrecv =>
      cases hstep
      obtain ⟨hqueue,-,-⟩ := Channel.queue_of_recv hrecv
      simp [Registry.work, hqueue]

omit [DecidableEq τ] in
theorem going_new {now counter : ℕ} {s : Registry τ α}
    (h : Registry.new limits now counter = .ok s) : Going limits s := by
  unfold Registry.new OperationLimits.validate at h
  split_ifs at h
  · cases h
  · cases h
    constructor <;> simp

omit [DecidableEq τ] in
theorem limits_pos_of_new {now counter : ℕ} {s : Registry τ α}
    (h : Registry.new limits now counter = .ok s) :
    0 < limits.maxInFlight ∧ 0 < limits.completionCapacity := by
  unfold Registry.new OperationLimits.validate at h
  split_ifs at h with hzero
  · cases h
  · omega

/-- What holds of a service whose completion receiver stays open. -/
structure Sound (limits : OperationLimits) (s : Registry τ α) : Prop where
  tally : ∀ id, Tally s id
  going : Going limits s
  maxInFlight_pos : 0 < limits.maxInFlight
  completionCapacity_pos : 0 < limits.completionCapacity

theorem sound_of_reachable {s : Registry τ α} (h : (serviceSystem owner limits).Reachable s) :
    Sound limits s := by
  refine h.invariant (Sound limits) ?_ ?_
  · rintro s ⟨now,counter,hcounter,hnew⟩
    obtain ⟨hflight,hcapacity⟩ := limits_pos_of_new hnew
    exact ⟨tally_new hcounter hnew,going_new hnew,hflight,hcapacity⟩
  · rintro s i s' ⟨htally,hgoing,hflight,hcapacity⟩ - hstep
    cases i with
    | registry label =>
      have hcases := Registry.step_cases hstep
      exact ⟨fun id => (htally id).step hcases,hgoing.step hcases,hflight,hcapacity⟩
    | receive =>
      change s.receive = some s' at hstep
      unfold Registry.receive at hstep
      split at hstep
      · cases hstep
      · next completions hrecv =>
        cases hstep
        obtain ⟨-,hopen,hcap⟩ := Channel.queue_of_recv hrecv
        obtain ⟨h1,h2,h3,h4,h5,h6,h7⟩ := hgoing
        refine ⟨fun id => ?_,⟨h1,h2,h3,hopen.trans h4,hcap.trans h5,h6,h7⟩,hflight,hcapacity⟩
        obtain ⟨t1,t2,t3,t4,t5,t6,t7,t8⟩ := htally id
        exact ⟨t1,t2,t3,t4,t5,t6,t7,t8⟩

/-- A task in any phase lets some step of the service progress. -/
theorem progress_of_task {s : Registry τ α} (h : Sound limits s) {t : Task τ α}
    (ht : t ∈ s.tasks) : ∃ i, Progresses s i ∧ (serviceStep owner limits s i).isSome := by
  obtain ⟨n,hn⟩ := List.mem_iff_getElem?.mp ht
  obtain ⟨job,phase⟩ := t
  -- a poll of a task that is not selecting is never a poll of pending work
  have hother : phase ≠ .selecting → Progresses s (.registry (.run n none)) := by
    intro hphase job' hjob'
    rw [hn] at hjob'
    cases hjob'
    exact absurd rfl hphase
  cases phase with
  | spawned =>
    refine ⟨.registry (.run n none),hother (by simp),?_⟩
    simp only [serviceStep, Registry.step, Registry.runTask, hn]
    split_ifs <;> rfl
  | selecting =>
    by_cases hwait : s.now < job.deadline
    · exact ⟨.registry .tick,⟨job,ht,hwait⟩,rfl⟩
    · refine ⟨.registry (.run n none),?_,?_⟩
      · intro job' hjob' _ _
        rw [hn] at hjob'
        cases hjob'
        exact not_lt.mp hwait
      · simp only [serviceStep, Registry.step, Registry.runTask, hn]
        split_ifs <;> rfl
  | finished result =>
    refine ⟨.registry (.run n none),hother (by simp),?_⟩
    simp only [serviceStep, Registry.step, Registry.runTask, hn]
    rfl
  | settled terminal =>
    refine ⟨.registry (.run n none),hother (by simp),?_⟩
    simp only [serviceStep, Registry.step, Registry.runTask, hn]
    rfl
  | sending terminal =>
    by_cases hroom : s.completions.HasRoom
    · refine ⟨.registry (.run n none),hother (by simp),?_⟩
      simp only [serviceStep, Registry.step, Registry.runTask, hn,
        Channel.trySend_of_hasRoom _ hroom]
      rfl
    · -- the queue is full, so that the receiver has something to receive
      have hfull : s.completions.queue ≠ [] := by
        intro hempty
        refine hroom ⟨h.going.isOpen,?_⟩
        rw [hempty, h.going.capacity]
        exact h.completionCapacity_pos
      refine ⟨.receive,trivial,?_⟩
      simp only [serviceStep, Registry.receive]
      cases hrecv : s.completions.recv with
      | none => exact absurd ((Channel.recv_eq_none_iff _).mp hrecv) hfull
      | some received => rfl
  | unsent =>
    refine ⟨.registry (.run n none),hother (by simp),?_⟩
    simp only [serviceStep, Registry.step, Registry.runTask, hn]
    rfl

/-- While a job is queued the dispatcher can take a step, or a task can. -/
theorem progress_of_job {s : Registry τ α} (h : Sound limits s) (hjobs : s.jobs.queue ≠ []) :
    ∃ i, Progresses s i ∧ (serviceStep owner limits s i).isSome := by
  cases htasks : s.tasks with
  | cons t tasks => exact progress_of_task h (t := t) (by rw [htasks]; simp)
  | nil =>
    cases hdispatcher : s.dispatcher with
    | awaitingPermit =>
      refine ⟨.registry .acquirePermit,trivial,?_⟩
      have hinFlight := h.going.inFlight
      simp only [htasks, hdispatcher, List.length_nil, reduceCtorEq, ↓reduceIte] at hinFlight
      obtain ⟨permits,hpermits⟩ : ∃ permits, s.permits = permits + 1 :=
        Nat.exists_eq_succ_of_ne_zero (by have := h.maxInFlight_pos; omega)
      simp [serviceStep, Registry.step, hdispatcher, hpermits]
    | awaitingJob =>
      refine ⟨.registry .receiveJob,trivial,?_⟩
      cases hrecv : s.jobs.recv with
      | none => exact absurd ((Channel.recv_eq_none_iff _).mp hrecv) hjobs
      | some received => simp [serviceStep, Registry.step, hdispatcher, hrecv]
    | ended => exact absurd (h.going.ended hdispatcher).2 hjobs

/-- Where no step progresses, every accepted operation has completed. -/
theorem completed_of_idle {s : Registry τ α} (h : Sound limits s)
    (hidle : ∀ i, Progresses s i → serviceStep owner limits s i = none) {id : ℕ}
    (hid : id ∈ s.accepted) : completionsOf s.sent id = 1 := by
  have hnone : ¬∃ i, Progresses s i ∧ (serviceStep owner limits s i).isSome := by
    rintro ⟨i,hprogress,hsome⟩
    rw [hidle i hprogress] at hsome
    cases hsome
  have htasks : s.tasks = [] :=
    List.eq_nil_iff_forall_not_mem.mpr (fun _ ht => hnone (progress_of_task h ht))
  have hjobs : s.jobs.queue = [] := by
    by_contra hne
    exact hnone (progress_of_job h hne)
  have hone := (h.tally id).once
  have haccepted := (h.tally id).accepted
  have hpos := List.count_pos_iff.mpr hid
  simp only [htasks, hjobs, h.going.undelivered, jobsOf_nil, tasksOf_nil, List.count_nil]
    at haccepted
  omega

omit [DecidableEq τ] in
theorem Tally.inactive {s : Registry τ α} {id : ℕ} (h : Tally s id)
    (hdone : s.accepted.count id = completionsOf s.sent id)
    (hcalls : callsOf s.submissions false id = 0) : s.active.get id = none := by
  have hactive := h.active
  have haccepted := h.accepted
  cases hget : s.active.get id with
  | none => rfl
  | some operation =>
    rw [hget, present_some] at hactive
    omega

/-- Accepted operations have distinct ids other than zero. Each completes at most once, and
exactly once when the steps of the service itself have come to an end, which they do. A refused
call leaves nothing active, never runs its work and has no completion. -/
theorem operations_complete_once {s : Registry τ α}
    (h : (serviceSystem owner limits).Reachable s) :
    s.accepted.Nodup ∧ 0 ∉ s.accepted ∧
    (∀ id ∈ s.accepted, completionsOf s.sent id ≤ 1) ∧
    (∀ c ∈ s.sent, c.id ∈ s.accepted ∧ s.active.get c.id = none) ∧
    (∀ r ∈ s.refused, completionsOf s.sent r.1 = 0 ∧ r.1 ∉ s.ran ∧ r.1 ∉ s.accepted ∧
      s.active.get r.1 = none) ∧
    (∀ capability timeout e, s.held = true → s.draw limits capability timeout = .error e →
      s.step owner limits (.submit capability timeout) = some s) ∧
    (∀ n s', (serviceSystem owner limits).StepsWhen Progresses n s s' → n ≤ s.work) ∧
    ((∀ i, Progresses s i → serviceStep owner limits s i = none) →
      ∀ id ∈ s.accepted, completionsOf s.sent id = 1) := by
  have hsound := sound_of_reachable h
  refine ⟨?_,?_,?_,?_,?_,?_,?_,?_⟩
  · refine List.nodup_iff_count_le_one.mpr (fun id => ?_)
    have hone := (hsound.tally id).once
    omega
  · intro hzero
    have hpos := List.count_pos_iff.mpr hzero
    have hdrawn := (hsound.tally 0).drawn (Or.inl rfl)
    omega
  · intro id _
    have hone := (hsound.tally id).once
    have haccepted := (hsound.tally id).accepted
    omega
  · intro c hc
    have hpos := completionsOf_pos hc
    have hone := (hsound.tally c.id).once
    have haccepted := (hsound.tally c.id).accepted
    exact ⟨List.count_pos_iff.mp (by omega),(hsound.tally c.id).inactive (by omega) (by omega)⟩
  · intro r hr
    have hpos : 0 < (s.refused.map Prod.fst).count r.1 :=
      List.count_pos_iff.mpr (List.mem_map_of_mem hr)
    have hone := (hsound.tally r.1).once
    have haccepted := (hsound.tally r.1).accepted
    have hran := (hsound.tally r.1).ran
    refine ⟨by omega,?_,?_,(hsound.tally r.1).inactive (by omega) (by omega)⟩
    · intro hmem
      have hcount := List.count_pos_iff.mpr hmem
      omega
    · intro hmem
      have hcount := List.count_pos_iff.mpr hmem
      omega
  · intro capability timeout e hheld hdraw
    simp [Registry.step, hheld, hdraw]
  · intro n s' hsteps
    exact hsteps.length_le Registry.work (fun _ _ _ hp hs => serviceStep_work_lt hp hs)
  · intro hidle id hid
    exact completed_of_idle hsound hidle hid

def notesOwner : OperationOwner := ⟨"org.acme.notes",3,1⟩

/-- Room for one of everything. -/
def singleLimits : OperationLimits := ⟨1,1,1,1,1000⟩

def singleRegistry : Option (Registry Unit ℕ) := (Registry.new singleLimits 0 1).toOption

/-- Two calls of which the second finds the queue full, and the first operation to its end. -/
def twoCalls : List (ServiceLabel Unit ℕ) :=
  [.registry (.submit .storageRead 100),.registry (.insertActive 0),.registry (.trySend 0),
   .registry (.submit .storageRead 100),.registry (.insertActive 0),.registry (.trySend 0),
   .registry (.removeRejected 0),.registry .acquirePermit,.registry .receiveJob,
   .registry (.run 0 none),.registry (.run 0 none),.registry (.run 0 (some (.ok ⟨(),7⟩))),
   .registry (.run 0 none),.registry (.run 0 none),.registry (.run 0 none),.receive]

def afterTwoCalls : Option (Registry Unit ℕ) :=
  singleRegistry.bind (twoCalls.foldlM (serviceStep notesOwner singleLimits))

theorem twoCalls_complete_once :
    ∃ s, afterTwoCalls = some s ∧ s.accepted = [1] ∧ s.refused = [(2,.queueFull)] ∧
      s.sent = [⟨1,notesOwner,.storageRead,.succeeded⟩] ∧ completionsOf s.sent 1 ≤ 1 ∧
      completionsOf s.sent 2 = 0 ∧ 2 ∉ s.ran ∧ s.active.get 2 = none := by
  obtain ⟨s,hs⟩ : ∃ s, afterTwoCalls = some s := ⟨_,rfl⟩
  have haccepted : afterTwoCalls.map Registry.accepted = some [1] := by rfl
  have hrefused : afterTwoCalls.map Registry.refused = some [(2,.queueFull)] := by rfl
  have hsent : afterTwoCalls.map Registry.sent =
      some [⟨1,notesOwner,.storageRead,.succeeded⟩] := by rfl
  rw [hs, Option.map_some, Option.some.injEq] at haccepted hrefused hsent
  obtain ⟨start,hstart,hrun⟩ := Option.bind_eq_some_iff.mp hs
  have hnew := Checked.toOption_eq_some.mp hstart
  have hinit : (serviceSystem notesOwner singleLimits).Reachable start :=
    .of_init ⟨0,1,Nat.one_pos,hnew⟩
  have honce := operations_complete_once (System.reachable_foldlM hinit hrun)
  obtain ⟨-,-,hmost,-,hnever,-⟩ := honce
  obtain ⟨hzero,hran,-,hactive⟩ := hnever (2,.queueFull) (by rw [hrefused]; simp)
  exact ⟨s,hs,haccepted,hrefused,hsent,hmost 1 (by rw [haccepted]; simp),hzero,hran,hactive⟩

end Floatile.Services.Operation
