import Floatile.Services.OperationStep

/-! Every id is accounted for in one place on its way from the call that draws it to the
completion that is sent, together with what is kept under it. -/
namespace Floatile.Services.Operation

open Floatile.Core.Capability Floatile.Core.Operation
open Floatile.Lib

variable {τ α : Type}

/-- Tasks before the result is kept, after it, and after the operation left the active ones. -/
inductive TaskStage where
  | early
  | settled
  | closing
  deriving DecidableEq

def TaskPhase.stage : TaskPhase τ α → TaskStage
  | .spawned => .early
  | .selecting => .early
  | .finished _ => .early
  | .settled _ => .settled
  | .sending _ => .closing
  | .unsent => .closing

@[simp] theorem stage_spawned : (TaskPhase.spawned : TaskPhase τ α).stage = .early := rfl
@[simp] theorem stage_selecting : (TaskPhase.selecting : TaskPhase τ α).stage = .early := rfl
@[simp] theorem stage_finished (result : Except OperationFailure (ErasedValue τ α)) :
    (TaskPhase.finished result).stage = .early := rfl
@[simp] theorem stage_settled (terminal : OperationTerminal) :
    (TaskPhase.settled terminal : TaskPhase τ α).stage = .settled := rfl
@[simp] theorem stage_sending (terminal : OperationTerminal) :
    (TaskPhase.sending terminal : TaskPhase τ α).stage = .closing := rfl
@[simp] theorem stage_unsent : (TaskPhase.unsent : TaskPhase τ α).stage = .closing := rfl

def SubmitPhase.isAllocated : SubmitPhase → Bool
  | .allocated => true
  | _ => false

@[simp] theorem isAllocated_allocated : SubmitPhase.allocated.isAllocated = true := rfl
@[simp] theorem isAllocated_inserted : SubmitPhase.inserted.isAllocated = false := rfl
@[simp] theorem isAllocated_rejected (error : OperationSubmitError) :
    (SubmitPhase.rejected error).isAllocated = false := rfl

/-- Calls of `submit` for an id that have, or have not yet, made it active. -/
def callsOf (calls : List Submission) (allocated : Bool) (id : ℕ) : ℕ :=
  calls.countP (fun x => x.phase.isAllocated = allocated ∧ x.job.id = id)

def tasksOf (tasks : List (Task τ α)) (stage : TaskStage) (id : ℕ) : ℕ :=
  tasks.countP (fun t => t.phase.stage = stage ∧ t.job.id = id)

def jobsOf (jobs : List OperationJob) (id : ℕ) : ℕ := jobs.countP (fun job => job.id = id)

def completionsOf (completions : List OperationCompletion) (id : ℕ) : ℕ :=
  completions.countP (fun c => c.id = id)

def present {β : Type} : Option β → ℕ
  | none => 0
  | some _ => 1

@[simp] theorem present_none {β : Type} : present (none : Option β) = 0 := rfl
@[simp] theorem present_some {β : Type} (b : β) : present (some b) = 1 := rfl

@[simp] theorem callsOf_nil (b : Bool) (id : ℕ) : callsOf [] b id = 0 := rfl
@[simp] theorem callsOf_append (xs ys : List Submission) (b : Bool) (id : ℕ) :
    callsOf (xs ++ ys) b id = callsOf xs b id + callsOf ys b id := List.countP_append
@[simp] theorem callsOf_cons (x : Submission) (xs : List Submission) (b : Bool) (id : ℕ) :
    callsOf (x :: xs) b id = callsOf xs b id +
      if x.phase.isAllocated = b ∧ x.job.id = id then 1 else 0 := by
  simp [callsOf, List.countP_cons]
@[simp] theorem tasksOf_nil (st : TaskStage) (id : ℕ) : tasksOf ([] : List (Task τ α)) st id = 0 := rfl
@[simp] theorem tasksOf_append (xs ys : List (Task τ α)) (st : TaskStage) (id : ℕ) :
    tasksOf (xs ++ ys) st id = tasksOf xs st id + tasksOf ys st id := List.countP_append
@[simp] theorem tasksOf_cons (x : Task τ α) (xs : List (Task τ α)) (st : TaskStage) (id : ℕ) :
    tasksOf (x :: xs) st id = tasksOf xs st id +
      if x.phase.stage = st ∧ x.job.id = id then 1 else 0 := by
  simp [tasksOf, List.countP_cons]
@[simp] theorem jobsOf_nil (id : ℕ) : jobsOf [] id = 0 := rfl
@[simp] theorem jobsOf_append (xs ys : List OperationJob) (id : ℕ) :
    jobsOf (xs ++ ys) id = jobsOf xs id + jobsOf ys id := List.countP_append
@[simp] theorem jobsOf_cons (x : OperationJob) (xs : List OperationJob) (id : ℕ) :
    jobsOf (x :: xs) id = jobsOf xs id + if x.id = id then 1 else 0 := by
  simp [jobsOf, List.countP_cons]
@[simp] theorem completionsOf_nil (id : ℕ) : completionsOf [] id = 0 := rfl
@[simp] theorem completionsOf_cons (x : OperationCompletion) (xs : List OperationCompletion)
    (id : ℕ) : completionsOf (x :: xs) id = completionsOf xs id + if x.id = id then 1 else 0 := by
  simp [completionsOf, List.countP_cons]

theorem completionsOf_pos {completions : List OperationCompletion} {c : OperationCompletion}
    (h : c ∈ completions) : 0 < completionsOf completions c.id :=
  List.countP_pos_iff.mpr ⟨c,h,by simp⟩

/-- Where the operation with an id is. -/
structure Tally (s : Registry τ α) (id : ℕ) : Prop where
  once : callsOf s.submissions true id + callsOf s.submissions false id +
    (s.refused.map Prod.fst).count id + s.accepted.count id ≤ 1
  drawn : id = 0 ∨ s.nextId ≤ id → callsOf s.submissions true id +
    callsOf s.submissions false id + (s.refused.map Prod.fst).count id + s.accepted.count id = 0
  next_pos : 0 < s.nextId
  accepted : s.accepted.count id = jobsOf s.jobs.queue id + tasksOf s.tasks .early id +
    tasksOf s.tasks .settled id + tasksOf s.tasks .closing id + completionsOf s.sent id +
    s.undelivered.count id
  active : present (s.active.get id) ≤ callsOf s.submissions false id +
    jobsOf s.jobs.queue id + tasksOf s.tasks .early id + tasksOf s.tasks .settled id
  ran : min 1 (s.ran.count id) + jobsOf s.jobs.queue id ≤ s.accepted.count id
  retained : (s.retained.map Prod.fst).count id ≤ tasksOf s.tasks .settled id +
    tasksOf s.tasks .closing id + completionsOf s.sent id + s.undelivered.count id
  taken : s.taken.count id + present (s.results.get id) ≤ (s.retained.map Prod.fst).count id

theorem present_insert {β : Type} (m : OrdMap ℕ β) (k id : ℕ) (a : β) :
    present ((m.insert k a).get id) = if k = id then 1 else present (m.get id) := by
  rw [OrdMap.get_insert]
  by_cases h : k = id
  · simp [h, present]
  · simp [h, Ne.symm h]

theorem present_erase {β : Type} (m : OrdMap ℕ β) (k id : ℕ) :
    present ((m.erase k).get id) = if k = id then 0 else present (m.get id) := by
  rw [OrdMap.get_erase]
  by_cases h : k = id
  · simp [h, present]
  · simp [h, Ne.symm h]

variable {owner : OperationOwner} {limits : OperationLimits}

theorem Tally.step {s s' : Registry τ α} {i : RegistryLabel τ α} {id : ℕ} (h : Tally s id)
    (hstep : RegistryStep owner limits s i s') : Tally s' id := by
  obtain ⟨h1,h2,h3,h4,h5,h6,h7,h8⟩ := h
  cases hstep with
  | tick => exact ⟨h1,h2,h3,h4,h5,h6,h7,h8⟩
  | drawElsewhere hcounter =>
    exact ⟨h1,fun h => h2 (h.imp_right hcounter.trans),h3.trans_le hcounter,h4,h5,h6,h7,h8⟩
  | draw hheld =>
    by_cases hid : s.nextId = id <;>
      constructor <;> simp [hid] <;> omega
  | refuse => exact ⟨h1,h2,h3,h4,h5,h6,h7,h8⟩
  | @insertActive _ _ _ job hsubmissions =>
    by_cases hid : job.id = id <;>
      simp [hsubmissions, hid] at h1 h2 h5 <;>
      constructor <;> simp [present_insert, hid] <;> omega
  | @enqueue _ _ _ job _ hsubmissions hopen hjobs hjobsOpen =>
    by_cases hid : job.id = id <;>
      simp [hsubmissions, hid] at h1 h2 h5 <;>
      constructor <;> simp [hjobs, hid] <;> omega
  | @reject _ _ _ job _ hsubmissions =>
    by_cases hid : job.id = id <;>
      simp [hsubmissions, hid] at h1 h2 h5 <;>
      constructor <;> simp [hid] <;> omega
  | @removeRejected _ _ _ job _ hsubmissions =>
    by_cases hid : job.id = id <;>
      simp [hsubmissions, hid] at h1 h2 h5 <;>
      constructor <;> simp [present_erase, hid] <;> omega
  | cancel => exact ⟨h1,h2,h3,h4,h5,h6,h7,h8⟩
  | cancelAll => exact ⟨h1,h2,h3,h4,h5,h6,h7,h8⟩
  | dropRegistry => exact ⟨h1,h2,h3,h4,h5,h6,h7,h8⟩
  | acquirePermit => exact ⟨h1,h2,h3,h4,h5,h6,h7,h8⟩
  | @receiveJob job _ hdispatcher hjobs =>
    by_cases hid : job.id = id <;>
      simp [hjobs, hid] at h4 h5 h6 <;>
      constructor <;> simp [hid] <;> omega
  | endDispatch hdispatcher hjobs =>
    rw [hjobs] at h4 h5 h6
    exact ⟨h1,h2,h3,h4,h5,h6,h7,h8⟩
  | @start _ _ _ _ job _ htasks hphase =>
    rcases hphase with rfl | rfl <;> by_cases hid : job.id = id <;>
      simp [htasks, hid] at h4 h5 h7 <;>
      constructor <;> simp [hid] <;> omega
  | @poll _ poll _ _ job htask hcancelled htasks =>
    have hstage : (Registry.pollUntil s.now job.deadline poll).stage = .early := by
      cases poll with
      | some result => rfl
      | none =>
        unfold Registry.pollUntil
        split_ifs <;> rfl
    by_cases hid : job.id = id <;>
      simp [htasks, hid] at h4 h5 h7 <;>
      constructor <;> simp [hstage, hid] <;> omega
  | @observeCancel _ _ _ _ job htasks =>
    by_cases hid : job.id = id <;>
      simp [htasks, hid] at h4 h5 h7 <;>
      constructor <;> simp [hid] <;> omega
  | @settle _ _ _ _ job _ _ htasks =>
    by_cases hid : job.id = id <;>
      simp [htasks, hid] at h4 h5 h7 <;>
      constructor <;> simp [hid] <;> omega
  | @retain _ _ _ _ job _ htasks =>
    by_cases hid : job.id = id <;>
      simp [htasks, hid] at h4 h5 h7 <;>
      constructor <;> simp [present_insert, hid] <;> omega
  | @deactivate _ _ _ _ job _ htasks =>
    by_cases hid : job.id = id <;>
      simp [htasks, hid] at h4 h5 h7 <;>
      constructor <;> simp [present_erase, hid] <;> omega
  | @send _ _ _ _ job _ _ htasks =>
    by_cases hid : job.id = id <;>
      simp [htasks, hid] at h4 h5 h7 <;>
      constructor <;> simp [hid] <;> omega
  | @closed _ _ _ _ job _ htasks =>
    by_cases hid : job.id = id <;>
      simp [htasks, hid] at h4 h5 h7 <;>
      constructor <;> simp [hid] <;> omega
  | @dropUnsent _ _ _ _ job htasks =>
    by_cases hid : job.id = id <;>
      simp [htasks, hid] at h4 h5 h7 <;>
      constructor <;> simp [present_erase, hid] <;> omega
  | takeFail => exact ⟨h1,h2,h3,h4,h5,h6,h7,h8⟩
  | @take _ _ taken result hresult =>
    have hpresent : present (s.results.get taken) = 1 := by rw [hresult, present_some]
    by_cases hid : taken = id
    · subst hid
      constructor <;> simp <;> omega
    · constructor <;> simp [present_erase, hid] <;> omega
  | @discard discarded =>
    by_cases hid : discarded = id <;>
    constructor <;> simp [present_erase, hid] <;> omega

theorem tally_new {now counter : ℕ} {s : Registry τ α} (hcounter : 0 < counter)
    (h : Registry.new limits now counter = .ok s) (id : ℕ) : Tally s id := by
  unfold Registry.new OperationLimits.validate at h
  split_ifs at h
  · cases h
  · cases h
    constructor <;> simp [hcounter]

end Floatile.Services.Operation
