import Floatile.Lib.Pool
import Floatile.Services.Operation

/-! What one step of the registry can do, with the operation it concerns singled out. -/
namespace Floatile.Services.Operation

open Floatile.Core.Capability Floatile.Core.Operation
open Floatile.Lib

variable {τ α : Type} [DecidableEq τ] (owner : OperationOwner) (limits : OperationLimits)

/-- The steps of the registry. -/
inductive RegistryStep (s : Registry τ α) : RegistryLabel τ α → Registry τ α → Prop where
  | tick : RegistryStep s .tick { s with now := s.now + 1 }
  | drawElsewhere {counter : ℕ} (hcounter : s.nextId ≤ counter) :
      RegistryStep s .drawElsewhere { s with nextId := counter }
  | draw {capability : CapabilityId} {timeout : ℕ} (hheld : s.held = true) :
      RegistryStep s (.submit capability timeout) { s with
        nextId := s.nextId + 1
        submissions := ⟨⟨s.nextId,capability,s.now + timeout⟩,.allocated⟩ :: s.submissions }
  | refuse {capability : CapabilityId} {timeout : ℕ} :
      RegistryStep s (.submit capability timeout) s
  | insertActive {n : ℕ} {pre post : List Submission} {job : OperationJob}
      (hsubmissions : s.submissions = pre ++ ⟨job,.allocated⟩ :: post) :
      RegistryStep s (.insertActive n) { s with
        active := s.active.insert job.id ⟨job.capability⟩
        submissions := pre ++ ⟨job,.inserted⟩ :: post }
  | enqueue {n : ℕ} {pre post : List Submission} {job : OperationJob}
      {jobs : Channel OperationJob}
      (hsubmissions : s.submissions = pre ++ ⟨job,.inserted⟩ :: post)
      (hopen : s.jobs.isOpen = true) (hjobs : jobs.queue = s.jobs.queue ++ [job])
      (hjobsOpen : jobs.isOpen = s.jobs.isOpen) :
      RegistryStep s (.trySend n) { s with
        jobs := jobs
        submissions := pre ++ post
        accepted := job.id :: s.accepted }
  | reject {n : ℕ} {pre post : List Submission} {job : OperationJob}
      {error : OperationSubmitError}
      (hsubmissions : s.submissions = pre ++ ⟨job,.inserted⟩ :: post) :
      RegistryStep s (.trySend n) { s with submissions := pre ++ ⟨job,.rejected error⟩ :: post }
  | removeRejected {n : ℕ} {pre post : List Submission} {job : OperationJob}
      {error : OperationSubmitError}
      (hsubmissions : s.submissions = pre ++ ⟨job,.rejected error⟩ :: post) :
      RegistryStep s (.removeRejected n) { s with
        active := s.active.erase job.id
        submissions := pre ++ post
        refused := (job.id,error) :: s.refused }
  | cancel {capability : CapabilityId} {id : ℕ} {cancelled : List ℕ} :
      RegistryStep s (.cancel capability id) { s with cancelled := cancelled }
  | cancelAll {cancelled : List ℕ} : RegistryStep s .cancelAll { s with cancelled := cancelled }
  | dropRegistry (hidle : s.submissions = []) :
      RegistryStep s .dropRegistry { s with held := false }
  | acquirePermit {permits : ℕ} (hdispatcher : s.dispatcher = .awaitingPermit)
      (hpermits : s.permits = permits + 1) :
      RegistryStep s .acquirePermit { s with dispatcher := .awaitingJob, permits := permits }
  | receiveJob {job : OperationJob} {jobs : Channel OperationJob}
      (hdispatcher : s.dispatcher = .awaitingJob) (hjobs : s.jobs.queue = job :: jobs.queue)
      (hjobsOpen : jobs.isOpen = s.jobs.isOpen) :
      RegistryStep s .receiveJob { s with
        jobs := jobs
        dispatcher := .awaitingPermit
        tasks := s.tasks ++ [⟨job,.spawned⟩] }
  | endDispatch (hdispatcher : s.dispatcher = .awaitingJob) (hjobs : s.jobs.queue = [])
      (hheld : s.held = false) :
      RegistryStep s .receiveJob { s with
        jobs := s.jobs.close
        dispatcher := .ended
        permits := s.permits + 1 }
  | start {n : ℕ} {poll : Option (Except OperationFailure (ErasedValue τ α))}
      {pre post : List (Task τ α)} {job : OperationJob} {phase : TaskPhase τ α}
      (htasks : s.tasks = pre ++ ⟨job,.spawned⟩ :: post)
      (hphase : phase = .finished (.error .timeout) ∨ phase = .selecting) :
      RegistryStep s (.run n poll) { s with tasks := pre ++ ⟨job,phase⟩ :: post }
  | observeCancel {n : ℕ} {poll : Option (Except OperationFailure (ErasedValue τ α))}
      {pre post : List (Task τ α)} {job : OperationJob}
      (htasks : s.tasks = pre ++ ⟨job,.selecting⟩ :: post) :
      RegistryStep s (.run n poll)
        { s with tasks := pre ++ ⟨job,.finished (.error .cancelled)⟩ :: post }
  | poll {n : ℕ} {poll : Option (Except OperationFailure (ErasedValue τ α))}
      {pre post : List (Task τ α)} {job : OperationJob}
      (htask : s.tasks[n]? = some ⟨job,.selecting⟩) (hcancelled : job.id ∉ s.cancelled)
      (htasks : s.tasks = pre ++ ⟨job,.selecting⟩ :: post) :
      RegistryStep s (.run n poll) { s with
        ran := job.id :: s.ran
        tasks := pre ++ ⟨job,Registry.pollUntil s.now job.deadline poll⟩ :: post }
  | settle {n : ℕ} {poll : Option (Except OperationFailure (ErasedValue τ α))}
      {pre post : List (Task τ α)} {job : OperationJob} {failure : OperationFailure}
      {result : Except OperationFailure (ErasedValue τ α)}
      (htasks : s.tasks = pre ++ ⟨job,.finished result⟩ :: post) :
      RegistryStep s (.run n poll)
        { s with tasks := pre ++ ⟨job,.settled (.failed failure)⟩ :: post }
  | retain {n : ℕ} {poll : Option (Except OperationFailure (ErasedValue τ α))}
      {pre post : List (Task τ α)} {job : OperationJob} {value : ErasedValue τ α}
      (htasks : s.tasks = pre ++ ⟨job,.finished (.ok value)⟩ :: post)
      (hroom : s.results.entries.length < limits.maxRetainedResults) :
      RegistryStep s (.run n poll) { s with
        results := s.results.insert job.id ⟨job.capability,value⟩
        retained := (job.id,job.capability) :: s.retained
        tasks := pre ++ ⟨job,.settled .succeeded⟩ :: post }
  | deactivate {n : ℕ} {poll : Option (Except OperationFailure (ErasedValue τ α))}
      {pre post : List (Task τ α)} {job : OperationJob} {terminal : OperationTerminal}
      (htasks : s.tasks = pre ++ ⟨job,.settled terminal⟩ :: post) :
      RegistryStep s (.run n poll) { s with
        active := s.active.erase job.id
        tasks := pre ++ ⟨job,.sending terminal⟩ :: post }
  | send {n : ℕ} {poll : Option (Except OperationFailure (ErasedValue τ α))}
      {pre post : List (Task τ α)} {job : OperationJob} {terminal : OperationTerminal}
      {completions : Channel OperationCompletion}
      (htasks : s.tasks = pre ++ ⟨job,.sending terminal⟩ :: post)
      (hqueue : completions.queue =
        s.completions.queue ++ [⟨job.id,owner,job.capability,terminal⟩])
      (hopen : completions.isOpen = s.completions.isOpen)
      (hcapacity : completions.capacity = s.completions.capacity) :
      RegistryStep s (.run n poll) { s with
        completions := completions
        sent := ⟨job.id,owner,job.capability,terminal⟩ :: s.sent
        tasks := pre ++ post
        permits := s.permits + 1 }
  | closed {n : ℕ} {poll : Option (Except OperationFailure (ErasedValue τ α))}
      {pre post : List (Task τ α)} {job : OperationJob} {terminal : OperationTerminal}
      (htasks : s.tasks = pre ++ ⟨job,.sending terminal⟩ :: post)
      (hclosed : s.completions.isOpen = false) :
      RegistryStep s (.run n poll) { s with tasks := pre ++ ⟨job,.unsent⟩ :: post }
  | dropUnsent {n : ℕ} {poll : Option (Except OperationFailure (ErasedValue τ α))}
      {pre post : List (Task τ α)} {job : OperationJob}
      (htasks : s.tasks = pre ++ ⟨job,.unsent⟩ :: post) :
      RegistryStep s (.run n poll) { s with
        results := s.results.erase job.id
        undelivered := job.id :: s.undelivered
        tasks := pre ++ post
        permits := s.permits + 1 }
  | takeFail {capability : CapabilityId} {typeId : τ} {id : ℕ} :
      RegistryStep s (.take capability typeId id) s
  | take {capability : CapabilityId} {typeId : τ} {id : ℕ} {result : StoredResult τ α}
      (hresult : s.results.get id = some result) :
      RegistryStep s (.take capability typeId id) { s with
        results := s.results.erase id
        taken := id :: s.taken }
  | discard {id : ℕ} : RegistryStep s (.discard id) { s with results := s.results.erase id }

namespace Registry

/-- Taking fails and changes nothing, or it removes a stored result of that capability. -/
theorem take_cases (s : Registry τ α) (capability : CapabilityId) (typeId : τ) (id : ℕ) :
    (∃ e, s.take capability typeId id = (.error e,s)) ∨
    ∃ result, s.results.get id = some result ∧ result.capability = capability ∧
      s.take capability typeId id = (.ok result.value.value,
        { s with results := s.results.erase id, taken := id :: s.taken }) := by
  cases hresult : s.results.get id with
  | none => exact Or.inl ⟨.notAvailable,by simp [take, takeResult, hresult]⟩
  | some result =>
    have hback : (s.results.erase id).insert id result = s.results :=
      s.results.insert_erase hresult
    by_cases hcapability : result.capability = capability
    · by_cases htype : result.value.typeId = typeId
      · exact Or.inr ⟨result,rfl,hcapability,
          by simp [take, takeResult, hresult, hcapability, htype]⟩
      · subst hcapability
        exact Or.inl ⟨.typeMismatch,by simp [take, takeResult, hresult, htype, hback]⟩
    · exact Or.inl ⟨.capabilityMismatch,
        by simp [take, takeResult, hresult, hcapability, hback]⟩

variable {owner limits}

omit [DecidableEq τ] in
theorem runTask_cases {s s' : Registry τ α} {n : ℕ}
    {poll : Option (Except OperationFailure (ErasedValue τ α))}
    (h : runTask owner limits s n poll = some s') :
    RegistryStep owner limits s (.run n poll) s' := by
  unfold runTask at h
  split at h
  · cases h
  · next job htask =>
    obtain ⟨pre,post,htasks,hset,-⟩ := Pool.exists_split htask
    split_ifs at h <;> cases h <;> rw [hset]
    · exact .start htasks (Or.inl rfl)
    · exact .start htasks (Or.inr rfl)
  · next job htask =>
    obtain ⟨pre,post,htasks,hset,-⟩ := Pool.exists_split htask
    split_ifs at h with hcancelled <;> cases h <;> rw [hset]
    · exact .observeCancel htasks
    · exact .poll htask hcancelled htasks
  · next job result htask =>
    obtain ⟨pre,post,htasks,hset,-⟩ := Pool.exists_split htask
    cases result with
    | error failure =>
      cases h
      simp only [hset]
      exact .settle htasks
    | ok value =>
      simp only [Registry.settle] at h
      split_ifs at h with hfull <;> cases h <;> simp only [hset]
      · exact .settle htasks
      · exact .retain htasks (not_le.mp hfull)
  · next job terminal htask =>
    obtain ⟨pre,post,htasks,hset,-⟩ := Pool.exists_split htask
    cases h
    rw [hset]
    exact .deactivate htasks
  · next job terminal htask =>
    obtain ⟨pre,post,htasks,hset,herase⟩ := Pool.exists_split htask
    dsimp only at h
    split at h
    · next completions hsend =>
      obtain ⟨-,hqueue,hopen,hcapacity⟩ := Channel.trySend_eq_ok hsend
      cases h
      rw [herase]
      exact .send htasks hqueue hopen hcapacity
    · cases h
    · next hsend =>
      cases h
      rw [hset]
      exact .closed htasks ((Channel.trySend_eq_error hsend).2.mp rfl)
  · next job htask =>
    obtain ⟨pre,post,htasks,-,herase⟩ := Pool.exists_split htask
    cases h
    rw [herase]
    exact .dropUnsent htasks

/-- Every step of the registry is one of those listed. -/
theorem step_cases {s s' : Registry τ α} {i : RegistryLabel τ α}
    (h : step owner limits s i = some s') : RegistryStep owner limits s i s' := by
  cases i with
  | tick =>
    cases h
    exact .tick
  | drawElsewhere =>
    simp only [step, nextOperationId] at h
    split_ifs at h <;> cases h
    · exact .drawElsewhere (le_refl _)
    · exact .drawElsewhere (Nat.le_succ _)
  | submit capability timeout =>
    simp only [step, draw, nextOperationId] at h
    split_ifs at h <;> cases h
    · exact .refuse
    · exact .refuse
    · exact .refuse
    · exact .draw ‹_›
  | insertActive n =>
    simp only [step] at h
    split at h
    · next job hsubmission =>
      obtain ⟨pre,post,hsubmissions,hset,-⟩ := Pool.exists_split hsubmission
      cases h
      rw [hset]
      exact .insertActive hsubmissions
    · cases h
  | trySend n =>
    simp only [step] at h
    split at h
    · next job hsubmission =>
      obtain ⟨pre,post,hsubmissions,hset,herase⟩ := Pool.exists_split hsubmission
      split at h
      · next jobs hsend =>
        obtain ⟨⟨hopen,-⟩,hjobs,hjobsOpen,-⟩ := Channel.trySend_eq_ok hsend
        cases h
        rw [herase]
        exact .enqueue hsubmissions hopen hjobs hjobsOpen
      · cases h
        rw [hset]
        exact .reject hsubmissions
      · cases h
        rw [hset]
        exact .reject hsubmissions
    · cases h
  | removeRejected n =>
    simp only [step] at h
    split at h
    · next job error hsubmission =>
      obtain ⟨pre,post,hsubmissions,-,herase⟩ := Pool.exists_split hsubmission
      cases h
      rw [herase]
      exact .removeRejected hsubmissions
    · cases h
  | cancel capability id =>
    simp only [step, cancel] at h
    split_ifs at h
    split at h <;> [skip; split_ifs at h] <;> cases h <;> exact .cancel
  | cancelAll =>
    simp only [step, cancelAll] at h
    split_ifs at h
    cases h
    exact .cancelAll
  | dropRegistry =>
    simp only [step] at h
    split_ifs at h with hidle
    cases h
    exact .dropRegistry hidle
  | acquirePermit =>
    simp only [step] at h
    split at h
    · next permits hdispatcher hpermits =>
      cases h
      exact .acquirePermit hdispatcher hpermits
    · cases h
  | receiveJob =>
    simp only [step] at h
    split at h
    · next hdispatcher =>
      split at h
      · next job jobs hrecv =>
        obtain ⟨hjobs,hopen,-⟩ := Channel.queue_of_recv hrecv
        cases h
        exact .receiveJob hdispatcher hjobs hopen
      · next hrecv =>
        split_ifs at h with hheld
        cases h
        exact .endDispatch hdispatcher ((Channel.recv_eq_none_iff _).mp hrecv) (by simpa using hheld)
    · cases h
  | run n poll => exact runTask_cases h
  | take capability typeId id =>
    simp only [step] at h
    split_ifs at h
    rcases take_cases s capability typeId id with ⟨e,htake⟩ | ⟨result,hresult,-,htake⟩
    · rw [htake] at h
      cases h
      exact .takeFail
    · rw [htake] at h
      cases h
      exact .take hresult
  | discard id =>
    cases h
    exact .discard

end Registry

end Floatile.Services.Operation
