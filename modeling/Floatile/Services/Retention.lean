import Floatile.Services.Tally

/-! Results kept by the registry: how many, for which completions, and that what has left the
registry once is not kept again. -/
namespace Floatile.Services.Operation

open Floatile.Core.Capability Floatile.Core.Operation
open Floatile.Lib

variable {τ α : Type} {owner : OperationOwner} {limits : OperationLimits}

/-- A terminal state of success vouches for a result that was kept. -/
structure Retention (limits : OperationLimits) (s : Registry τ α) : Prop where
  bounded : s.results.entries.length ≤ limits.maxRetainedResults
  queued : ∀ c ∈ s.completions.queue, c ∈ s.sent
  sent : ∀ c ∈ s.sent, c.terminal = .succeeded → (c.id,c.capability) ∈ s.retained
  tasks : ∀ t ∈ s.tasks, t.phase = .settled .succeeded ∨ t.phase = .sending .succeeded →
    (t.job.id,t.job.capability) ∈ s.retained
  undelivered : ∀ id ∈ s.undelivered, s.results.get id = none

theorem completionsOf_mono {s s' : Registry τ α} {i : RegistryLabel τ α}
    (hstep : RegistryStep owner limits s i s') (id : ℕ) :
    completionsOf s.sent id ≤ completionsOf s'.sent id := by
  cases hstep with
  | send => simp
  | _ => exact le_refl _

/-- Once an operation has left the registry its result does not come back. -/
theorem result_stays_gone {s s' : Registry τ α} {i : RegistryLabel τ α} {id : ℕ}
    (htally : Tally s id) (hstep : RegistryStep owner limits s i s')
    (hleft : 0 < completionsOf s.sent id + s.undelivered.count id)
    (hgone : s.results.get id = none) : s'.results.get id = none := by
  cases hstep with
  | @retain _ _ _ _ job _ htasks =>
    have hne : id ≠ job.id := by
      rintro rfl
      have hone := htally.once
      have haccepted := htally.accepted
      rw [htasks] at haccepted
      simp at haccepted
      omega
    rw [OrdMap.get_insert_of_ne _ hne]
    exact hgone
  | @dropUnsent _ _ _ _ job htasks =>
    rw [OrdMap.get_erase]
    split_ifs
    · rfl
    · exact hgone
  | @take _ _ taken =>
    rw [OrdMap.get_erase]
    split_ifs
    · rfl
    · exact hgone
  | @discard discarded =>
    rw [OrdMap.get_erase]
    split_ifs
    · rfl
    · exact hgone
  | _ => exact hgone

/-- A task that changes its phase without vouching for more. -/
theorem vouched_replace {tasks pre post : List (Task τ α)} {job : OperationJob}
    {phase phase' : TaskPhase τ α} {retained : List (ℕ × CapabilityId)}
    (htasks : tasks = pre ++ ⟨job,phase⟩ :: post)
    (hphase : phase' = .settled .succeeded ∨ phase' = .sending .succeeded →
      (job.id,job.capability) ∈ retained)
    (h : ∀ t ∈ tasks, t.phase = .settled .succeeded ∨ t.phase = .sending .succeeded →
      (t.job.id,t.job.capability) ∈ retained) :
    ∀ t ∈ pre ++ ⟨job,phase'⟩ :: post,
      t.phase = .settled .succeeded ∨ t.phase = .sending .succeeded →
      (t.job.id,t.job.capability) ∈ retained := by
  subst htasks
  rw [List.forall_mem_append, List.forall_mem_cons] at h ⊢
  exact ⟨h.1,hphase,h.2.2⟩

theorem Retention.step {s s' : Registry τ α} {i : RegistryLabel τ α}
    (h : Retention limits s) (htally : ∀ id, Tally s id)
    (hstep : RegistryStep owner limits s i s') : Retention limits s' := by
  have hgone : ∀ id ∈ s.undelivered, s'.results.get id = none := fun id hid =>
    result_stays_gone (htally id) hstep (by have := List.count_pos_iff.mpr hid; omega)
      (h.undelivered id hid)
  obtain ⟨h1,h2,h3,h4,h5⟩ := h
  cases hstep with
  | receiveJob =>
    refine ⟨h1,h2,h3,?_,hgone⟩
    rw [List.forall_mem_append]
    exact ⟨h4,by simp⟩
  | start htasks hphase =>
    exact ⟨h1,h2,h3,vouched_replace htasks (by rcases hphase with rfl | rfl <;> simp) h4,hgone⟩
  | observeCancel htasks => exact ⟨h1,h2,h3,vouched_replace htasks (by simp) h4,hgone⟩
  | @poll _ poll _ _ job _ _ htasks =>
    refine ⟨h1,h2,h3,vouched_replace htasks ?_ h4,hgone⟩
    cases poll with
    | some result => simp [Registry.pollUntil]
    | none =>
      unfold Registry.pollUntil
      split_ifs <;> simp
  | settle htasks => exact ⟨h1,h2,h3,vouched_replace htasks (by simp) h4,hgone⟩
  | @retain _ _ _ _ job value htasks hroom =>
    refine ⟨?_,h2,fun c hc hterminal => List.mem_cons_of_mem _ (h3 c hc hterminal),
      vouched_replace htasks (fun _ => List.mem_cons_self)
        (fun t ht hphase => List.mem_cons_of_mem _ (h4 t ht hphase)),hgone⟩
    have hlength := s.results.length_insert_le job.id ⟨job.capability,value⟩
    simp only
    omega
  | @deactivate _ _ _ _ job terminal htasks =>
    refine ⟨h1,h2,h3,vouched_replace htasks ?_ h4,hgone⟩
    intro hterminal
    have hsettled : terminal = .succeeded := by simpa using hterminal
    exact h4 ⟨job,.settled terminal⟩ (by rw [htasks]; simp) (Or.inl (by rw [hsettled]))
  | @send _ _ _ _ job terminal _ htasks hqueue =>
    have hvouched := h4 ⟨job,.sending terminal⟩ (by rw [htasks]; simp)
    refine ⟨h1,?_,?_,?_,hgone⟩
    · intro c hc
      rw [hqueue, List.mem_append, List.mem_singleton] at hc
      rcases hc with hc | rfl
      · exact List.mem_cons_of_mem _ (h2 c hc)
      · exact List.mem_cons_self
    · rw [List.forall_mem_cons]
      exact ⟨fun hterminal => hvouched (Or.inr (by rw [← hterminal])),h3⟩
    · rw [htasks, List.forall_mem_append, List.forall_mem_cons] at h4
      rw [List.forall_mem_append]
      exact ⟨h4.1,h4.2.2⟩
  | closed htasks => exact ⟨h1,h2,h3,vouched_replace htasks (by simp) h4,hgone⟩
  | @dropUnsent _ _ _ _ job htasks =>
    refine ⟨(s.results.length_erase_le job.id).trans h1,h2,h3,?_,?_⟩
    · rw [htasks, List.forall_mem_append, List.forall_mem_cons] at h4
      rw [List.forall_mem_append]
      exact ⟨h4.1,h4.2.2⟩
    · rw [List.forall_mem_cons]
      exact ⟨OrdMap.get_erase_self _ _,hgone⟩
  | @take _ _ id => exact ⟨(s.results.length_erase_le id).trans h1,h2,h3,h4,hgone⟩
  | @discard id => exact ⟨(s.results.length_erase_le id).trans h1,h2,h3,h4,hgone⟩
  | _ => exact ⟨h1,h2,h3,h4,hgone⟩

theorem retention_new {now counter : ℕ} {s : Registry τ α}
    (h : Registry.new limits now counter = .ok s) : Retention limits s := by
  unfold Registry.new OperationLimits.validate at h
  split_ifs at h
  · cases h
  · cases h
    refine ⟨Nat.zero_le _,?_,?_,?_,?_⟩ <;> simp

end Floatile.Services.Operation
