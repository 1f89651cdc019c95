import Floatile.Shell.Supervisor

/-! No session survives a snapshot that does not run its instance, as long as no retry comes
between the last snapshot that ran a live instance and the one that no longer does. -/
namespace Floatile.Shell

open Floatile.Core Floatile.Lib Floatile.Lib.Transition

section Plan

variable {Config : Type} [DecidableEq Config]

/-- A snapshot has the instance with the desired state running. -/
def Running (snapshot : Snapshot Config) (id : ℕ) : Prop :=
  ∃ e ∈ snapshot, e.1 = id ∧ e.2.desiredState = .running

instance (snapshot : Snapshot Config) (id : ℕ) : Decidable (Running snapshot id) :=
  inferInstanceAs (Decidable (∃ e ∈ snapshot, e.1 = id ∧ e.2.desiredState = .running))

omit [DecidableEq Config] in
theorem running_of_ne_stopped {snapshot : Snapshot Config} {e : ℕ × InstanceRow Config}
    (hmem : e ∈ snapshot) (hstate : e.2.desiredState ≠ .stopped) : Running snapshot e.1 := by
  refine ⟨e,hmem,rfl,?_⟩
  cases h : e.2.desiredState with
  | stopped => exact absurd h hstate
  | running => rfl

/-- What planning for one instance adds to a plan. -/
structure PlanStep (known : Known Config) (entry : ℕ × InstanceRow Config)
    (plan plan' : List (DesiredAction Config) × Known Config) : Prop where
  keeps : ∀ a ∈ plan.1, a ∈ plan'.1
  starts : ∀ id row, .start id row ∈ plan'.1 →
    .start id row ∈ plan.1 ∨ id = entry.1 ∧ entry.2.desiredState ≠ .stopped
  stops : entry.2.desiredState = .stopped → (known.get entry.1).isSome → .stop entry.1 ∈ plan'.1
  remembers : ∀ id, (plan.2.get id).isSome → (plan'.2.get id).isSome
  learns : entry.2.desiredState ≠ .stopped → (plan'.2.get entry.1).isSome

theorem planInstance_spec (known : Known Config) (entry : ℕ × InstanceRow Config)
    (plan : List (DesiredAction Config) × Known Config) :
    PlanStep known entry plan (planInstance known plan entry) := by
  obtain ⟨actions,next⟩ := plan
  obtain ⟨id,row⟩ := entry
  have hkeeps : ∀ i, (next.get i).isSome → ((next.insert id row.fingerprint).get i).isSome := by
    intro i hi
    rw [OrdMap.get_insert]
    split_ifs
    · rfl
    · exact hi
  unfold planInstance
  simp only
  split_ifs with hstopped hknown hnew hknown
  · exact ⟨fun _ h => List.mem_append_left _ h,fun _ _ h => Or.inl (by simpa using h),
      fun _ _ => by simp,fun _ h => h,fun h => absurd hstopped h⟩
  · exact ⟨fun _ h => h,fun _ _ h => Or.inl h,fun _ h => absurd h hknown,fun _ h => h,
      fun h => absurd hstopped h⟩
  · refine ⟨fun _ h => by simp [h],fun i r h => ?_,fun h => absurd h hstopped,hkeeps,by simp⟩
    have hstart : DesiredAction.start i r ∈ actions ∨ i = id ∧ r = row := by simpa using h
    exact hstart.imp_right (fun h => ⟨h.1,hstopped⟩)
  · refine ⟨fun _ h => by simp [h],fun i r h => ?_,fun h => absurd h hstopped,hkeeps,by simp⟩
    have hstart : DesiredAction.start i r ∈ actions ∨ i = id ∧ r = row := by simpa using h
    exact hstart.imp_right (fun h => ⟨h.1,hstopped⟩)
  · exact ⟨fun _ h => h,fun _ _ h => Or.inl h,fun h => absurd h hstopped,hkeeps,by simp⟩

/-- What planning for a list of instances adds to a plan. -/
theorem planInstances_spec (known : Known Config) (instances : Snapshot Config)
    (plan : List (DesiredAction Config) × Known Config) :
    let plan' := instances.foldl (planInstance known) plan
    (∀ a ∈ plan.1, a ∈ plan'.1) ∧
    (∀ id row, .start id row ∈ plan'.1 → .start id row ∈ plan.1 ∨ Running instances id) ∧
    (∀ e ∈ instances, e.2.desiredState = .stopped → (known.get e.1).isSome →
      .stop e.1 ∈ plan'.1) ∧
    (∀ id, (plan.2.get id).isSome → (plan'.2.get id).isSome) ∧
    (∀ id, Running instances id → (plan'.2.get id).isSome) := by
  induction instances generalizing plan with
  | nil => exact ⟨fun _ h => h,fun _ _ h => Or.inl h,by simp,fun _ h => h,by simp [Running]⟩
  | cons entry instances ih =>
    have hone := planInstance_spec known entry plan
    obtain ⟨hkeeps,hstarts,hstops,hremembers,hlearns⟩ := ih (planInstance known plan entry)
    refine ⟨fun a h => hkeeps a (hone.keeps a h),?_,?_,fun id h => hremembers id (hone.remembers id h),?_⟩
    · intro id row h
      rcases hstarts id row h with h | ⟨e,he,hrunning⟩
      · rcases hone.starts id row h with h | ⟨rfl,hstate⟩
        · exact Or.inl h
        · exact Or.inr (running_of_ne_stopped List.mem_cons_self hstate)
      · exact Or.inr ⟨e,List.mem_cons_of_mem _ he,hrunning⟩
    · intro e he hstate hknown
      rcases List.mem_cons.mp he with rfl | he
      · exact hkeeps _ (hone.stops hstate hknown)
      · exact hstops e he hstate hknown
    · rintro id ⟨e,he,rfl,hrunning⟩
      rcases List.mem_cons.mp he with rfl | he
      · exact hremembers _ (hone.learns (by simp [hrunning]))
      · exact hlearns e.1 ⟨e,he,rfl,hrunning⟩

/-- A plan starts only running instances, stops the known ones that do not run any more, and
remembers the running ones. -/
theorem planSnapshot_spec (instances : Snapshot Config) (known : Known Config) :
    (∀ id row, .start id row ∈ (planSnapshot instances known).1 → Running instances id) ∧
    (∀ id, ¬Running instances id → (known.get id).isSome →
      .stop id ∈ (planSnapshot instances known).1) ∧
    (∀ id, Running instances id → ((planSnapshot instances known).2.get id).isSome) := by
  obtain ⟨hkeeps,hstarts,hstops,-,hlearns⟩ := planInstances_spec known instances
    (((known.entries.map Prod.fst).filter (fun id => id ∉ instances.map Prod.fst)).map .stop,
      OrdMap.empty)
  refine ⟨fun id row h => (hstarts id row h).resolve_left (by simp),?_,hlearns⟩
  intro id hrunning hknown
  by_cases hmem : id ∈ instances.map Prod.fst
  · obtain ⟨e,he,rfl⟩ := List.mem_map.mp hmem
    refine hstops e he ?_ hknown
    by_contra hstate
    exact hrunning (running_of_ne_stopped he hstate)
  · refine hkeeps _ (List.mem_map_of_mem (List.mem_filter.mpr ⟨?_,by simpa using hmem⟩))
    obtain ⟨fingerprint,hget⟩ := Option.isSome_iff_exists.mp hknown
    exact List.mem_map.mpr ⟨(id,fingerprint),(known.mem_entries_iff id fingerprint).mpr hget,rfl⟩

end Plan

/-- A session is there, or a launch whose session would be kept. -/
def Interface.lives (ui : Interface) (id : ℕ) : Prop :=
  (ui.sessions.get id).isSome ∨
    ∃ task ∈ ui.tasks, task.id = id ∧ ui.desiredGenerations.get id = some task.generation

instance (ui : Interface) (id : ℕ) : Decidable (ui.lives id) :=
  inferInstanceAs (Decidable (_ ∨ ∃ task ∈ ui.tasks,
    task.id = id ∧ ui.desiredGenerations.get id = some task.generation))

/-- Whether an instance may live after an action, by whether it did before. -/
def SupervisorAction.Leaves (id : ℕ) (before : Prop) : SupervisorAction → Prop
  | .stop i => i ≠ id ∧ before
  | .failure none _ _ _ => before
  | .failure (some i) _ _ _ => i ≠ id ∧ before
  | .start i _ => i = id ∨ before

/-- Whether an instance may live after a list of actions. -/
def LivesAfter (id : ℕ) : Prop → List SupervisorAction → Prop
  | before, [] => before
  | before, action :: actions => LivesAfter id (action.Leaves id before) actions

instance (id : ℕ) (before : Prop) [Decidable before] :
    (action : SupervisorAction) → Decidable (action.Leaves id before)
  | .stop i => inferInstanceAs (Decidable (i ≠ id ∧ before))
  | .failure none _ _ _ => inferInstanceAs (Decidable before)
  | .failure (some i) _ _ _ => inferInstanceAs (Decidable (i ≠ id ∧ before))
  | .start i _ => inferInstanceAs (Decidable (i = id ∨ before))

def livesAfterDecidable (id : ℕ) :
    (before : Prop) → Decidable before → (actions : List SupervisorAction) →
      Decidable (LivesAfter id before actions)
  | _, decision, [] => decision
  | before, _, action :: actions =>
    livesAfterDecidable id (action.Leaves id before) inferInstance actions

theorem leaves_mono {id : ℕ} {action : SupervisorAction} {before before' : Prop}
    (h : before → before') (hleaves : action.Leaves id before) : action.Leaves id before' := by
  cases action with
  | stop i => exact ⟨hleaves.1,h hleaves.2⟩
  | failure i =>
    cases i with
    | none => exact h hleaves
    | some i => exact ⟨hleaves.1,h hleaves.2⟩
  | start i generation => exact hleaves.imp_right h

theorem livesAfter_mono {id : ℕ} {actions : List SupervisorAction} {before before' : Prop}
    (h : before → before') (hlives : LivesAfter id before actions) :
    LivesAfter id before' actions := by
  induction actions generalizing before before' with
  | nil => exact h hlives
  | cons action actions ih => exact ih (leaves_mono h) hlives

theorem livesAfter_append (id : ℕ) (before : Prop) (xs ys : List SupervisorAction) :
    LivesAfter id before (xs ++ ys) ↔ LivesAfter id (LivesAfter id before xs) ys := by
  induction xs generalizing before with
  | nil => rfl
  | cons action xs ih => exact ih _

theorem lives_applyAction {ui : Interface} {scheduled : ℕ → Bool} {action : SupervisorAction}
    {id : ℕ} (h : (ui.applyAction scheduled action).lives id) :
    action.Leaves id (ui.lives id) := by
  have herase : ∀ i, (⟨ui.sessions.erase i,ui.desiredGenerations.erase i,ui.tasks⟩ :
      Interface).lives id → i ≠ id ∧ ui.lives id := by
    intro i h
    by_cases hid : id = i
    · subst hid
      simp [Interface.lives] at h
    · simp only [Interface.lives, OrdMap.get_erase_of_ne _ hid] at h
      exact ⟨Ne.symm hid,h⟩
  cases action with
  | stop i => exact herase i h
  | failure i =>
    cases i with
    | none => exact h
    | some i => exact herase i h
  | start i generation =>
    by_cases hid : id = i
    · exact Or.inl hid.symm
    · refine Or.inr ?_
      simp only [Interface.applyAction, Interface.lives, OrdMap.get_insert_of_ne _ hid] at h
      refine h.imp_right ?_
      rintro ⟨task,htask,rfl,hgeneration⟩
      refine ⟨task,?_,rfl,hgeneration⟩
      split_ifs at htask
      · rcases List.mem_append.mp htask with htask | htask
        · exact htask
        · obtain rfl := List.mem_singleton.mp htask
          exact absurd rfl hid
      · exact htask

theorem lives_applyActions {scheduled : ℕ → Bool} {actions : List SupervisorAction} {id : ℕ}
    {ui : Interface} (h : (ui.applyActions scheduled actions).lives id) :
    LivesAfter id (ui.lives id) actions := by
  induction actions generalizing ui with
  | nil => exact h
  | cons action actions ih =>
    change LivesAfter id (action.Leaves id (ui.lives id)) actions
    exact livesAfter_mono lives_applyAction (ih h)

theorem lives_finishLaunch {ui ui' : Interface} {n : ℕ} {launched : Bool} {id : ℕ}
    (hfinish : ui.finishLaunch n launched = some ui') (h : ui'.lives id) : ui.lives id := by
  unfold Interface.finishLaunch at hfinish
  split at hfinish
  · cases hfinish
  · next task htask =>
    have hrest : ∀ task', task' ∈ ui.tasks.eraseIdx n → task' ∈ ui.tasks :=
      fun _ h => List.mem_of_mem_eraseIdx h
    split_ifs at hfinish with hkept
    · cases hfinish
      by_cases hid : id = task.id
      · subst hid
        exact Or.inr ⟨task,List.mem_of_getElem? htask,rfl,hkept.2⟩
      · simp only [Interface.lives, OrdMap.get_insert_of_ne _ hid] at h
        exact h.imp_right (fun ⟨task',htask',hmatch⟩ => ⟨task',hrest _ htask',hmatch⟩)
    · cases hfinish
      exact h.imp_right (fun ⟨task',htask',hmatch⟩ => ⟨task',hrest _ htask',hmatch⟩)

theorem lives_sessionEnded {ui : Interface} {id i : ℕ} (h : (ui.sessionEnded i).lives id) :
    ui.lives id := by
  refine h.imp_left (fun h => ?_)
  simp only [Interface.sessionEnded, OrdMap.get_erase] at h
  split_ifs at h
  · cases h
  · exact h

theorem not_lives_empty (id : ℕ) : ¬Interface.empty.lives id := by
  simp [Interface.lives, Interface.empty]

section Runs

variable {Config : Type} [DecidableEq Config]

/-- Whether an instance may live once all queued actions are applied. -/
def Supervisor.WillLive (s : Supervisor Config) (id : ℕ) : Prop :=
  LivesAfter id (s.ui.lives id) s.actions.queue.flatten

instance (s : Supervisor Config) (id : ℕ) : Decidable (s.WillLive id) :=
  livesAfterDecidable id (s.ui.lives id) inferInstance s.actions.queue.flatten

/-- A batch on its way from a plan to the queue. `before` tells which instances may live before
the batch is applied. -/
structure Prepared (before : ℕ → Prop) (todo : List (DesiredAction Config))
    (prepared : List SupervisorAction) (snapshot : Snapshot Config) (next : Known Config) :
    Prop where
  learns : ∀ id, Running snapshot id → (next.get id).isSome
  starts : ∀ id row, .start id row ∈ todo → Running snapshot id
  stops : ∀ id, ¬Running snapshot id →
    .stop id ∈ todo ∨ ¬LivesAfter id (before id) prepared

/-- What the worker knows covers every instance that may live. -/
def Covered (s : Supervisor Config) : Prop :=
  match s.worker with
  | .preparing todo prepared snapshot next => Prepared s.WillLive todo prepared snapshot next
  | .fetching id _ todo prepared snapshot next =>
    Running snapshot id ∧ Prepared s.WillLive todo prepared snapshot next
  | .ended => True
  | _ => ∀ id, s.WillLive id → (s.known.get id).isSome ∨ id ∈ s.retried

structure Consistent (s : Supervisor Config) : Prop where
  settled : ∀ r ∈ s.snapshots, s.applied ≤ r.1 → ∀ id, ¬Running r.2 id →
    ¬LivesAfter id (s.ui.lives id) (s.actions.queue.take (r.1 - s.applied)).flatten
  recorded : s.actions.isOpen = true → ∀ r ∈ s.snapshots, r.1 ≤ s.sent
  covered : Covered s

omit [DecidableEq Config] in
theorem Prepared.mono {before before' : ℕ → Prop} {todo : List (DesiredAction Config)}
    {prepared : List SupervisorAction} {snapshot : Snapshot Config} {next : Known Config}
    (h : Prepared before todo prepared snapshot next) (hle : ∀ id, before' id → before id) :
    Prepared before' todo prepared snapshot next :=
  ⟨h.learns,h.starts,fun id hid => (h.stops id hid).imp_right (mt (livesAfter_mono (hle id)))⟩

omit [DecidableEq Config] in
/-- Steps of the interface and of other writers: fewer instances may live. -/
theorem Covered.mono {s s' : Supervisor Config} (h : Covered s) (hworker : s'.worker = s.worker)
    (hknown : s'.known = s.known) (hretried : s'.retried = s.retried)
    (hlives : ∀ id, s'.WillLive id → s.WillLive id) : Covered s' := by
  unfold Covered at h ⊢
  rw [hworker]
  cases hw : s.worker with
  | preparing todo prepared snapshot next =>
    rw [hw] at h
    exact Prepared.mono h hlives
  | fetching id pluginId todo prepared snapshot next =>
    rw [hw] at h
    exact ⟨h.1,Prepared.mono h.2 hlives⟩
  | ended => trivial
  | polling | reporting _ | waiting =>
    rw [hw] at h
    intro id hid
    rw [hknown, hretried]
    exact h id (hlives id hid)

omit [DecidableEq Config] in
/-- One more action that concerns an instance that runs, or that stops an instance. -/
theorem Prepared.next {before : ℕ → Prop} {first : DesiredAction Config}
    {todo : List (DesiredAction Config)} {prepared : List SupervisorAction}
    {snapshot : Snapshot Config} {next : Known Config} {action : SupervisorAction}
    (h : Prepared before (first :: todo) prepared snapshot next)
    (hother : ∀ id, ¬Running snapshot id → first ≠ .stop id →
      ∀ before, action.Leaves id before → before)
    (hstop : ∀ id, first = .stop id → ∀ before, ¬action.Leaves id before) :
    Prepared before todo (prepared ++ [action]) snapshot next := by
  refine ⟨h.learns,fun id row hmem => h.starts id row (List.mem_cons_of_mem _ hmem),?_⟩
  intro id hid
  by_cases hfirst : first = .stop id
  · refine Or.inr (fun hlives => ?_)
    rw [livesAfter_append] at hlives
    exact hstop id hfirst _ hlives
  · refine (h.stops id hid).imp ?_ ?_
    · intro hmem
      exact (List.mem_cons.mp hmem).resolve_left (Ne.symm hfirst)
    · intro hdead hlives
      rw [livesAfter_append] at hlives
      exact hdead (hother id hid hfirst _ hlives)

omit [DecidableEq Config] in
/-- The action for one instance does not make another one live. -/
theorem fetchedAction_other {table : OrdMap ℕ (InstanceRow Config)} {i id : ℕ}
    {pluginId : String} {sqlError : Option String} {loadError : Option (String × String)}
    {before : Prop} (hne : i ≠ id)
    (h : (Supervisor.fetchedAction table i pluginId sqlError loadError).Leaves id before) : before := by
  unfold Supervisor.fetchedAction at h
  split at h
  · exact h.2
  · split at h
    · exact h.2
    · split at h
      · exact h.2
      · exact h.resolve_left hne

omit [DecidableEq Config] in
theorem Consistent.prepare {s s' : Supervisor Config} {now : ℕ} {sqlError : Option String}
    {todo : List (DesiredAction Config)} {prepared : List SupervisorAction}
    {snapshot : Snapshot Config} {next : Known Config} (h : Consistent s)
    (hworker : s.worker = .preparing todo prepared snapshot next)
    (hstep : s.prepareAction now sqlError todo prepared snapshot next = some s') :
    Consistent s' := by
  have hprepared : Prepared s.WillLive todo prepared snapshot next := by
    have hcovered := h.covered
    rwa [Covered, hworker] at hcovered
  unfold Supervisor.prepareAction at hstep
  split at hstep
  · cases hstep
  · next i todo =>
    cases hstep
    refine ⟨h.settled,h.recorded,hprepared.next ?_ ?_⟩
    · intro id _ hne before hleaves
      exact hleaves.2
    · rintro id hid before ⟨hne,-⟩
      cases hid
      exact hne rfl
  · next i row todo =>
    have hrunning : Running snapshot i := hprepared.starts i row List.mem_cons_self
    simp only at hstep
    split at hstep
    · cases hstep
      refine ⟨h.settled,h.recorded,hprepared.next ?_ (by simp)⟩
      exact fun _ _ _ _ hleaves => hleaves.2
    · split at hstep
      · cases hstep
        refine ⟨h.settled,h.recorded,hrunning,hprepared.learns,
          fun id row hmem => hprepared.starts id row (List.mem_cons_of_mem _ hmem),?_⟩
        intro id hid
        refine (hprepared.stops id hid).imp_left (fun hmem => ?_)
        simpa using hmem
      · cases hstep
        refine ⟨h.settled,h.recorded,hprepared.next ?_ (by simp)⟩
        exact fun _ _ _ _ hleaves => hleaves.2

omit [DecidableEq Config] in
/-- The actions of a snapshot have been sent. -/
theorem Consistent.remember {s : Supervisor Config} {snapshot : Snapshot Config}
    {next : Known Config}
    (hsettled : ∀ r ∈ s.snapshots, s.applied ≤ r.1 → ∀ id, ¬Running r.2 id →
      ¬LivesAfter id (s.ui.lives id) (s.actions.queue.take (r.1 - s.applied)).flatten)
    (hrecorded : s.actions.isOpen = true → ∀ r ∈ s.snapshots, r.1 ≤ s.sent)
    (hlearns : ∀ id, Running snapshot id → (next.get id).isSome)
    (hstops : ∀ id, ¬Running snapshot id → ¬s.WillLive id) :
    Consistent (s.remember snapshot next) := by
  refine ⟨?_,?_,?_⟩
  · refine List.forall_mem_cons.mpr ⟨?_,hsettled⟩
    intro _ id hid
    have hall : s.actions.queue.take (s.sent - s.applied) = s.actions.queue :=
      List.take_of_length_le (by simp [Supervisor.sent])
    rw [show (s.remember snapshot next).actions = s.actions from rfl,
      show (s.remember snapshot next).applied = s.applied from rfl, hall]
    exact hstops id hid
  · exact fun hopen => List.forall_mem_cons.mpr ⟨le_refl _,hrecorded hopen⟩
  · intro id hid
    refine Or.inl (hlearns id ?_)
    by_contra hrunning
    exact hstops id hrunning hid

/-- Where a snapshot is taken, an instance that was retried since the last one runs, or it
neither lives nor is about to. -/
def RetriesSettled (s : Supervisor Config) : SupervisorLabel Config → Prop
  | .list none => ∀ id ∈ s.retried, Running s.table.entries id ∨ ¬s.WillLive id
  | _ => True

instance (s : Supervisor Config) : (i : SupervisorLabel Config) → Decidable (RetriesSettled s i)
  | .list none => inferInstanceAs (Decidable
      (∀ id ∈ s.retried, Running s.table.entries id ∨ ¬s.WillLive id))
  | .list (some _) => .isTrue trivial
  | .change _ _ => .isTrue trivial
  | .prepare _ _ => .isTrue trivial
  | .fetch _ _ => .isTrue trivial
  | .send => .isTrue trivial
  | .waitForCommand => .isTrue trivial
  | .timeout => .isTrue trivial
  | .retry _ => .isTrue trivial
  | .apply _ => .isTrue trivial
  | .finishLaunch _ _ => .isTrue trivial
  | .sessionEnded _ => .isTrue trivial
  | .drop => .isTrue trivial

theorem Consistent.list {s s' : Supervisor Config} {sqlError : Option String}
    (h : Consistent s) (hretries : RetriesSettled s (.list sqlError))
    (hstep : s.step (.list sqlError) = some s') : Consistent s' := by
  simp only [Supervisor.step] at hstep
  split at hstep
  · next hworker =>
    have hknows : ∀ id, s.WillLive id → (s.known.get id).isSome ∨ id ∈ s.retried := by
      have hcovered := h.covered
      rwa [Covered, hworker] at hcovered
    split at hstep
    · cases hstep
      exact ⟨h.settled,h.recorded,hknows⟩
    · obtain ⟨hstarts,hstops,hlearns⟩ := planSnapshot_spec s.table.entries s.known
      -- a retried instance that may live runs, so the plan stops every other one that may live
      have hstopped : ∀ id, ¬Running s.table.entries id → s.WillLive id →
          .stop id ∈ (planSnapshot s.table.entries s.known).1 := by
        intro id hid hlives
        rcases hknows id hlives with hknown | hretried
        · exact hstops id hid hknown
        · exact absurd hlives ((hretries id hretried).resolve_left hid)
      split_ifs at hstep with hempty
      · cases hstep
        refine Consistent.remember (s := { s with retried := [] }) h.settled h.recorded hlearns ?_
        intro id hid hlives
        have hmem := hstopped id hid hlives
        rw [List.eq_nil_of_length_eq_zero hempty] at hmem
        cases hmem
      · cases hstep
        refine ⟨h.settled,h.recorded,hlearns,hstarts,fun id hid => ?_⟩
        by_cases hlives : s.WillLive id
        · exact Or.inl (hstopped id hid hlives)
        · exact Or.inr hlives
  · cases hstep

omit [DecidableEq Config] in
/-- A batch behind the others in the queue. -/
theorem Consistent.enqueue {s : Supervisor Config} {batch : List SupervisorAction}
    {actions : Channel (List SupervisorAction)} (h : Consistent s)
    (hsend : s.actions.trySend batch = .ok actions) :
    (∀ r ∈ s.snapshots, s.applied ≤ r.1 → ∀ id, ¬Running r.2 id →
      ¬LivesAfter id (s.ui.lives id) (actions.queue.take (r.1 - s.applied)).flatten) ∧
    (∀ r ∈ s.snapshots, r.1 ≤ s.applied + actions.queue.length) ∧
    ∀ id, LivesAfter id (s.ui.lives id) actions.queue.flatten ↔
      LivesAfter id (s.WillLive id) batch := by
  obtain ⟨⟨hopen,-⟩,hqueue,-,-⟩ := Channel.trySend_eq_ok hsend
  have hrecorded := h.recorded hopen
  rw [hqueue]
  refine ⟨?_,?_,fun id => ?_⟩
  · intro r hr hle id hid
    have hshort : r.1 - s.applied ≤ s.actions.queue.length := by
      have hle' := hrecorded r hr
      unfold Supervisor.sent at hle'
      omega
    rw [List.take_append_of_le_length hshort]
    exact h.settled r hr hle id hid
  · intro r hr
    have hle' := hrecorded r hr
    unfold Supervisor.sent at hle'
    rw [List.length_append]
    omega
  · rw [List.flatten_append, livesAfter_append, List.flatten_singleton]
    rfl

theorem Consistent.send {s s' : Supervisor Config} (h : Consistent s)
    (hstep : s.step .send = some s') : Consistent s' := by
  simp only [Supervisor.step] at hstep
  split at hstep
  · next prepared snapshot next hworker =>
    have hprepared : Prepared s.WillLive [] prepared snapshot next := by
      have hcovered := h.covered
      rwa [Covered, hworker] at hcovered
    split at hstep
    · next actions hsend =>
      cases hstep
      obtain ⟨hsettled,hrecorded,hlives⟩ := h.enqueue hsend
      refine Consistent.remember hsettled (fun _ => hrecorded) hprepared.learns ?_
      intro id hid hlive
      exact (hprepared.stops id hid).resolve_left (by simp) ((hlives id).mp hlive)
    · cases hstep
    · cases hstep
      exact ⟨h.settled,h.recorded,trivial⟩
  · next detail hworker =>
    have hknows : ∀ id, s.WillLive id → (s.known.get id).isSome ∨ id ∈ s.retried := by
      have hcovered := h.covered
      rwa [Covered, hworker] at hcovered
    split at hstep
    · next actions hsend =>
      cases hstep
      obtain ⟨hsettled,hrecorded,hlives⟩ := h.enqueue hsend
      exact ⟨hsettled,fun _ => hrecorded,fun id hlive => hknows id ((hlives id).mp hlive)⟩
    · cases hstep
    · cases hstep
      exact ⟨h.settled,h.recorded,trivial⟩
  · cases hstep

theorem Consistent.waitForCommand {s s' : Supervisor Config} (h : Consistent s)
    (hstep : s.step .waitForCommand = some s') : Consistent s' := by
  simp only [Supervisor.step] at hstep
  split at hstep
  · next i commands hworker hrecv =>
    cases hstep
    refine ⟨h.settled,h.recorded,?_⟩
    have hcovered := h.covered
    rw [Covered, hworker] at hcovered
    intro id hlives
    by_cases hid : id = i
    · exact Or.inr (List.mem_cons.mpr (Or.inl hid))
    · refine (hcovered id hlives).imp (fun hknown => ?_) (List.mem_cons_of_mem _)
      simpa only [OrdMap.get_erase_of_ne _ hid] using hknown
  · cases hstep
    exact ⟨h.settled,h.recorded,trivial⟩
  · cases hstep

omit [DecidableEq Config] in
/-- A step of the interface that does not touch the queue. -/
theorem Consistent.interface {s : Supervisor Config} {ui : Interface} (h : Consistent s)
    (hlives : ∀ id, ui.lives id → s.ui.lives id) : Consistent { s with ui := ui } :=
  ⟨fun r hr hle id hid => mt (livesAfter_mono (hlives id)) (h.settled r hr hle id hid),h.recorded,
    h.covered.mono rfl rfl rfl (fun id => livesAfter_mono (hlives id))⟩

theorem Consistent.apply {s s' : Supervisor Config} {scheduled : ℕ → Bool} (h : Consistent s)
    (hstep : s.step (.apply scheduled) = some s') : Consistent s' := by
  simp only [Supervisor.step] at hstep
  split at hstep
  · next batch actions hrecv =>
    obtain ⟨hqueue,hopen,-⟩ := Channel.queue_of_recv hrecv
    cases hstep
    -- the batch now acts on the interface instead of waiting in the queue
    have hlives : ∀ id rest, LivesAfter id ((s.ui.applyActions scheduled batch).lives id) rest →
        LivesAfter id (s.ui.lives id) (batch ++ rest) := by
      intro id rest hlive
      rw [livesAfter_append]
      exact livesAfter_mono lives_applyActions hlive
    refine ⟨?_,?_,h.covered.mono rfl rfl rfl (fun id hlive => ?_)⟩
    · intro r hr hle id hid hlive
      simp only at hle hlive
      have htake : s.actions.queue.take (r.1 - s.applied) =
          batch :: actions.queue.take (r.1 - (s.applied + 1)) := by
        rw [hqueue, show r.1 - s.applied = (r.1 - (s.applied + 1)) + 1 by omega,
          List.take_succ_cons]
      refine h.settled r hr (by omega) id hid ?_
      rw [htake, List.flatten_cons]
      exact hlives id _ hlive
    · intro hstillOpen r hr
      have hle := h.recorded (hopen ▸ hstillOpen) r hr
      simp only [Supervisor.sent, hqueue, List.length_cons] at hle ⊢
      omega
    · unfold Supervisor.WillLive
      rw [hqueue, List.flatten_cons]
      exact hlives id _ hlive
  · cases hstep

theorem Consistent.drop {s s' : Supervisor Config} (h : Consistent s)
    (hstep : s.step .drop = some s') : Consistent s' := by
  cases hstep
  refine ⟨fun r _ _ id _ => ?_,fun hopen => by simp at hopen,
    h.covered.mono rfl rfl rfl (fun id hlive => absurd hlive (not_lives_empty id))⟩
  rw [Channel.queue_close, List.take_nil]
  exact not_lives_empty id

theorem Consistent.step {s s' : Supervisor Config} {i : SupervisorLabel Config}
    (h : Consistent s) (hretries : RetriesSettled s i) (hstep : s.step i = some s') :
    Consistent s' := by
  cases i with
  | change id row =>
    cases hstep
    exact ⟨h.settled,h.recorded,h.covered.mono rfl rfl rfl (fun _ hlive => hlive)⟩
  | list sqlError => exact h.list hretries hstep
  | prepare now sqlError =>
    simp only [Supervisor.step] at hstep
    split at hstep
    · next todo prepared snapshot next hworker => exact h.prepare hworker hstep
    · cases hstep
  | fetch sqlError loadError =>
    simp only [Supervisor.step] at hstep
    split at hstep
    · next i pluginId todo prepared snapshot next hworker =>
      have hcovered := h.covered
      rw [Covered, hworker] at hcovered
      obtain ⟨hrunning,hprepared⟩ := hcovered
      cases hstep
      refine ⟨h.settled,h.recorded,hprepared.learns,hprepared.starts,fun id hid => ?_⟩
      refine (hprepared.stops id hid).imp_right (fun hdead hlives => hdead ?_)
      rw [livesAfter_append] at hlives
      exact fetchedAction_other (fun heq : i = id => hid (heq ▸ hrunning)) hlives
    · cases hstep
  | send => exact h.send hstep
  | waitForCommand => exact h.waitForCommand hstep
  | timeout =>
    simp only [Supervisor.step] at hstep
    split at hstep
    · next hworker =>
      cases hstep
      have hcovered := h.covered
      rw [Covered, hworker] at hcovered
      exact ⟨h.settled,h.recorded,hcovered⟩
    · cases hstep
  | retry id =>
    simp only [Supervisor.step] at hstep
    split at hstep
    · cases hstep
      exact ⟨h.settled,h.recorded,h.covered.mono rfl rfl rfl (fun _ hlive => hlive)⟩
    · cases hstep
      exact h
  | apply scheduled => exact h.apply hstep
  | finishLaunch n launched =>
    simp only [Supervisor.step] at hstep
    split at hstep
    · next ui hfinish =>
      cases hstep
      exact h.interface (fun _ => lives_finishLaunch hfinish)
    · cases hstep
  | sessionEnded id =>
    cases hstep
    exact h.interface (fun _ => lives_sessionEnded)
  | drop => exact h.drop hstep

/-- Runs of the supervisor from any table of instances. -/
def supervisorSystem : System (Supervisor Config) (SupervisorLabel Config) :=
  .ofPartial (fun s => ∃ table, s = Supervisor.new table) Supervisor.step

/-- Once the actions of a snapshot are applied, and until those of a later one are, an instance
that the snapshot does not run has no session. -/
theorem no_session_after_stop {s : Supervisor Config}
    (h : supervisorSystem.ReachableWhen RetriesSettled s) :
    ∀ r ∈ s.snapshots, r.1 = s.applied → ∀ id, ¬Running r.2 id → s.ui.sessions.get id = none := by
  have hconsistent : Consistent s := by
    refine h.invariant Consistent ?_ (fun _ _ _ hc hretries hstep => hc.step hretries hstep)
    rintro _ ⟨table,rfl⟩
    refine ⟨by simp [Supervisor.new],by simp [Supervisor.new],?_⟩
    intro id hlive
    exact absurd hlive (not_lives_empty id)
  intro r hr happlied id hid
  have hdead := hconsistent.settled r hr happlied.ge id hid
  rw [happlied, Nat.sub_self, List.take_zero] at hdead
  cases hsession : s.ui.sessions.get id with
  | none => rfl
  | some generation => exact absurd (Or.inl (by rw [hsession]; rfl)) hdead

end Runs

def clockRow (desiredState : InstanceDesiredState) (generation updatedAt : ℕ) :
    InstanceRow Unit :=
  ⟨⟨"org.acme.clock","1.0.0","00",()⟩,desiredState,generation,updatedAt⟩

def clockTable : OrdMap ℕ (InstanceRow Unit) := OrdMap.empty.insert 1 (clockRow .running 0 5)

/-- A snapshot that starts the instance, up to its session. -/
def startClock : List (SupervisorLabel Unit) :=
  [.list none,.prepare 10 none,.fetch none none,.send,.apply (fun _ => true),.finishLaunch 0 true]

def retryClock : List (SupervisorLabel Unit) := [.retry 1,.waitForCommand]

def stopClock : List (SupervisorLabel Unit) := [.change 1 (some (clockRow .stopped 1 20))]

/-- The instance is retried, started again and stopped after that. -/
def stoppedClock : Option (Supervisor Unit) :=
  System.runWhen Supervisor.step RetriesSettled (Supervisor.new clockTable)
    (startClock ++ retryClock ++ startClock ++ stopClock ++
      [.timeout,.list none,.prepare 30 none,.send,.apply fun _ => true])

theorem stoppedClock_no_session :
    ∃ s, stoppedClock = some s ∧ s.applied = 3 ∧ s.ui.sessions.get 1 = none := by
  obtain ⟨s,hs⟩ : ∃ s, stoppedClock = some s := Option.isSome_iff_exists.mp (by decide +kernel)
  have happlied : stoppedClock.map Supervisor.applied = some 3 := by decide +kernel
  have hsnapshot : stoppedClock.map (fun s => s.snapshots.head?) =
      some (some (3,[(1,clockRow .stopped 1 20)])) := by decide +kernel
  rw [hs, Option.map_some, Option.some.injEq] at happlied hsnapshot
  have hinit : (supervisorSystem : System (Supervisor Unit) (SupervisorLabel Unit)).ReachableWhen RetriesSettled
      (Supervisor.new clockTable) := .of_init ⟨clockTable,rfl⟩
  exact ⟨s,hs,happlied,no_session_after_stop (System.reachableWhen_runWhen hinit hs)
    (3,[(1,clockRow .stopped 1 20)]) (List.mem_of_head? hsnapshot) happlied.symm 1 (by decide)⟩

/-- The instance is stopped between its retry and the next snapshot. -/
def forgottenClock : Option (Supervisor Unit) :=
  (startClock ++ retryClock ++ stopClock ++ [SupervisorLabel.list none]).foldlM Supervisor.step
    (Supervisor.new clockTable)

theorem forgottenClock_session :
    ¬∀ s, (supervisorSystem : System (Supervisor Unit) (SupervisorLabel Unit)).Reachable s →
      ∀ r ∈ s.snapshots, r.1 = s.applied → ∀ id, ¬Running r.2 id →
        s.ui.sessions.get id = none := by
  intro hnone
  obtain ⟨s,hs⟩ : ∃ s, forgottenClock = some s := Option.isSome_iff_exists.mp (by decide +kernel)
  have happlied : forgottenClock.map Supervisor.applied = some 1 := by decide +kernel
  have hsnapshot : forgottenClock.map (fun s => s.snapshots.head?) =
      some (some (1,[(1,clockRow .stopped 1 20)])) := by decide +kernel
  have hsession : forgottenClock.map (fun s => s.ui.sessions.get 1) = some (some 1) := by
    decide +kernel
  rw [hs, Option.map_some, Option.some.injEq] at happlied hsnapshot hsession
  have hinit : (supervisorSystem : System (Supervisor Unit) (SupervisorLabel Unit)).Reachable (Supervisor.new clockTable) :=
    .of_init ⟨clockTable,rfl⟩
  have hgone := hnone s (System.reachable_foldlM hinit hs) (1,[(1,clockRow .stopped 1 20)])
    (List.mem_of_head? hsnapshot) happlied.symm 1 (by decide)
  rw [hsession] at hgone
  cases hgone

end Floatile.Shell
