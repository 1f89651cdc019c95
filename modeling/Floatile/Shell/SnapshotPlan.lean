import Floatile.Shell.Supervisor
import Mathlib.Data.List.Nodup

/-! What a plan does with every instance of a snapshot and of the map that remembers the ones
before it. -/
namespace Floatile.Shell

open Floatile.Core Floatile.Lib

section Actions

variable {Config : Type}

def DesiredAction.instanceId : DesiredAction Config → ℕ
  | .stop id => id
  | .start id _ => id

/-- The snapshot wants the instance to run as the row says. -/
def Desired (instances : Snapshot Config) (id : ℕ) (row : InstanceRow Config) : Prop :=
  (id,row) ∈ instances ∧ row.desiredState = .running

/-- Of two actions for one instance the earlier is a stop and the later a start, so there is at
most one of each. -/
def StopsFirst (actions : List (DesiredAction Config)) : Prop :=
  actions.Pairwise (fun a b => a.instanceId = b.instanceId →
    a = .stop a.instanceId ∧ ∃ row, b = .start b.instanceId row)

end Actions

section Plan

variable {Config : Type} [DecidableEq Config]

/-- The actions for one instance of a snapshot. -/
def entryActions (known : Known Config) (entry : ℕ × InstanceRow Config) :
    List (DesiredAction Config) :=
  if entry.2.desiredState = .stopped then
    if (known.get entry.1).isSome then [.stop entry.1] else []
  else if known.get entry.1 ≠ some entry.2.fingerprint then
    (if (known.get entry.1).isSome then [.stop entry.1] else []) ++ [.start entry.1 entry.2]
  else []

/-- Remembers one instance of a snapshot. -/
def rememberEntry (next : Known Config) (entry : ℕ × InstanceRow Config) : Known Config :=
  if entry.2.desiredState = .stopped then next
  else next.insert entry.1 entry.2.fingerprint

theorem planInstance_eq (known : Known Config) (plan : List (DesiredAction Config) × Known Config)
    (entry : ℕ × InstanceRow Config) : planInstance known plan entry =
      (plan.1 ++ entryActions known entry,rememberEntry plan.2 entry) := by
  unfold planInstance entryActions rememberEntry
  split_ifs <;> simp_all

/-- The instances that are remembered and that the snapshot does not list. -/
def gone (instances : Snapshot Config) (known : Known Config) : List ℕ :=
  (known.entries.map Prod.fst).filter (fun id => id ∉ instances.map Prod.fst)

theorem planSnapshot_eq (instances : Snapshot Config) (known : Known Config) :
    planSnapshot instances known =
      ((gone instances known).map .stop ++ instances.flatMap (entryActions known),
        instances.foldl rememberEntry OrdMap.empty) := by
  have hfold : ∀ (entries : Snapshot Config) (plan : List (DesiredAction Config) × Known Config),
      entries.foldl (planInstance known) plan =
        (plan.1 ++ entries.flatMap (entryActions known),entries.foldl rememberEntry plan.2) := by
    intro entries
    induction entries with
    | nil => simp
    | cons entry entries ih =>
      intro plan
      rw [List.foldl_cons, ih, planInstance_eq, List.flatMap_cons, List.append_assoc,
        List.foldl_cons]
  exact hfold _ _

omit [DecidableEq Config] in
theorem mem_gone {instances : Snapshot Config} {known : Known Config} {id : ℕ} :
    id ∈ gone instances known ↔ (known.get id).isSome ∧ ∀ row, (id,row) ∉ instances := by
  have hknown : id ∈ known.entries.map Prod.fst ↔ (known.get id).isSome := by
    simp [Option.isSome_iff_exists, ← OrdMap.mem_entries_iff]
  rw [gone, List.mem_filter, hknown]
  simp

omit [DecidableEq Config] in
theorem ne_stopped_iff {row : InstanceRow Config} :
    row.desiredState ≠ .stopped ↔ row.desiredState = .running := by
  cases row.desiredState <;> simp

theorem start_mem_entryActions {known : Known Config} {entry : ℕ × InstanceRow Config} {id : ℕ}
    {row : InstanceRow Config} : .start id row ∈ entryActions known entry ↔
      entry = (id,row) ∧ row.desiredState = .running ∧ known.get id ≠ some row.fingerprint := by
  rw [← ne_stopped_iff]
  obtain ⟨i,r⟩ := entry
  unfold entryActions
  simp only [Prod.mk.injEq]
  split_ifs <;> simp_all <;> grind

theorem stop_mem_entryActions {known : Known Config} {entry : ℕ × InstanceRow Config} {id : ℕ} :
    .stop id ∈ entryActions known entry ↔ entry.1 = id ∧ (known.get id).isSome ∧
      (entry.2.desiredState = .running → known.get id ≠ some entry.2.fingerprint) := by
  rw [← ne_stopped_iff]
  unfold entryActions
  split_ifs <;> simp_all <;> grind

theorem instanceId_of_mem_entryActions {known : Known Config} {entry : ℕ × InstanceRow Config}
    {a : DesiredAction Config} (h : a ∈ entryActions known entry) : a.instanceId = entry.1 := by
  cases a with
  | stop id => exact (stop_mem_entryActions.mp h).1.symm
  | start id row => rw [(start_mem_entryActions.mp h).1]; rfl

theorem stopsFirst_entryActions (known : Known Config) (entry : ℕ × InstanceRow Config) :
    StopsFirst (entryActions known entry) := by
  unfold StopsFirst entryActions
  split_ifs <;> simp [DesiredAction.instanceId]

theorem stopsFirst_planSnapshot {instances : Snapshot Config} (known : Known Config)
    (hids : (instances.map Prod.fst).Nodup) : StopsFirst (planSnapshot instances known).1 := by
  rw [planSnapshot_eq, StopsFirst, List.pairwise_append]
  refine ⟨?_,?_,?_⟩
  · have hknown : (known.entries.map Prod.fst).Nodup :=
      (List.pairwise_map.mpr known.ordered).imp ne_of_lt
    rw [List.pairwise_map]
    refine (hknown.filter _).imp ?_
    intro i j hne heq
    exact absurd heq hne
  · rw [List.pairwise_flatMap]
    refine ⟨fun entry _ => stopsFirst_entryActions known entry,?_⟩
    refine (List.pairwise_map.mp hids).imp ?_
    intro entry entry' hne a ha b hb heq
    rw [instanceId_of_mem_entryActions ha, instanceId_of_mem_entryActions hb] at heq
    exact absurd heq hne
  · rintro a ha b hb heq
    obtain ⟨id,hid,rfl⟩ := List.mem_map.mp ha
    obtain ⟨⟨i,row⟩,hentry,hb⟩ := List.mem_flatMap.mp hb
    rw [instanceId_of_mem_entryActions hb] at heq
    obtain rfl : id = i := heq
    exact absurd hentry ((mem_gone.mp hid).2 row)

theorem start_mem_planSnapshot {instances : Snapshot Config} {known : Known Config} {id : ℕ}
    {row : InstanceRow Config} : .start id row ∈ (planSnapshot instances known).1 ↔
      Desired instances id row ∧ known.get id ≠ some row.fingerprint := by
  rw [planSnapshot_eq, List.mem_append, List.mem_flatMap]
  simp only [start_mem_entryActions, Desired]
  constructor
  · rintro (h | ⟨entry,hentry,rfl,hrunning,hnew⟩)
    · simp at h
    · exact ⟨⟨hentry,hrunning⟩,hnew⟩
  · rintro ⟨⟨hentry,hrunning⟩,hnew⟩
    exact Or.inr ⟨(id,row),hentry,rfl,hrunning,hnew⟩

theorem stop_mem_planSnapshot {instances : Snapshot Config} {known : Known Config} {id : ℕ}
    (hids : (instances.map Prod.fst).Nodup) :
    .stop id ∈ (planSnapshot instances known).1 ↔
      (known.get id).isSome ∧ ∀ row, Desired instances id row →
        known.get id ≠ some row.fingerprint := by
  have hstop : (.stop id : DesiredAction Config) ∈ (gone instances known).map .stop ↔
      id ∈ gone instances known := by simp
  rw [planSnapshot_eq, List.mem_append, hstop, mem_gone, List.mem_flatMap]
  simp only [stop_mem_entryActions]
  constructor
  · rintro (⟨hknown,hgone⟩ | ⟨⟨i,row⟩,hentry,rfl,hknown,hnew⟩)
    · exact ⟨hknown,fun row hrow => absurd hrow.1 (hgone row)⟩
    · refine ⟨hknown,fun row' hrow => ?_⟩
      obtain rfl : row' = row := congrArg Prod.snd (List.inj_on_of_nodup_map hids hrow.1 hentry rfl)
      exact hnew hrow.2
  · rintro ⟨hknown,hnew⟩
    by_cases hlisted : ∃ row, (id,row) ∈ instances
    · obtain ⟨row,hentry⟩ := hlisted
      exact Or.inr ⟨(id,row),hentry,rfl,hknown,fun hrunning => hnew row ⟨hentry,hrunning⟩⟩
    · exact Or.inl ⟨hknown,fun row hrow => hlisted ⟨row,hrow⟩⟩

omit [DecidableEq Config] in
/-- What remembering a list of instances makes of the map. -/
theorem get_foldl_rememberEntry {instances : Snapshot Config}
    (hids : (instances.map Prod.fst).Nodup) (next : Known Config) (id : ℕ) :
    (∀ row, Desired instances id row →
      (instances.foldl rememberEntry next).get id = some row.fingerprint) ∧
    ((∀ row, ¬Desired instances id row) →
      (instances.foldl rememberEntry next).get id = next.get id) := by
  induction instances generalizing next with
  | nil => simp [Desired]
  | cons entry instances ih =>
    obtain ⟨hfirst,hids⟩ := List.nodup_cons.mp hids
    obtain ⟨hdesired,hothers⟩ := ih hids (rememberEntry next entry)
    rw [List.foldl_cons]
    refine ⟨?_,?_⟩
    · rintro row ⟨hmem,hrunning⟩
      rcases List.mem_cons.mp hmem with rfl | hmem
      · -- no later instance has this id
        rw [hothers (fun row' hrow' => hfirst (List.mem_map.mpr ⟨_,hrow'.1,rfl⟩)), rememberEntry,
          if_neg (ne_stopped_iff.mpr hrunning), OrdMap.get_insert_self]
      · exact hdesired row ⟨hmem,hrunning⟩
    · intro hnone
      rw [hothers (fun row hrow => hnone row ⟨List.mem_cons_of_mem _ hrow.1,hrow.2⟩), rememberEntry]
      split_ifs with hstopped
      · rfl
      · refine OrdMap.get_insert_of_ne _ ?_ _
        rintro rfl
        exact hnone entry.2 ⟨List.mem_cons_self,ne_stopped_iff.mp hstopped⟩

/-- A snapshot that has been planned asks for nothing more. -/
theorem planSnapshot_again {instances : Snapshot Config} (known : Known Config)
    (hids : (instances.map Prod.fst).Nodup) :
    planSnapshot instances (planSnapshot instances known).2 =
      ([],(planSnapshot instances known).2) := by
  set next := (planSnapshot instances known).2 with hnext
  have hsnd : next = instances.foldl rememberEntry OrdMap.empty := by rw [hnext, planSnapshot_eq]
  have hget := fun id => get_foldl_rememberEntry hids (OrdMap.empty : Known Config) id
  have hempty : (planSnapshot instances next).1 = [] := by
    refine List.eq_nil_iff_forall_not_mem.mpr ?_
    rintro (id | ⟨id,row⟩) hmem
    · obtain ⟨hknown,hnew⟩ := (stop_mem_planSnapshot hids).mp hmem
      by_cases hdesired : ∃ row, Desired instances id row
      · obtain ⟨row,hrow⟩ := hdesired
        exact hnew row hrow (hsnd ▸ (hget id).1 row hrow)
      · rw [hsnd, (hget id).2 (not_exists.mp hdesired)] at hknown
        simp at hknown
    · obtain ⟨hrow,hnew⟩ := start_mem_planSnapshot.mp hmem
      exact hnew (hsnd ▸ (hget id).1 row hrow)
  refine Prod.ext hempty ?_
  rw [planSnapshot_eq, hsnd]

/-- Planning a snapshot starts the instances that are to run and are new or changed, stops the
remembered ones that are not to run any more or are changed, each once and the stop first, and
leaves nothing to do for the same snapshot. -/
theorem planSnapshot_exact (instances : Snapshot Config) (known : Known Config)
    (hids : (instances.map Prod.fst).Nodup) :
    StopsFirst (planSnapshot instances known).1 ∧
    (∀ id row, .start id row ∈ (planSnapshot instances known).1 ↔
      Desired instances id row ∧ known.get id ≠ some row.fingerprint) ∧
    (∀ id, .stop id ∈ (planSnapshot instances known).1 ↔
      (known.get id).isSome ∧ ∀ row, Desired instances id row →
        known.get id ≠ some row.fingerprint) ∧
    planSnapshot instances (planSnapshot instances known).2 =
      ([],(planSnapshot instances known).2) :=
  ⟨stopsFirst_planSnapshot known hids,fun _ _ => start_mem_planSnapshot,
    fun _ => stop_mem_planSnapshot hids,planSnapshot_again known hids⟩

end Plan

/-- A changed instance is stopped and started again, a stopped one only stopped. -/
theorem planSnapshot_exact_changed :
    let fingerprint (version : String) : InstanceFingerprint ℕ := ⟨"clock",version,"",0⟩
    let instances : Snapshot ℕ :=
      [(2,⟨fingerprint "2.0.0",.running,0,0⟩),(3,⟨fingerprint "1.0.0",.stopped,0,0⟩)]
    let known : Known ℕ := OrdMap.ofList [(2,fingerprint "1.0.0"),(3,fingerprint "1.0.0")]
    StopsFirst (planSnapshot instances known).1 ∧
      DesiredAction.stop 2 ∈ (planSnapshot instances known).1 ∧
      DesiredAction.stop 3 ∈ (planSnapshot instances known).1 := by
  intro fingerprint instances known
  obtain ⟨hordered,-,hstops,-⟩ := planSnapshot_exact instances known (by decide)
  refine ⟨hordered,(hstops 2).mpr ⟨by decide,?_⟩,(hstops 3).mpr ⟨by decide,?_⟩⟩
  · rintro row ⟨hmem,-⟩
    have hrow : row = ⟨fingerprint "2.0.0",.running,0,0⟩ := by simpa [instances] using hmem
    subst hrow
    decide
  · rintro row ⟨hmem,hrunning⟩
    have hrow : row = ⟨fingerprint "1.0.0",.stopped,0,0⟩ := by simpa [instances] using hmem
    subst hrow
    exact absurd hrunning (by decide)

end Floatile.Shell
