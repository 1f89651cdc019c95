import Mathlib.Data.List.Induction
import Mathlib.Logic.Relation
import Mathlib.Data.Nat.Notation

/-! Labelled transition systems and their runs. A condition on the state before a step and on
its label selects runs; invariants and preorders are carried along them. -/
namespace Floatile.Lib.Transition

open Relation

/-- Initial states and labelled steps. -/
structure System (σ ι : Type*) where
  init : σ → Prop
  step : σ → ι → σ → Prop

namespace System

variable {σ ι : Type*} (S : System σ ι)

/-- A step that meets a condition. -/
def StepWhen (C : σ → ι → Prop) (s s' : σ) : Prop := ∃ i, C s i ∧ S.step s i s'

/-- States at the end of a run all of whose steps meet a condition. -/
def ReachableWhen (C : σ → ι → Prop) (s : σ) : Prop :=
  ∃ s₀, S.init s₀ ∧ ReflTransGen (S.StepWhen C) s₀ s

/-- States at the end of any run. -/
def Reachable (s : σ) : Prop := S.ReachableWhen (fun _ _ => True) s

variable {S} {C : σ → ι → Prop}

theorem ReachableWhen.of_init {s : σ} (h : S.init s) : S.ReachableWhen C s :=
  ⟨s,h,ReflTransGen.refl⟩

theorem ReachableWhen.next {s s' : σ} {i : ι} (h : S.ReachableWhen C s) (hC : C s i)
    (hstep : S.step s i s') : S.ReachableWhen C s' := by
  obtain ⟨s₀,hinit,hrun⟩ := h
  exact ⟨s₀,hinit,hrun.tail ⟨i,hC,hstep⟩⟩

theorem ReachableWhen.reachable {s : σ} (h : S.ReachableWhen C s) : S.Reachable s := by
  obtain ⟨s₀,hinit,hrun⟩ := h
  exact ⟨s₀,hinit,hrun.lift id fun _ _ ⟨i,_,hi⟩ => ⟨i,trivial,hi⟩⟩

/-- What holds initially and is preserved by the steps of a run holds at its end. -/
theorem ReachableWhen.invariant (I : σ → Prop) (hinit : ∀ s, S.init s → I s)
    (hstep : ∀ s i s', I s → C s i → S.step s i s' → I s') {s : σ}
    (h : S.ReachableWhen C s) : I s := by
  obtain ⟨s₀,hs₀,hrun⟩ := h
  induction hrun with
  | refl => exact hinit _ hs₀
  | tail _ hlast ih =>
    obtain ⟨i,hC,hi⟩ := hlast
    exact hstep _ i _ ih hC hi

/-- Steps given by a function. -/
def ofFunction (init : σ → Prop) (next : σ → ι → σ) : System σ ι where
  init := init
  step s i s' := s' = next s i

theorem ReachableWhen.apply {init : σ → Prop} {next : σ → ι → σ} {s : σ} {i : ι}
    (h : (ofFunction init next).ReachableWhen C s) (hC : C s i) :
    (ofFunction init next).ReachableWhen C (next s i) := h.next hC rfl

/-- Steps given by a function that may be undefined. -/
def ofPartial (init : σ → Prop) (next : σ → ι → Option σ) : System σ ι where
  init := init
  step s i s' := next s i = some s'

theorem reachable_foldlM {init : σ → Prop} {next : σ → ι → Option σ} {s s' : σ} {is : List ι}
    (h : (ofPartial init next).Reachable s) (hrun : is.foldlM next s = some s') :
    (ofPartial init next).Reachable s' := by
  induction is generalizing s with
  | nil =>
    cases hrun
    exact h
  | cons i is ih =>
    rw [List.foldlM_cons, Option.bind_eq_bind, Option.bind_eq_some_iff] at hrun
    obtain ⟨t,ht,hrest⟩ := hrun
    exact ih (h.next trivial ht) hrest

/-- Runs of a partial function that stop where a condition fails. -/
def runWhen (next : σ → ι → Option σ) (C : σ → ι → Prop) [∀ s i, Decidable (C s i)] :
    σ → List ι → Option σ
  | s, [] => some s
  | s, i :: is => if C s i then (next s i).bind (fun t => runWhen next C t is) else none

theorem reachableWhen_runWhen {init : σ → Prop} {next : σ → ι → Option σ}
    [∀ s i, Decidable (C s i)] {s s' : σ} {is : List ι}
    (h : (ofPartial init next).ReachableWhen C s) (hrun : runWhen next C s is = some s') :
    (ofPartial init next).ReachableWhen C s' := by
  induction is generalizing s with
  | nil =>
    cases hrun
    exact h
  | cons i is ih =>
    simp only [runWhen, Option.ite_none_right_eq_some, Option.bind_eq_some_iff] at hrun
    obtain ⟨hC,t,ht,hrest⟩ := hrun
    exact ih (h.next hC ht) hrest

variable (S C) in
/-- A given number of steps, all of which meet a condition. -/
def StepsWhen : ℕ → σ → σ → Prop
  | 0, s, s' => s' = s
  | n + 1, s, s' => ∃ t, S.StepWhen C s t ∧ StepsWhen n t s'

/-- A measure that every step lowers bounds the number of steps. -/
theorem StepsWhen.length_le (work : σ → ℕ)
    (hwork : ∀ s i s', C s i → S.step s i s' → work s' < work s) {n : ℕ} {s s' : σ}
    (h : S.StepsWhen C n s s') : n ≤ work s := by
  induction n generalizing s with
  | zero => exact Nat.zero_le _
  | succ n ih =>
    obtain ⟨t,⟨i,hC,hi⟩,hrest⟩ := h
    have hlt := hwork s i t hC hi
    have hle := ih hrest
    omega

theorem reachable_foldl {init : σ → Prop} {next : σ → ι → σ} {s : σ}
    (h : (ofFunction init next).Reachable s) (is : List ι) :
    (ofFunction init next).Reachable (is.foldl next s) := by
  induction is generalizing s with
  | nil => exact h
  | cons i is ih => exact ih (h.next trivial rfl)

/-- A property that a step keeps exactly under a condition holds throughout a run exactly when
every step of the run meets the condition. -/
theorem forall_prefix_iff {next : σ → ι → σ} {I P : σ → Prop}
    (hinvariant : ∀ s i, I s → I (next s i))
    (hstep : ∀ s i, I s → P s → (P (next s i) ↔ C s i)) {s : σ} (hI : I s) (hP : P s)
    (is : List ι) : (∀ pre, pre <+: is → P (pre.foldl next s)) ↔
      ∀ pre i, pre ++ [i] <+: is → C (pre.foldl next s) i := by
  have hreached : ∀ pre : List ι, I (pre.foldl next s) := by
    intro pre
    induction pre using List.reverseRecOn with
    | nil => exact hI
    | append_singleton pre i ih =>
      rw [List.foldl_append]
      exact hinvariant _ _ ih
  constructor
  · intro h pre i hpre
    have hafter := h (pre ++ [i]) hpre
    rw [List.foldl_append] at hafter
    exact (hstep _ i (hreached pre) (h pre ((List.prefix_append pre [i]).trans hpre))).mp hafter
  · intro h pre
    induction pre using List.reverseRecOn with
    | nil => exact fun _ => hP
    | append_singleton pre i ih =>
      intro hpre
      rw [List.foldl_append]
      have hbefore := ih ((List.prefix_append pre [i]).trans hpre)
      exact (hstep _ i (hreached pre) hbefore).mpr (h pre i hpre)

end System

end Floatile.Lib.Transition
