import Mathlib.Data.List.Basic

/-! Computations that leave a trace of events, and the order of events in a trace. -/
namespace Floatile.Lib.Trace

/-- What a computation returns, the state it leaves and its events in their order. -/
structure Outcome (σ ω α : Type*) where
  result : α
  state : σ
  trace : List ω

namespace Outcome

variable {σ ω α β : Type*}

/-- The same computation after earlier events. -/
def after (events : List ω) (o : Outcome σ ω α) : Outcome σ ω α :=
  { o with trace := events ++ o.trace }

def map (f : α → β) (o : Outcome σ ω α) : Outcome σ ω β := ⟨f o.result,o.state,o.trace⟩

@[simp] theorem after_result (events : List ω) (o : Outcome σ ω α) :
    (o.after events).result = o.result := rfl

@[simp] theorem after_state (events : List ω) (o : Outcome σ ω α) :
    (o.after events).state = o.state := rfl

@[simp] theorem after_trace (events : List ω) (o : Outcome σ ω α) :
    (o.after events).trace = events ++ o.trace := rfl

@[simp] theorem map_result (f : α → β) (o : Outcome σ ω α) : (o.map f).result = f o.result := rfl

@[simp] theorem map_state (f : α → β) (o : Outcome σ ω α) : (o.map f).state = o.state := rfl

@[simp] theorem map_trace (f : α → β) (o : Outcome σ ω α) : (o.map f).trace = o.trace := rfl

end Outcome

variable {ω : Type*}

/-- Every event with the second property comes after one with the first. -/
def Preceded (P Q : ω → Prop) (t : List ω) : Prop :=
  ∀ pre e post, t = pre ++ e :: post → Q e → ∃ x ∈ pre, P x

@[simp] theorem preceded_nil (P Q : ω → Prop) : Preceded P Q [] := by
  intro pre e post h
  simp at h

@[simp] theorem preceded_cons_iff (P Q : ω → Prop) (x : ω) (t : List ω) :
    Preceded P Q (x :: t) ↔ ¬Q x ∧ (P x ∨ Preceded P Q t) := by
  constructor
  · intro h
    have hx : ¬Q x := fun hQ => by simpa using h [] x t rfl hQ
    refine ⟨hx,or_iff_not_imp_left.mpr fun hP pre e post ht hQ => ?_⟩
    obtain ⟨y,hy,hPy⟩ := h (x :: pre) e post (by rw [ht, List.cons_append]) hQ
    rcases List.mem_cons.mp hy with rfl | hy
    · exact absurd hPy hP
    · exact ⟨y,hy,hPy⟩
  · rintro ⟨hx,h⟩ pre e post ht hQ
    cases pre with
    | nil =>
      obtain ⟨rfl,-⟩ := List.cons.inj ht
      exact absurd hQ hx
    | cons y pre =>
      obtain ⟨rfl,hrest⟩ := List.cons.inj ht
      rcases h with hP | h
      · exact ⟨x,List.mem_cons_self,hP⟩
      · obtain ⟨z,hz,hPz⟩ := h pre e post hrest hQ
        exact ⟨z,List.mem_cons_of_mem x hz,hPz⟩

end Floatile.Lib.Trace
