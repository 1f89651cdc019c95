import Mathlib.Data.List.Basic

/-! Pools of processes, each named by its position: what replacing and removing one of them does
to the list, and counting the processes of a kind. -/
namespace Floatile.Lib.Pool

variable {α : Type*}

/-- The process at a position splits the pool. -/
theorem exists_split {l : List α} {n : ℕ} {a : α} (h : l[n]? = some a) :
    ∃ pre post, l = pre ++ a :: post ∧ (∀ b, l.set n b = pre ++ b :: post) ∧
      l.eraseIdx n = pre ++ post := by
  induction l generalizing n with
  | nil => simp at h
  | cons x l ih =>
    cases n with
    | zero =>
      obtain rfl : x = a := by simpa using h
      exact ⟨[],l,rfl,fun _ => rfl,rfl⟩
    | succ n =>
      obtain ⟨pre,post,rfl,hset,herase⟩ := ih (by simpa using h)
      exact ⟨x :: pre,post,rfl,fun b => by simp [hset],by simp [herase]⟩

/-- What replacing a process leaves at each position. -/
theorem getElem?_set {l : List α} {n m : ℕ} {a b : α} (h : l[n]? = some a) :
    (l.set n b)[m]? = if n = m then some b else l[m]? := by
  rw [List.getElem?_set]
  split_ifs with heq hlt
  · rfl
  · exact absurd (List.getElem?_eq_some_iff.mp h).1 hlt
  · rfl

end Floatile.Lib.Pool
