import Mathlib.Algebra.Order.Group.Defs
import Mathlib.Order.Lattice
import Mathlib.Tactic.Abel
import Mathlib.Algebra.Order.Sub.Basic

/-! Spans of a line, given by a start and a length: fitting one into another, which shortens it and
then moves it no further than needed. -/
namespace Floatile.Lib

structure Span (K : Type*) where
  start : K
  length : K

namespace Span

section Order

variable {K : Type*} [Add K] [LE K] [LT K]

/-- The first span lies inside the second. -/
def Within (a b : Span K) : Prop := b.start ≤ a.start ∧ a.start + a.length ≤ b.start + b.length

end Order

section Clamp

variable {K : Type*} [LinearOrder K]

/-- The point raised to a lower bound, then capped by an upper one. -/
def clamp (x lo hi : K) : K := min (max x lo) hi

theorem clamp_of_le {x lo hi : K} (hlo : lo ≤ x) (hhi : x ≤ hi) : clamp x lo hi = x := by
  rw [clamp, max_eq_left hlo, min_eq_left hhi]

theorem le_clamp {lo hi : K} (h : lo ≤ hi) (x : K) : lo ≤ clamp x lo hi :=
  le_min (le_max_right x lo) h

theorem clamp_le (x lo hi : K) : clamp x lo hi ≤ hi := min_le_right _ _

end Clamp

section Fit

variable {K : Type*} [AddCommGroup K] [LinearOrder K]

/-- A span that is given relative to the start of another, fitted into it. -/
def fit (a b : Span K) : Span K :=
  let length := min a.length b.length
  ⟨clamp (b.start + a.start) b.start (b.start + b.length - length),length⟩

variable [IsOrderedAddMonoid K]

theorem fit_within (a b : Span K) : (fit a b).Within b := by
  have hlength : b.start ≤ b.start + b.length - min a.length b.length := by
    rw [add_sub_assoc]
    exact le_add_of_nonneg_right (sub_nonneg.mpr (min_le_right _ _))
  refine ⟨le_clamp hlength _,?_⟩
  exact le_sub_iff_add_le.mp (clamp_le _ _ _)

/-- A span inside another is found again from where it starts there. -/
theorem fit_of_within {a b : Span K} (h : a.Within b) :
    fit ⟨a.start - b.start,a.length⟩ b = a := by
  have hlength : a.length ≤ b.length := by
    refine le_of_add_le_add_left (a := b.start) ?_
    exact (add_le_add_left h.1 _).trans h.2
  have hend : a.start ≤ b.start + b.length - a.length := le_sub_iff_add_le.mpr h.2
  rw [fit, min_eq_left hlength, add_sub_cancel, clamp_of_le h.1 hend]

end Fit

end Span

end Floatile.Lib
