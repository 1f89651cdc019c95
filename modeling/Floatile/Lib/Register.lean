import Mathlib.Data.List.Basic
import Mathlib.Logic.Function.Basic

/-! Registers that accept a value only if it may replace the one they hold. -/
namespace Floatile.Lib.Register

variable {κ β : Type*} [DecidableEq κ] (replaces : β → β → Prop)

/-- The value may be written: the register is empty or holds a value that it replaces. -/
def Admits (m : κ → Option β) (x : κ × β) : Prop := ∀ a ∈ m x.1, replaces a x.2

def put (m : κ → Option β) (x : κ × β) : κ → Option β := Function.update m x.1 (some x.2)

/-- Writes in order, each admitted when its turn comes. -/
def AllAdmitted : (κ → Option β) → List (κ × β) → Prop
  | _, [] => True
  | m, x :: xs => Admits replaces m x ∧ AllAdmitted (put m x) xs

def putAll (m : κ → Option β) (xs : List (κ × β)) : κ → Option β := xs.foldl put m

@[simp] theorem putAll_nil (m : κ → Option β) : putAll m [] = m := rfl

@[simp] theorem putAll_cons (m : κ → Option β) (x : κ × β) (xs : List (κ × β)) :
    putAll m (x :: xs) = putAll (put m x) xs := rfl

@[simp] theorem put_self (m : κ → Option β) (x : κ × β) : put m x x.1 = some x.2 := by
  simp [put]

theorem put_of_ne (m : κ → Option β) (x : κ × β) {k : κ} (h : k ≠ x.1) : put m x k = m k := by
  simp [put, h]

/-- A register that is not written keeps its value. -/
theorem putAll_of_notMem (m : κ → Option β) (xs : List (κ × β)) {k : κ}
    (h : ∀ x ∈ xs, x.1 ≠ k) : putAll m xs k = m k := by
  induction xs generalizing m with
  | nil => rfl
  | cons x xs ih =>
    rw [List.forall_mem_cons] at h
    rw [putAll_cons, ih (put m x) h.2, put_of_ne m x h.1.symm]

/-- A register whose writes all agree holds their value at the end. -/
theorem putAll_of_mem (m : κ → Option β) (xs : List (κ × β))
    (hagree : ∀ x ∈ xs, ∀ y ∈ xs, x.1 = y.1 → x.2 = y.2) {x : κ × β} (hx : x ∈ xs) :
    putAll m xs x.1 = some x.2 := by
  induction xs generalizing m x with
  | nil => simp at hx
  | cons y ys ih =>
    rw [putAll_cons]
    by_cases hlater : ∃ z ∈ ys, z.1 = x.1
    · obtain ⟨z,hz,hkey⟩ := hlater
      have hvalue : z.2 = x.2 := hagree z (List.mem_cons_of_mem y hz) x hx hkey
      rw [← hkey, ← hvalue]
      exact ih (put m y) (fun a ha b hb => hagree a (List.mem_cons_of_mem y ha) b
        (List.mem_cons_of_mem y hb)) hz
    · have hy : x = y := by
        rcases List.mem_cons.mp hx with rfl | hxs
        · rfl
        · exact absurd ⟨x,hxs,rfl⟩ hlater
      subst hy
      rw [putAll_of_notMem (put m x) ys (fun z hz hkey => hlater ⟨z,hz,hkey⟩), put_self]

variable {replaces}

/-- Writes that agree are all admitted if they are admitted at the start. -/
theorem allAdmitted_of_agree (hrefl : ∀ b, replaces b b) (m : κ → Option β) (xs : List (κ × β))
    (hadmits : ∀ x ∈ xs, Admits replaces m x)
    (hagree : ∀ x ∈ xs, ∀ y ∈ xs, x.1 = y.1 → x.2 = y.2) : AllAdmitted replaces m xs := by
  induction xs generalizing m with
  | nil => trivial
  | cons x xs ih =>
    refine ⟨hadmits x List.mem_cons_self,ih (put m x) ?_ ?_⟩
    · intro y hy a ha
      by_cases hkey : y.1 = x.1
      · rw [hkey, put_self] at ha
        obtain rfl := Option.some.inj ha
        have hvalue := hagree x List.mem_cons_self y (List.mem_cons_of_mem x hy) hkey.symm
        exact hvalue ▸ hrefl x.2
      · rw [put_of_ne m x hkey] at ha
        exact hadmits y (List.mem_cons_of_mem x hy) a ha
    · exact fun y hy z hz => hagree y (List.mem_cons_of_mem x hy) z (List.mem_cons_of_mem x hz)

/-- Admitted writes that agree are admitted at the start. -/
theorem admits_of_allAdmitted (m : κ → Option β) (xs : List (κ × β))
    (h : AllAdmitted replaces m xs) (hagree : ∀ x ∈ xs, ∀ y ∈ xs, x.1 = y.1 → x.2 = y.2) :
    ∀ x ∈ xs, Admits replaces m x := by
  induction xs generalizing m with
  | nil => simp
  | cons x xs ih =>
    obtain ⟨hx,hrest⟩ := h
    have hlater := ih (put m x) hrest (fun y hy z hz => hagree y (List.mem_cons_of_mem x hy) z
      (List.mem_cons_of_mem x hz))
    intro y hy
    rcases List.mem_cons.mp hy with rfl | hys
    · exact hx
    · by_cases hkey : y.1 = x.1
      · have hvalue := hagree y hy x List.mem_cons_self hkey
        intro a ha
        rw [hkey] at ha
        exact hvalue ▸ hx a ha
      · intro a ha
        exact hlater y hys a (by rw [put_of_ne m x hkey]; exact ha)

/-- All writes are admitted and each is what its register holds at the end exactly when they are
admitted at the start and writes to one register agree. -/
theorem allAdmitted_and_kept_iff (hrefl : ∀ b, replaces b b) (m : κ → Option β)
    (xs : List (κ × β)) :
    (AllAdmitted replaces m xs ∧ ∀ x ∈ xs, putAll m xs x.1 = some x.2) ↔
      (∀ x ∈ xs, Admits replaces m x) ∧ ∀ x ∈ xs, ∀ y ∈ xs, x.1 = y.1 → x.2 = y.2 := by
  constructor
  · rintro ⟨hadmitted,hkept⟩
    have hagree : ∀ x ∈ xs, ∀ y ∈ xs, x.1 = y.1 → x.2 = y.2 := by
      intro x hx y hy hkey
      have hxy : some x.2 = some y.2 := by rw [← hkept x hx, ← hkept y hy, hkey]
      exact Option.some.inj hxy
    exact ⟨admits_of_allAdmitted m xs hadmitted hagree,hagree⟩
  · rintro ⟨hadmits,hagree⟩
    exact ⟨allAdmitted_of_agree hrefl m xs hadmits hagree,
      fun x hx => putAll_of_mem m xs hagree hx⟩

end Floatile.Lib.Register
