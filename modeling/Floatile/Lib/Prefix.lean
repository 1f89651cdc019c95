import Mathlib.Data.Nat.Bitwise
import Mathlib.Tactic.Ring

/-! Ranges of numbers of a fixed width that share their leading bits, and the tests of leading
bits by masks. -/
namespace Floatile.Lib

/-- The numbers of `w` bits that agree with a base in the leading `length` bits. -/
structure Prefix (w : ℕ) where
  base : ℕ
  length : ℕ
  deriving DecidableEq, Repr

namespace Prefix

variable {w : ℕ}

def contains (p : Prefix w) (n : ℕ) : Bool :=
  n / 2^(w - p.length) = p.base / 2^(w - p.length)

theorem contains_iff {p : Prefix w} {n : ℕ} :
    p.contains n = true ↔ n / 2^(w - p.length) = p.base / 2^(w - p.length) := decide_eq_true_iff

variable {v j k m x y r : ℕ}

theorem mul_add_div_two_pow (hr : r < 2^j) : (m * 2^j + r) / 2^j = m := by
  rw [Nat.mul_comm,Nat.mul_add_div (Nat.two_pow_pos j),Nat.div_eq_of_lt hr,Nat.add_zero]

/-- The digits below the prefix do not matter. -/
theorem contains_drop (hr : r < 2^j) (hlength : k ≤ v) :
    (⟨x * 2^j,k⟩ : Prefix (v + j)).contains (m * 2^j + r) = true ↔
      (⟨x,k⟩ : Prefix v).contains m = true := by
  have hshift : v + j - k = j + (v - k) := by omega
  rw [contains_iff,contains_iff]
  dsimp only
  rw [hshift,pow_add,← Nat.div_div_eq_div_mul,← Nat.div_div_eq_div_mul,mul_add_div_two_pow hr,
    Nat.mul_div_cancel _ (Nat.two_pow_pos j)]

/-- A prefix that reaches into the last digit fixes the digits before it. -/
theorem contains_digit (hr : r < 2^j) (hy : y < 2^j) (hlength : k ≤ j) :
    (⟨x * 2^j + y,v + k⟩ : Prefix (v + j)).contains (m * 2^j + r) = true ↔
      m = x ∧ (⟨y,k⟩ : Prefix j).contains r = true := by
  have hshift : v + j - (v + k) = j - k := by omega
  have hsplit : 2^j = 2^k * 2^(j - k) := by
    rw [← pow_add,Nat.add_sub_cancel' hlength]
  have hhigh : ∀ a b : ℕ, (a * 2^j + b) / 2^(j - k) = a * 2^k + b / 2^(j - k) := by
    intro a b
    rw [hsplit,← Nat.mul_assoc,Nat.mul_comm _ (2^(j - k)),
      Nat.mul_add_div (Nat.two_pow_pos _)]
  have hlow : ∀ b, b < 2^j → b / 2^(j - k) < 2^k := by
    intro b hb
    rw [Nat.div_lt_iff_lt_mul (Nat.two_pow_pos _),← hsplit]
    exact hb
  rw [contains_iff,contains_iff]
  dsimp only
  rw [hshift,hhigh,hhigh]
  constructor
  · intro h
    have hm : m = x := by
      rw [← mul_add_div_two_pow (m := m) (hlow r hr),h,mul_add_div_two_pow (hlow y hy)]
    rw [hm] at h
    exact ⟨hm,Nat.add_left_cancel h⟩
  · rintro ⟨rfl,h⟩
    rw [h]

end Prefix

/-- A mask of the leading bits clears the bits below them. -/
theorem and_highBits {n w k : ℕ} (hn : n < 2^w) (hk : k ≤ w) :
    n &&& (2^w - 2^k) = n / 2^k * 2^k := by
  have hmask : 2^w - 2^k = (2^(w-k) - 1) * 2^k := by
    rw [Nat.sub_mul,← pow_add,one_mul,Nat.sub_add_cancel hk]
  apply Nat.eq_of_testBit_eq
  intro i
  rw [Nat.testBit_and,hmask,Nat.testBit_mul_two_pow,Nat.testBit_mul_two_pow,
    Nat.testBit_two_pow_sub_one,Nat.testBit_div_two_pow]
  by_cases hi : k ≤ i
  · by_cases hw : i - k < w - k
    · simp [hi, hw]
    · have hout : n.testBit i = false := by
        apply Nat.testBit_lt_two_pow
        exact hn.trans_le (Nat.pow_le_pow_right (by omega) (by omega))
      simp [hi, hw, hout]
  · simp [hi]

/-- So a masked comparison compares the leading bits. -/
theorem and_highBits_eq_iff {n w k b : ℕ} (hn : n < 2^w) (hk : k ≤ w) :
    n &&& (2^w - 2^k) = b * 2^k ↔ n / 2^k = b := by
  rw [and_highBits hn hk]
  exact Nat.mul_left_inj (Nat.two_pow_pos k).ne'

end Floatile.Lib
