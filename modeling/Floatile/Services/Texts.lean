import Floatile.Lib.Text
import Mathlib.Data.List.Nodup

/-! The texts of zeros and ones of one length. There are far more of them than anything can hold. -/
namespace Floatile.Services

open Floatile.Lib

def bitTexts : ℕ → List String
  | 0 => [""]
  | n + 1 => (bitTexts n).map (fun t => "0" ++ t) ++ (bitTexts n).map (fun t => "1" ++ t)

theorem length_bitTexts (n : ℕ) : (bitTexts n).length = 2^n := by
  induction n with
  | zero => rfl
  | succ n ih =>
    rw [bitTexts, List.length_append, List.length_map, List.length_map, ih, pow_succ]
    omega

theorem nodup_bitTexts (n : ℕ) : (bitTexts n).Nodup := by
  induction n with
  | zero => exact List.nodup_singleton _
  | succ n ih =>
    have hcancel : ∀ (b : String) t t', b ++ t = b ++ t' → t = t' :=
      fun b t t' h => String.append_right_inj b |>.mp h
    rw [bitTexts, List.nodup_append]
    refine ⟨ih.map (hcancel "0"),ih.map (hcancel "1"),?_⟩
    intro a ha b hb heq
    obtain ⟨t,-,rfl⟩ := List.mem_map.mp ha
    obtain ⟨t',-,rfl⟩ := List.mem_map.mp hb
    have hfirst := congrArg String.toList heq
    simp at hfirst

theorem toList_of_mem_bitTexts {n : ℕ} {t : String} (h : t ∈ bitTexts n) :
    t.toList.length = n ∧ ∀ c ∈ t.toList, c = '0' ∨ c = '1' := by
  induction n generalizing t with
  | zero =>
    obtain rfl := List.mem_singleton.mp h
    simp
  | succ n ih =>
    rw [bitTexts, List.mem_append, List.mem_map, List.mem_map] at h
    rcases h with ⟨t,ht,rfl⟩ | ⟨t,ht,rfl⟩
    all_goals
      obtain ⟨hlength,hbits⟩ := ih ht
      simp only [String.toList_append]
      constructor
      · simp [hlength]
      · intro c hc
        rcases List.mem_append.mp hc with hhead | htail
        · simp at hhead
          simp [hhead]
        · exact hbits c htail

theorem byteLen_of_mem_bitTexts {n : ℕ} {t : String} (h : t ∈ bitTexts n) :
    Text.byteLen t = n := by
  induction n generalizing t with
  | zero =>
    obtain rfl := List.mem_singleton.mp h
    rfl
  | succ n ih =>
    rw [bitTexts, List.mem_append, List.mem_map, List.mem_map] at h
    have hbyte : ∀ b t : String, Text.byteLen (b ++ t) = Text.byteLen b + Text.byteLen t :=
      fun b t => String.utf8ByteSize_append
    rcases h with ⟨t,ht,rfl⟩ | ⟨t,ht,rfl⟩
    all_goals
      rw [hbyte, ih ht]
      exact Nat.add_comm 1 n

/-- No bit is a NUL character. -/
theorem not_containsChar_of_mem_bitTexts {n : ℕ} {t : String} (h : t ∈ bitTexts n) :
    Text.containsChar t '\x00' = false := by
  obtain ⟨-,hbits⟩ := toList_of_mem_bitTexts h
  rw [Text.containsChar, List.contains_eq_mem, decide_eq_false_iff_not]
  intro hmem
  rcases hbits _ hmem with hzero | hone
  · exact absurd hzero (by decide)
  · exact absurd hone (by decide)

end Floatile.Services
