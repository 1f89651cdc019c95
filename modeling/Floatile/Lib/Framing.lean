import Mathlib.Data.List.Basic

/-! Codes that tell where they end, so that what is written after one another can be read back. -/
namespace Floatile.Lib

variable {α α' β : Type*}

/-- The code of a value in `p` and what follows it are determined by the two written together. -/
def Framed (p : α → Prop) (code : α → List β) : Prop :=
  ∀ ⦃a b⦄, p a → p b → ∀ ⦃r s⦄, code a ++ r = code b ++ s → a = b ∧ r = s

namespace Framed

variable {p : α → Prop} {code : α → List β}

/-- A code of fixed length. -/
theorem of_length {n : ℕ} (hlength : ∀ a, (code a).length = n)
    (hinj : ∀ ⦃a b⦄, p a → p b → code a = code b → a = b) : Framed p code := by
  intro a b ha hb r s h
  obtain ⟨hcode,hrest⟩ := List.append_inj h ((hlength a).trans (hlength b).symm)
  exact ⟨hinj ha hb hcode,hrest⟩

theorem append_separator {l l' r s : List β} {z : β} (hl : z ∉ l) (hl' : z ∉ l')
    (h : l ++ z :: r = l' ++ z :: s) : l = l' ∧ r = s := by
  induction l generalizing l' with
  | nil =>
    cases l' with
    | nil => exact ⟨rfl,(List.cons.inj h).2⟩
    | cons b l' =>
      refine absurd ?_ hl'
      rw [(List.cons.inj h).1]
      exact List.mem_cons_self
  | cons a l ih =>
    cases l' with
    | nil =>
      refine absurd ?_ hl
      rw [← (List.cons.inj h).1]
      exact List.mem_cons_self
    | cons b l' =>
      obtain ⟨rfl,hrest⟩ := List.cons.inj h
      obtain ⟨rfl,hsame⟩ := ih (fun hz => hl (List.mem_cons_of_mem _ hz))
        (fun hz => hl' (List.mem_cons_of_mem _ hz)) hrest
      exact ⟨rfl,hsame⟩

/-- A code that ends with a separator which does not occur before. -/
theorem terminated {z : β} (hfree : ∀ a, p a → z ∉ code a)
    (hinj : ∀ ⦃a b⦄, p a → p b → code a = code b → a = b) :
    Framed p (fun a => code a ++ [z]) := by
  intro a b ha hb r s h
  simp only [List.append_assoc, List.singleton_append] at h
  obtain ⟨hcode,hrest⟩ := append_separator (hfree a ha) (hfree b hb) h
  exact ⟨hinj ha hb hcode,hrest⟩

/-- A code after another. -/
theorem append {p' : α' → Prop} {code' : α' → List β} (h : Framed p code)
    (h' : Framed p' code') :
    Framed (fun e : α × α' => p e.1 ∧ p' e.2) (fun e => code e.1 ++ code' e.2) := by
  rintro ⟨a,a'⟩ ⟨b,b'⟩ ⟨ha,ha'⟩ ⟨hb,hb'⟩ r s hcodes
  simp only [List.append_assoc] at hcodes
  obtain ⟨rfl,hrest⟩ := h ha hb hcodes
  obtain ⟨rfl,hsame⟩ := h' ha' hb' hrest
  exact ⟨rfl,hsame⟩

/-- A text after its length. -/
theorem lengthPrefixed {q : ℕ → Prop} {count : ℕ → List β} (h : Framed q count) :
    Framed (fun l : List β => q l.length) (fun l => count l.length ++ l) := by
  intro l l' hl hl' r s hcodes
  simp only [List.append_assoc] at hcodes
  obtain ⟨hlength,hrest⟩ := h hl hl' hcodes
  exact List.append_inj hrest hlength

/-- Codes written after one another determine the values, when no code is empty. -/
theorem flatMap_inj (h : Framed p code) (hne : ∀ a, code a ≠ []) {l l' : List α}
    (hl : ∀ a ∈ l, p a) (hl' : ∀ a ∈ l', p a) (hcodes : l.flatMap code = l'.flatMap code) :
    l = l' := by
  induction l generalizing l' with
  | nil =>
    cases l' with
    | nil => rfl
    | cons b l' => exact absurd (List.append_eq_nil_iff.mp hcodes.symm).1 (hne b)
  | cons a l ih =>
    cases l' with
    | nil => exact absurd (List.append_eq_nil_iff.mp hcodes).1 (hne a)
    | cons b l' =>
      obtain ⟨rfl,hrest⟩ := h (hl a List.mem_cons_self) (hl' b List.mem_cons_self) hcodes
      rw [ih (fun a ha => hl a (List.mem_cons_of_mem _ ha))
        (fun a ha => hl' a (List.mem_cons_of_mem _ ha)) hrest]

end Framed

end Floatile.Lib
