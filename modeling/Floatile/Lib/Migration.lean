import Mathlib.Data.List.Basic

/-! Migrations, which take a file from one version to the next. Each is a transaction of its own, and
those that the file has already had are skipped. -/
namespace Floatile.Lib.Migration

variable {σ ε : Type*}

/-- The migrations of a file of version `current`. One of them may fail to be committed; those
before it are kept. -/
def run (commitFailed : ℕ → ε) (current : ℕ) (failing : Option ℕ) :
    σ → List (ℕ × (σ → Except ε σ)) → σ × Except ε Unit
  | file, [] => (file,.ok ())
  | file, (version,migration) :: rest =>
    if current < version then
      if failing = some version then (file,.error (commitFailed version))
      else match migration file with
        | .ok file' => run commitFailed current failing file' rest
        | .error e => (file,.error e)
    else run commitFailed current failing file rest

variable {commitFailed : ℕ → ε} {current : ℕ} {failing : Option ℕ} {file : σ}

/-- What every migration keeps is kept, however far they come. -/
theorem run_invariant {P : σ → Prop} {pending : List (ℕ × (σ → Except ε σ))}
    (hstep : ∀ m ∈ pending, ∀ s s', P s → m.2 s = .ok s' → P s') (hfile : P file) :
    P (run commitFailed current failing file pending).1 := by
  induction pending generalizing file with
  | nil => exact hfile
  | cons m rest ih =>
    obtain ⟨version,migration⟩ := m
    obtain ⟨hfirst,hrest⟩ := List.forall_mem_cons.mp hstep
    rw [run]
    split_ifs
    · exact hfile
    · cases hmigration : migration file with
      | ok file' => exact ih hrest (hfirst file file' hfile hmigration)
      | error e => exact hfile
    · exact ih hrest hfile

theorem run_append (xs ys : List (ℕ × (σ → Except ε σ))) :
    run commitFailed current failing file (xs ++ ys) =
      match run commitFailed current failing file xs with
      | (file',.ok ()) => run commitFailed current failing file' ys
      | (file',.error e) => (file',.error e) := by
  induction xs generalizing file with
  | nil => rfl
  | cons m xs ih =>
    obtain ⟨version,migration⟩ := m
    rw [List.cons_append, run, run]
    split_ifs
    · rfl
    · cases hmigration : migration file with
      | ok file' => exact ih
      | error e => rfl
    · exact ih

variable (commitFailed failing) in
/-- Where every migration succeeds on a file of the version before it, the file is of some version
throughout, and of the last one in the end. -/
theorem run_numbered {P : ℕ → σ → Prop} {migration : ℕ → σ → Except ε σ}
    (hstep : ∀ k s, P k s → ∃ s', migration (k + 1) s = .ok s' ∧ P (k + 1) s') (k m : ℕ)
    (hfile : P (max current k) file) :
    let r := run commitFailed current failing file
      ((List.range' (k + 1) m).map fun version => (version,migration version))
    (∃ version, P version r.1) ∧ (r.2 = .ok () → P (max current (k + m)) r.1) := by
  induction m generalizing k file with
  | zero => exact ⟨⟨_,hfile⟩,fun _ => hfile⟩
  | succ m ih =>
    have hsum : k + (m + 1) = k + 1 + m := by omega
    rw [List.range'_succ, List.map_cons, run, hsum]
    split_ifs with hlt hfails
    · exact ⟨⟨_,hfile⟩,by intro hok; cases hok⟩
    · rw [Nat.max_eq_right (Nat.lt_succ_iff.mp hlt)] at hfile
      obtain ⟨file',hmigration,hfile'⟩ := hstep k file hfile
      rw [hmigration]
      refine ih (k + 1) ?_
      rwa [Nat.max_eq_right (Nat.le_of_lt hlt)]
    · refine ih (k + 1) ?_
      rwa [Nat.max_eq_left (Nat.not_lt.mp hlt), ← Nat.max_eq_left (Nat.le_of_succ_le (Nat.not_lt.mp hlt))]

end Floatile.Lib.Migration
