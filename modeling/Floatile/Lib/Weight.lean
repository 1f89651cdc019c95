import Floatile.Lib.SortedMap
import Mathlib.Algebra.GroupWithZero.Nat
import Mathlib.Algebra.Order.Group.Nat
import Mathlib.Algebra.Order.BigOperators.Group.List

/-! The total weight of the entries of an ordered map, for accounts that are kept step by step. -/
namespace Floatile.Lib.OrdMap

variable {κ α : Type*} [LinearOrder κ] (w : κ → α → ℕ)

/-- The sum of the weights of all entries. -/
def weight (m : OrdMap κ α) : ℕ := (m.entries.map (fun e => w e.1 e.2)).sum

/-- The weight of what is under a key. -/
def weightAt (m : OrdMap κ α) (k : κ) : ℕ := ((m.get k).map (w k)).getD 0

@[simp] theorem weight_empty : (empty : OrdMap κ α).weight w = 0 := rfl

theorem weight_insert (m : OrdMap κ α) (k : κ) (a : α) :
    (m.insert k a).weight w = w k a + (m.erase k).weight w := by
  have hperm := SortedMap.insert_perm k a m.ordered
  rw [weight, insert, (hperm.map _).sum_eq, List.map_cons, List.sum_cons]
  rfl

theorem erase_of_get_none {m : OrdMap κ α} {k : κ} (h : m.get k = none) : m.erase k = m := by
  apply eq_of_entries_eq
  refine SortedMap.eq_of_find_eq (m.erase k).ordered m.ordered fun i => ?_
  change (m.erase k).get i = m.get i
  rw [get_erase]
  split_ifs with hik
  · rw [hik, h]
  · rfl

/-- The entry under a key and the others. -/
theorem weight_eq (m : OrdMap κ α) (k : κ) :
    m.weight w = m.weightAt w k + (m.erase k).weight w := by
  cases hget : m.get k with
  | none => simp [weightAt, hget, erase_of_get_none hget]
  | some a =>
    rw [weight, ((SortedMap.perm_of_find hget).map _).sum_eq, List.map_cons, List.sum_cons,
      weightAt, hget]
    rfl

theorem weightAt_le (m : OrdMap κ α) (k : κ) : m.weightAt w k ≤ m.weight w := by
  rw [weight_eq w m k]
  exact Nat.le_add_right _ _

theorem weight_add (w' : κ → α → ℕ) (m : OrdMap κ α) :
    m.weight (fun k a => w k a + w' k a) = m.weight w + m.weight w' := by
  simp [weight, List.sum_map_add]

/-- The keys of a map weigh no more than a list in which they all are. -/
theorem weight_key_le {f : κ → ℕ} {m : OrdMap κ α} {keys : List κ}
    (h : ∀ e ∈ m.entries, e.1 ∈ keys) : m.weight (fun k _ => f k) ≤ (keys.map f).sum := by
  have hnodup : (m.entries.map Prod.fst).Nodup :=
    List.pairwise_map.mpr (m.ordered.imp fun hlt => hlt.ne)
  have hsub : m.entries.map Prod.fst ⊆ keys := by
    intro k hk
    obtain ⟨e,he,rfl⟩ := List.mem_map.mp hk
    exact h e he
  obtain ⟨l,hperm,hsublist⟩ := List.subperm_of_subset hnodup hsub
  calc m.weight (fun k _ => f k) = ((m.entries.map Prod.fst).map f).sum := by
        rw [weight, List.map_map]
        rfl
    _ = (l.map f).sum := ((hperm.map f).sum_eq).symm
    _ ≤ (keys.map f).sum := (hsublist.map f).sum_le_sum fun _ _ => Nat.zero_le _

/-- Keys that are all in a map weigh no more than its keys do. -/
theorem le_weight_key {f : κ → ℕ} {m : OrdMap κ α} {keys : List κ} (hnodup : keys.Nodup)
    (h : ∀ k ∈ keys, (m.get k).isSome) : (keys.map f).sum ≤ m.weight (fun k _ => f k) := by
  have hsub : keys ⊆ m.entries.map Prod.fst := by
    intro k hk
    obtain ⟨a,ha⟩ := Option.isSome_iff_exists.mp (h k hk)
    exact List.mem_map.mpr ⟨(k,a),(m.mem_entries_iff k a).mpr ha,rfl⟩
  obtain ⟨l,hperm,hsublist⟩ := List.subperm_of_subset hnodup hsub
  calc (keys.map f).sum = (l.map f).sum := ((hperm.map f).sum_eq).symm
    _ ≤ ((m.entries.map Prod.fst).map f).sum :=
        (hsublist.map f).sum_le_sum fun _ _ => Nat.zero_le _
    _ = m.weight (fun k _ => f k) := by
        rw [weight, List.map_map]
        rfl

end Floatile.Lib.OrdMap
