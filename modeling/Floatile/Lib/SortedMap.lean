import Mathlib.Order.Lattice
import Mathlib.Data.List.Pairwise

/-! Ordered maps as association lists in increasing key order. `insert` replaces the value of a
key that is present, so building a map from a list keeps the last value of every key. -/
namespace Floatile.Lib.SortedMap

variable {κ α : Type*} [LinearOrder κ]

def find (k : κ) : List (κ × α) → Option α
  | [] => none
  | (j,a) :: m => if j = k then some a else find k m

def insert (k : κ) (a : α) : List (κ × α) → List (κ × α)
  | [] => [(k,a)]
  | (j,b) :: m =>
    if k < j then (k,a) :: (j,b) :: m
    else if j = k then (k,a) :: m
    else (j,b) :: insert k a m

def erase (k : κ) : List (κ × α) → List (κ × α)
  | [] => []
  | (j,b) :: m => if j = k then m else (j,b) :: erase k m

/-- Entries inserted one by one, so that a later entry replaces an earlier one. -/
def ofList (entries : List (κ × α)) : List (κ × α) :=
  entries.foldl (fun m e => insert e.1 e.2 m) []

/-- Keys strictly increase. -/
def Ordered (m : List (κ × α)) : Prop := m.Pairwise (fun x y => x.1 < y.1)

@[simp] theorem find_nil (k : κ) : find k ([] : List (κ × α)) = none := rfl

@[simp] theorem find_cons (k j : κ) (a : α) (m : List (κ × α)) :
    find k ((j,a) :: m) = if j = k then some a else find k m := rfl

@[simp] theorem find_insert_self (k : κ) (a : α) (m : List (κ × α)) :
    find k (insert k a m) = some a := by
  induction m with
  | nil => simp [insert]
  | cons e m ih =>
    obtain ⟨j,b⟩ := e
    simp only [insert]
    split_ifs with hlt heq <;> simp_all

theorem find_insert_of_ne {k i : κ} (h : i ≠ k) (a : α) (m : List (κ × α)) :
    find i (insert k a m) = find i m := by
  induction m with
  | nil => simp [insert, h.symm]
  | cons e m ih =>
    obtain ⟨j,b⟩ := e
    simp only [insert]
    split_ifs with hlt heq
    · simp [h.symm]
    · subst heq
      simp [h.symm]
    · simp [ih]

theorem find_insert (k i : κ) (a : α) (m : List (κ × α)) :
    find i (insert k a m) = if i = k then some a else find i m := by
  split_ifs with h
  · rw [h, find_insert_self]
  · exact find_insert_of_ne h a m

/-- A key that is found heads one of the entries. -/
theorem mem_of_find {k : κ} {a : α} {m : List (κ × α)} (h : find k m = some a) :
    (k,a) ∈ m := by
  induction m with
  | nil => simp at h
  | cons e m ih =>
    obtain ⟨j,b⟩ := e
    simp only [find_cons] at h
    split_ifs at h with hjk
    · obtain rfl := Option.some.inj h
      simp [hjk]
    · exact List.mem_cons_of_mem _ (ih h)

/-- Every entry's key is found. -/
theorem find_isSome_of_mem {e : κ × α} {m : List (κ × α)} (h : e ∈ m) :
    (find e.1 m).isSome := by
  induction m with
  | nil => simp at h
  | cons e' m ih =>
    obtain ⟨j,b⟩ := e'
    simp only [find_cons]
    split_ifs with hj
    · rfl
    · rcases List.mem_cons.mp h with rfl | hm
      · exact absurd rfl hj
      · exact ih hm

/-- Building from a list finds, for every key, the value of its last entry. -/
theorem find_foldl_insert (k : κ) (entries m : List (κ × α)) :
    find k (entries.foldl (fun m e => insert e.1 e.2 m) m) =
      ((entries.reverse.find? (fun e => e.1 = k)).map Prod.snd).or (find k m) := by
  induction entries generalizing m with
  | nil => simp
  | cons e entries ih =>
    rw [List.foldl_cons, ih, List.reverse_cons, List.find?_append]
    cases hlast : entries.reverse.find? (fun e => e.1 = k) with
    | some e' => simp
    | none =>
      by_cases hk : e.1 = k
      · simp [hk]
      · simp [hk, find_insert_of_ne (Ne.symm hk)]

theorem find_ofList (k : κ) (entries : List (κ × α)) :
    find k (ofList entries) = (entries.reverse.find? (fun e => e.1 = k)).map Prod.snd := by
  rw [ofList, find_foldl_insert]
  simp

theorem find_ofList_isSome_of_mem {e : κ × α} {entries : List (κ × α)} (h : e ∈ entries) :
    (find e.1 (ofList entries)).isSome := by
  rw [find_ofList, Option.isSome_map, List.find?_isSome]
  exact ⟨e,List.mem_reverse.mpr h,by simp⟩

theorem mem_insert {k : κ} {a : α} {m : List (κ × α)} {e : κ × α} (h : e ∈ insert k a m) :
    e = (k,a) ∨ e ∈ m := by
  induction m with
  | nil => simpa [insert] using h
  | cons e' m ih =>
    obtain ⟨j,b⟩ := e'
    simp only [insert] at h
    split_ifs at h with hlt heq
    · simpa using h
    · rcases List.mem_cons.mp h with h | h
      · exact Or.inl h
      · exact Or.inr (List.mem_cons_of_mem _ h)
    · rcases List.mem_cons.mp h with h | h
      · exact Or.inr (by simp [h])
      · exact (ih h).imp_right (List.mem_cons_of_mem _)

theorem ordered_insert (k : κ) (a : α) {m : List (κ × α)} (h : Ordered m) :
    Ordered (insert k a m) := by
  induction m with
  | nil => simp [insert, Ordered]
  | cons e m ih =>
    obtain ⟨j,b⟩ := e
    obtain ⟨hhead,htail⟩ := List.pairwise_cons.mp h
    simp only [insert]
    split_ifs with hlt heq
    · refine List.pairwise_cons.mpr ⟨?_,h⟩
      intro x hx
      rcases List.mem_cons.mp hx with rfl | hx
      · exact hlt
      · exact hlt.trans (hhead x hx)
    · subst heq
      exact List.pairwise_cons.mpr ⟨hhead,htail⟩
    · refine List.pairwise_cons.mpr ⟨?_,ih htail⟩
      intro x hx
      rcases mem_insert hx with rfl | hx
      · exact lt_of_le_of_ne (not_lt.mp hlt) heq
      · exact hhead x hx

theorem ordered_foldl_insert (entries : List (κ × α)) {m : List (κ × α)} (h : Ordered m) :
    Ordered (entries.foldl (fun m e => insert e.1 e.2 m) m) := by
  induction entries generalizing m with
  | nil => exact h
  | cons e entries ih => exact ih (ordered_insert e.1 e.2 h)

theorem ordered_ofList (entries : List (κ × α)) : Ordered (ofList entries) :=
  ordered_foldl_insert entries List.Pairwise.nil

theorem find_erase_of_ne {k i : κ} (h : i ≠ k) (m : List (κ × α)) :
    find i (erase k m) = find i m := by
  induction m with
  | nil => rfl
  | cons e m ih =>
    obtain ⟨j,b⟩ := e
    simp only [erase]
    split_ifs with hjk
    · subst hjk
      simp [h.symm]
    · simp [ih]

theorem erase_sublist (k : κ) (m : List (κ × α)) : (erase k m).Sublist m := by
  induction m with
  | nil => exact List.Sublist.refl _
  | cons e m ih =>
    obtain ⟨j,b⟩ := e
    simp only [erase]
    split_ifs with hjk
    · exact List.sublist_cons_self _ _
    · exact ih.cons_cons _

theorem ordered_erase (k : κ) {m : List (κ × α)} (h : Ordered m) : Ordered (erase k m) :=
  List.Pairwise.sublist (erase_sublist k m) h

theorem find_eq_none_of_lt {k : κ} {m : List (κ × α)} (h : ∀ e ∈ m, k < e.1) :
    find k m = none := by
  induction m with
  | nil => rfl
  | cons e m ih =>
    obtain ⟨j,b⟩ := e
    obtain ⟨hj,hm⟩ := List.forall_mem_cons.mp h
    rw [find_cons, if_neg hj.ne', ih hm]

theorem find_erase_self {k : κ} {m : List (κ × α)} (h : Ordered m) :
    find k (erase k m) = none := by
  induction m with
  | nil => rfl
  | cons e m ih =>
    obtain ⟨j,b⟩ := e
    obtain ⟨hhead,htail⟩ := List.pairwise_cons.mp h
    simp only [erase]
    split_ifs with hjk
    · subst hjk
      exact find_eq_none_of_lt hhead
    · rw [find_cons, if_neg hjk, ih htail]

theorem erase_of_lt {k : κ} {m : List (κ × α)} (h : ∀ e ∈ m, k < e.1) : erase k m = m := by
  induction m with
  | nil => rfl
  | cons e m ih =>
    obtain ⟨j,b⟩ := e
    obtain ⟨hj,hm⟩ := List.forall_mem_cons.mp h
    rw [erase, if_neg hj.ne', ih hm]

/-- An entry that is found can be taken to the front. -/
theorem perm_of_find {k : κ} {a : α} {m : List (κ × α)} (h : find k m = some a) :
    m.Perm ((k,a) :: erase k m) := by
  induction m with
  | nil => cases h
  | cons e m ih =>
    obtain ⟨j,b⟩ := e
    rw [find_cons] at h
    rw [erase]
    split_ifs at h ⊢ with hjk
    · cases h
      rw [hjk]
    · exact ((ih h).cons (j,b)).trans (List.Perm.swap _ _ _)

theorem insert_perm (k : κ) (a : α) {m : List (κ × α)} (h : Ordered m) :
    (insert k a m).Perm ((k,a) :: erase k m) := by
  induction m with
  | nil => exact List.Perm.refl _
  | cons e m ih =>
    obtain ⟨j,b⟩ := e
    obtain ⟨hhead,htail⟩ := List.pairwise_cons.mp h
    rw [insert]
    split_ifs with hlt hjk
    · rw [erase_of_lt (fun e he => ?_)]
      rcases List.mem_cons.mp he with rfl | he
      · exact hlt
      · exact hlt.trans (hhead e he)
    · rw [erase, if_pos hjk]
    · rw [erase, if_neg hjk]
      exact ((ih htail).cons (j,b)).trans (List.Perm.swap _ _ _)

/-- Every entry of an ordered list is the one found under its key. -/
theorem find_of_mem {e : κ × α} {m : List (κ × α)} (h : Ordered m) (he : e ∈ m) :
    find e.1 m = some e.2 := by
  induction m with
  | nil => simp at he
  | cons e' m ih =>
    obtain ⟨j,b⟩ := e'
    obtain ⟨hhead,htail⟩ := List.pairwise_cons.mp h
    rcases List.mem_cons.mp he with rfl | hm
    · simp [find]
    · rw [find_cons, if_neg (hhead e hm).ne, ih htail hm]

/-- Building from an ordered list keeps every entry. -/
theorem find_ofList_of_mem {e : κ × α} {m : List (κ × α)} (h : Ordered m) (he : e ∈ m) :
    find e.1 (ofList m) = some e.2 := by
  rw [find_ofList]
  have hfound : (m.reverse.find? (fun x => x.1 = e.1)).isSome :=
    List.find?_isSome.mpr ⟨e,List.mem_reverse.mpr he,by simp⟩
  obtain ⟨x,hx⟩ := Option.isSome_iff_exists.mp hfound
  have hkey : x.1 = e.1 := by simpa using List.find?_some hx
  have hmem : x ∈ m := List.mem_reverse.mp (List.mem_of_find?_eq_some hx)
  have hvalue := find_of_mem h hmem
  rw [hkey, find_of_mem h he] at hvalue
  rw [hx, Option.map_some, hvalue]

theorem insert_of_lt {k : κ} (a : α) {m : List (κ × α)} (h : ∀ e ∈ m, k < e.1) :
    insert k a m = (k,a) :: m := by
  cases m with
  | nil => rfl
  | cons e m =>
    obtain ⟨j,b⟩ := e
    rw [insert, if_pos (h (j,b) List.mem_cons_self)]

/-- Putting back what was found leaves the list as it was. -/
theorem insert_erase {k : κ} {a : α} {m : List (κ × α)} (hordered : Ordered m)
    (h : find k m = some a) : insert k a (erase k m) = m := by
  induction m with
  | nil => cases h
  | cons e m ih =>
    obtain ⟨j,b⟩ := e
    obtain ⟨hhead,htail⟩ := List.pairwise_cons.mp hordered
    rw [find_cons] at h
    simp only [erase]
    split_ifs at h ⊢ with hjk
    · obtain rfl := Option.some.inj h
      subst hjk
      exact insert_of_lt b hhead
    · have hlt : j < k := hhead (k,a) (mem_of_find h)
      rw [insert, if_neg hlt.not_gt, if_neg hjk, ih htail h]

theorem length_insert_le (k : κ) (a : α) (m : List (κ × α)) :
    (insert k a m).length ≤ m.length + 1 := by
  induction m with
  | nil => simp [insert]
  | cons e m ih =>
    obtain ⟨j,b⟩ := e
    simp only [insert]
    split_ifs <;> simp_all

/-- Ordered lists in which every key finds the same are the same. -/
theorem eq_of_find_eq {m m' : List (κ × α)} (hm : Ordered m) (hm' : Ordered m')
    (h : ∀ k, find k m = find k m') : m = m' := by
  have hmem : ∀ e, e ∈ m ↔ e ∈ m' := by
    intro e
    constructor
    · intro he
      exact mem_of_find ((h e.1).symm.trans (find_of_mem hm he))
    · intro he
      exact mem_of_find ((h e.1).trans (find_of_mem hm' he))
  have hperm : m.Perm m' := (List.perm_ext_iff_of_nodup (hm.imp fun hlt heq => hlt.ne
    (congrArg Prod.fst heq)) (hm'.imp fun hlt heq => hlt.ne (congrArg Prod.fst heq))).mpr hmem
  exact hperm.eq_of_pairwise (fun _ _ _ _ hab hba => absurd hab hba.not_gt) hm hm'

/-- Building from an ordered list gives that list. -/
theorem ofList_of_ordered {m : List (κ × α)} (h : Ordered m) : ofList m = m := by
  refine eq_of_find_eq (ordered_ofList m) h fun k => ?_
  cases hfound : find k m with
  | some a => exact find_ofList_of_mem h (mem_of_find hfound)
  | none =>
    rw [find_ofList, Option.map_eq_none_iff, List.find?_eq_none]
    intro e he hk
    have hsome := find_of_mem h (List.mem_reverse.mp he)
    rw [show e.1 = k by simpa using hk, hfound] at hsome
    cases hsome

section Values

variable {β : Type*} (f : α → β)

/-- The same keys with converted values. -/
def mapValues (m : List (κ × α)) : List (κ × β) := m.map (fun e => (e.1,f e.2))

theorem find_mapValues (k : κ) (m : List (κ × α)) :
    find k (mapValues f m) = (find k m).map f := by
  induction m with
  | nil => rfl
  | cons e m ih =>
    obtain ⟨j,a⟩ := e
    simp only [mapValues, List.map_cons, find_cons] at ih ⊢
    split_ifs <;> simp [ih]

theorem insert_mapValues (k : κ) (a : α) (m : List (κ × α)) :
    insert k (f a) (mapValues f m) = mapValues f (insert k a m) := by
  induction m with
  | nil => rfl
  | cons e m ih =>
    obtain ⟨j,b⟩ := e
    simp only [mapValues, List.map_cons, insert] at ih ⊢
    split_ifs <;> simp [ih]

theorem ofList_mapValues (entries : List (κ × α)) :
    ofList (mapValues f entries) = mapValues f (ofList entries) := by
  have hfold : ∀ m : List (κ × α),
      (mapValues f entries).foldl (fun m e => insert e.1 e.2 m) (mapValues f m) =
        mapValues f (entries.foldl (fun m e => insert e.1 e.2 m) m) := by
    induction entries with
    | nil => exact fun m => rfl
    | cons e entries ih =>
      intro m
      have hinsert := insert_mapValues f e.1 e.2 m
      have hih := ih (insert e.1 e.2 m)
      rw [← hinsert] at hih
      exact hih
  exact hfold []

theorem ordered_mapValues {m : List (κ × α)} (h : Ordered m) : Ordered (mapValues f m) :=
  List.pairwise_map.mpr h

theorem erase_mapValues (k : κ) (m : List (κ × α)) :
    erase k (mapValues f m) = mapValues f (erase k m) := by
  induction m with
  | nil => rfl
  | cons e m ih =>
    obtain ⟨j,b⟩ := e
    simp only [mapValues, List.map_cons, erase] at ih ⊢
    split_ifs <;> simp [ih]

end Values

end Floatile.Lib.SortedMap

namespace Floatile.Lib

/-- A map whose entries are kept in increasing key order. -/
structure OrdMap (κ α : Type*) [LinearOrder κ] where
  entries : List (κ × α)
  ordered : SortedMap.Ordered entries

namespace OrdMap

variable {κ α : Type*} [LinearOrder κ]

def empty : OrdMap κ α := ⟨[],List.Pairwise.nil⟩

def ofList (entries : List (κ × α)) : OrdMap κ α :=
  ⟨SortedMap.ofList entries,SortedMap.ordered_ofList entries⟩

def get (m : OrdMap κ α) (k : κ) : Option α := SortedMap.find k m.entries

def insert (m : OrdMap κ α) (k : κ) (a : α) : OrdMap κ α :=
  ⟨SortedMap.insert k a m.entries,SortedMap.ordered_insert k a m.ordered⟩

def erase (m : OrdMap κ α) (k : κ) : OrdMap κ α :=
  ⟨SortedMap.erase k m.entries,SortedMap.ordered_erase k m.ordered⟩

/-- The entries whose keys satisfy a condition. -/
def filterKeys (m : OrdMap κ α) (p : κ → Bool) : OrdMap κ α :=
  ⟨m.entries.filter (fun e => p e.1),m.ordered.filter _⟩

def mapValues {β : Type*} (f : α → β) (m : OrdMap κ α) : OrdMap κ β :=
  ⟨SortedMap.mapValues f m.entries,SortedMap.ordered_mapValues f m.ordered⟩

theorem ofList_mapValues {β : Type*} (f : α → β) (entries : List (κ × α)) :
    ofList (SortedMap.mapValues f entries) = (ofList entries).mapValues f := by
  simp only [ofList, mapValues, SortedMap.ofList_mapValues]

theorem eq_of_entries_eq {m m' : OrdMap κ α} (h : m.entries = m'.entries) : m = m' := by
  cases m
  cases m'
  cases h
  rfl

theorem ofList_entries (m : OrdMap κ α) : ofList m.entries = m :=
  eq_of_entries_eq (SortedMap.ofList_of_ordered m.ordered)

theorem entries_foldl_insert (entries : List (κ × α)) (m : OrdMap κ α) :
    (entries.foldl (fun m e => m.insert e.1 e.2) m).entries =
      entries.foldl (fun m e => SortedMap.insert e.1 e.2 m) m.entries := by
  induction entries generalizing m with
  | nil => rfl
  | cons e entries ih => exact ih (m.insert e.1 e.2)

/-- Inserting all entries of a map one after the other gives the map. -/
theorem foldl_insert_entries (m : OrdMap κ α) :
    m.entries.foldl (fun m e => m.insert e.1 e.2) empty = m := by
  refine eq_of_entries_eq ?_
  rw [entries_foldl_insert]
  exact SortedMap.ofList_of_ordered m.ordered

@[simp] theorem get_empty (k : κ) : (empty : OrdMap κ α).get k = none := rfl

theorem get_insert (m : OrdMap κ α) (k i : κ) (a : α) :
    (m.insert k a).get i = if i = k then some a else m.get i :=
  SortedMap.find_insert k i a m.entries

@[simp] theorem get_insert_self (m : OrdMap κ α) (k : κ) (a : α) :
    (m.insert k a).get k = some a := by simp [get_insert]

theorem get_insert_of_ne (m : OrdMap κ α) {k i : κ} (h : i ≠ k) (a : α) :
    (m.insert k a).get i = m.get i := by simp [get_insert, h]

theorem get_erase (m : OrdMap κ α) (k i : κ) :
    (m.erase k).get i = if i = k then none else m.get i := by
  split_ifs with h
  · subst h
    exact SortedMap.find_erase_self m.ordered
  · exact SortedMap.find_erase_of_ne h m.entries

@[simp] theorem get_erase_self (m : OrdMap κ α) (k : κ) : (m.erase k).get k = none := by
  simp [get_erase]

theorem get_erase_of_ne (m : OrdMap κ α) {k i : κ} (h : i ≠ k) :
    (m.erase k).get i = m.get i := by simp [get_erase, h]

theorem insert_erase (m : OrdMap κ α) {k : κ} {a : α} (h : m.get k = some a) :
    (m.erase k).insert k a = m := by
  obtain ⟨entries,ordered⟩ := m
  simp only [insert, erase, OrdMap.mk.injEq]
  exact SortedMap.insert_erase ordered h

theorem length_insert_le (m : OrdMap κ α) (k : κ) (a : α) :
    (m.insert k a).entries.length ≤ m.entries.length + 1 :=
  SortedMap.length_insert_le k a m.entries

theorem length_erase_le (m : OrdMap κ α) (k : κ) :
    (m.erase k).entries.length ≤ m.entries.length :=
  (SortedMap.erase_sublist k m.entries).length_le

/-- The entries of one map inserted into another one replace what is there. -/
theorem get_foldl_insert (n m : OrdMap κ α) (k : κ) :
    (n.entries.foldl (fun m e => m.insert e.1 e.2) m).get k = (n.get k).or (m.get k) := by
  rw [get, entries_foldl_insert, SortedMap.find_foldl_insert, ← SortedMap.find_ofList,
    SortedMap.ofList_of_ordered n.ordered]
  rfl

/-- Counting the entries of a map: the one under a key and the others. -/
theorem countP_of_get (p : κ × α → Bool) (m : OrdMap κ α) {k : κ} {a : α}
    (h : m.get k = some a) :
    m.entries.countP p = (m.erase k).entries.countP p + if p (k,a) then 1 else 0 := by
  rw [(SortedMap.perm_of_find h).countP_eq p, List.countP_cons]
  rfl

theorem countP_insert (p : κ × α → Bool) (m : OrdMap κ α) (k : κ) (a : α) :
    (m.insert k a).entries.countP p =
      (m.erase k).entries.countP p + if p (k,a) then 1 else 0 := by
  rw [insert, (SortedMap.insert_perm k a m.ordered).countP_eq p, List.countP_cons]
  rfl

theorem countP_erase_le (p : κ × α → Bool) (m : OrdMap κ α) (k : κ) :
    (m.erase k).entries.countP p ≤ m.entries.countP p :=
  (SortedMap.erase_sublist k m.entries).countP_le

/-- Building a map adds nothing to the entries. -/
theorem mem_of_get_ofList {entries : List (κ × α)} {k : κ} {a : α}
    (h : (ofList entries).get k = some a) : (k,a) ∈ entries := by
  have hfound : (entries.reverse.find? (fun e => e.1 = k)).map Prod.snd = some a := by
    rw [← SortedMap.find_ofList]
    exact h
  obtain ⟨⟨j,b⟩,he,rfl⟩ := Option.map_eq_some_iff.mp hfound
  have hkey : j = k := by simpa using List.find?_some he
  subst hkey
  exact List.mem_reverse.mp (List.mem_of_find?_eq_some he)

/-- The entries are exactly the keys with the values that are found. -/
theorem mem_entries_iff (m : OrdMap κ α) (k : κ) (a : α) :
    (k,a) ∈ m.entries ↔ m.get k = some a :=
  ⟨SortedMap.find_of_mem m.ordered,SortedMap.mem_of_find⟩

theorem get_filterKeys_eq_some (m : OrdMap κ α) (p : κ → Bool) {k : κ} {a : α} :
    (m.filterKeys p).get k = some a ↔ p k = true ∧ m.get k = some a := by
  rw [← mem_entries_iff,← mem_entries_iff]
  simp only [filterKeys, List.mem_filter, and_comm]

end OrdMap

end Floatile.Lib
