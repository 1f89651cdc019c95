import Mathlib.Data.List.Basic

/-! Bounded queues between a sender that never waits and a receiver that may be dropped. -/
namespace Floatile.Lib

inductive TrySendError where
  | full
  | closed
  deriving DecidableEq, Repr

/-- The buffered messages never exceed the capacity. -/
structure Channel (α : Type*) where
  capacity : ℕ
  queue : List α
  isOpen : Bool
  bounded : queue.length ≤ capacity

variable {α : Type*}

namespace Channel

def empty (capacity : ℕ) : Channel α := ⟨capacity,[],true,Nat.zero_le _⟩

/-- The receiver is there and a slot is free. -/
def HasRoom (ch : Channel α) : Prop := ch.isOpen = true ∧ ch.queue.length < ch.capacity

instance (ch : Channel α) : Decidable ch.HasRoom := inferInstanceAs (Decidable (_ ∧ _))

def push (ch : Channel α) (h : ch.HasRoom) (a : α) : Channel α where
  capacity := ch.capacity
  queue := ch.queue ++ [a]
  isOpen := ch.isOpen
  bounded := by
    rw [List.length_append]
    exact h.2

def trySend (ch : Channel α) (a : α) : Except TrySendError (Channel α) :=
  if h : ch.HasRoom then .ok (ch.push h a)
  else if ch.isOpen then .error .full
  else .error .closed

/-- The oldest message and the channel without it. -/
def recv (ch : Channel α) : Option (α × Channel α) :=
  match h : ch.queue with
  | [] => none
  | a :: rest => some (a,⟨ch.capacity,rest,ch.isOpen,by
      have hbounded := ch.bounded
      rw [h, List.length_cons] at hbounded
      omega⟩)

/-- The receiver is dropped together with everything buffered. -/
def close (ch : Channel α) : Channel α := ⟨ch.capacity,[],false,Nat.zero_le _⟩

@[simp] theorem queue_empty (capacity : ℕ) : (empty capacity : Channel α).queue = [] := rfl

@[simp] theorem isOpen_empty (capacity : ℕ) : (empty capacity : Channel α).isOpen = true := rfl

@[simp] theorem capacity_empty (capacity : ℕ) :
    (empty capacity : Channel α).capacity = capacity := rfl

@[simp] theorem queue_push (ch : Channel α) (h : ch.HasRoom) (a : α) :
    (ch.push h a).queue = ch.queue ++ [a] := rfl

@[simp] theorem isOpen_push (ch : Channel α) (h : ch.HasRoom) (a : α) :
    (ch.push h a).isOpen = ch.isOpen := rfl

@[simp] theorem queue_close (ch : Channel α) : ch.close.queue = [] := rfl

@[simp] theorem isOpen_close (ch : Channel α) : ch.close.isOpen = false := rfl

theorem trySend_of_hasRoom (ch : Channel α) (h : ch.HasRoom) (a : α) :
    ch.trySend a = .ok (ch.push h a) := by
  simp [trySend, h]

theorem trySend_of_not_hasRoom (ch : Channel α) (h : ¬ch.HasRoom) (a : α) :
    ∃ e, ch.trySend a = .error e := by
  cases hopen : ch.isOpen <;> simp [trySend, h, hopen]

theorem trySend_eq_ok {ch ch' : Channel α} {a : α} (h : ch.trySend a = .ok ch') :
    ch.HasRoom ∧ ch'.queue = ch.queue ++ [a] ∧ ch'.isOpen = ch.isOpen ∧
      ch'.capacity = ch.capacity := by
  unfold trySend at h
  split_ifs at h with hroom
  cases h
  exact ⟨hroom,rfl,rfl,rfl⟩

theorem trySend_eq_error {ch : Channel α} {a : α} {e : TrySendError}
    (h : ch.trySend a = .error e) : ¬ch.HasRoom ∧ (e = .closed ↔ ch.isOpen = false) := by
  unfold trySend at h
  split_ifs at h with hroom hopen
  · cases h
    simp [hroom, hopen]
  · cases h
    simp [hroom, hopen]

theorem queue_of_recv {ch ch' : Channel α} {a : α} (h : ch.recv = some (a,ch')) :
    ch.queue = a :: ch'.queue ∧ ch'.isOpen = ch.isOpen ∧ ch'.capacity = ch.capacity := by
  unfold recv at h
  split at h
  · cases h
  · rename_i b rest hqueue
    cases h
    exact ⟨hqueue,rfl,rfl⟩

theorem recv_eq_none_iff (ch : Channel α) : ch.recv = none ↔ ch.queue = [] := by
  unfold recv
  split <;> simp_all

end Channel

end Floatile.Lib
