import Mathlib.Data.List.Forall2

/-! Rules for computations that may fail: when a sequence of checks, a loop of checks or a loop
of conversions succeeds. -/
namespace Floatile.Lib.Checked

variable {ε α β : Type}

/-- The early return with an error. -/
def reject (p : Prop) [Decidable p] (e : ε) : Except ε Unit :=
  if p then .error e else .ok ()

@[simp] theorem reject_eq_ok (p : Prop) [Decidable p] (e : ε) (u : Unit) :
    reject p e = .ok u ↔ ¬p := by
  unfold reject
  split_ifs with h <;> simp [h]

@[simp] theorem ok_bind (a : α) (f : α → Except ε β) : (Except.ok a >>= f) = f a := rfl

@[simp] theorem error_bind (e : ε) (f : α → Except ε β) :
    ((Except.error e : Except ε α) >>= f) = .error e := rfl

@[simp] theorem pure_eq_ok (a : α) : (pure a : Except ε α) = .ok a := rfl

@[simp] theorem toOption_ok (a : α) : (Except.ok a : Except ε α).toOption = some a := rfl

theorem toOption_eq_some {x : Except ε α} {a : α} : x.toOption = some a ↔ x = .ok a := by
  cases x <;> simp [Except.toOption]

theorem eq_ok_get {x : Except ε α} (h : x.toOption.isSome = true) :
    x = .ok (x.toOption.get h) := by
  cases x with
  | error e => cases h
  | ok a => rfl

@[simp] theorem mapError_ok {ε' : Type} (f : ε → ε') (a : α) :
    (Except.ok a : Except ε α).mapError f = .ok a := rfl

/-- The computation ends with an error. -/
def Fails (x : Except ε α) : Prop := ∃ e, x = .error e

@[simp] theorem not_fails_ok (a : α) : ¬Fails (.ok a : Except ε α) := by simp [Fails]

@[simp] theorem fails_error (e : ε) : Fails (.error e : Except ε α) := ⟨e,rfl⟩

@[simp] theorem fails_mapError {ε' : Type} (f : ε → ε') (x : Except ε α) :
    Fails (x.mapError f) ↔ Fails x := by
  cases x <;> simp [Except.mapError, Fails]

@[simp] theorem fails_map (f : α → β) (x : Except ε α) : Fails (x.map f) ↔ Fails x := by
  cases x <;> simp [Except.map, Fails]

theorem bind_eq_ok {x : Except ε α} {f : α → Except ε β} {b : β} :
    (x >>= f) = .ok b ↔ ∃ a, x = .ok a ∧ f a = .ok b := by
  cases x with
  | error e => simp [bind, Except.bind]
  | ok a => simp [bind, Except.bind]

/-- A check in front of a computation. -/
theorem check_bind_eq_ok {x : Except ε Unit} {f : Unit → Except ε β} {b : β} :
    (x >>= f) = .ok b ↔ x = .ok () ∧ f () = .ok b := by
  cases x <;> simp

@[simp] theorem ite_error_eq_ok (p : Prop) [Decidable p] (e : ε) (x : Except ε α) (a : α) :
    (if p then .error e else x) = .ok a ↔ ¬p ∧ x = .ok a := by
  split_ifs with h <;> simp [h]

/-- Two branches with the same continuation. -/
theorem ite_bind_ite (p : Prop) [Decidable p] (x y : Except ε α) (f : α → Except ε β) :
    (if p then x >>= f else y >>= f) = (if p then x else y) >>= f := by
  split_ifs <;> rfl

theorem map_eq_ok {f : α → β} {x : Except ε α} {b : β} :
    x.map f = .ok b ↔ ∃ a, x = .ok a ∧ f a = b := by
  cases x with
  | error e => simp [Except.map]
  | ok a => simp [Except.map]

theorem mapError_eq_ok {ε' : Type} {f : ε → ε'} {x : Except ε α} {a : α} :
    x.mapError f = .ok a ↔ x = .ok a := by
  cases x <;> simp [Except.mapError]

/-- A loop of checks passes exactly when every check passes. -/
theorem forM_eq_ok_iff (f : α → Except ε Unit) (xs : List α) :
    xs.forM f = .ok () ↔ ∀ x ∈ xs, f x = .ok () := by
  induction xs with
  | nil => simp [pure, Except.pure]
  | cons x xs ih =>
    rw [List.forM_eq_forM, List.forM_cons, check_bind_eq_ok, List.forall_mem_cons, ← ih,
      List.forM_eq_forM]

/-- A loop of conversions succeeds exactly when it converts item by item. -/
theorem mapM_eq_ok_iff (f : α → Except ε β) (xs : List α) (ys : List β) :
    xs.mapM f = .ok ys ↔ List.Forall₂ (fun x y => f x = .ok y) xs ys := by
  induction xs generalizing ys with
  | nil =>
    cases ys <;> simp [pure, Except.pure]
  | cons x xs ih =>
    rw [List.mapM_cons, bind_eq_ok]
    constructor
    · rintro ⟨y,hy,h⟩
      obtain ⟨ys',hys',hcons⟩ := bind_eq_ok.mp h
      obtain rfl := Except.ok.inj hcons
      exact List.Forall₂.cons hy ((ih ys').mp hys')
    · intro h
      cases h with
      | cons hy hys => exact ⟨_,hy,bind_eq_ok.mpr ⟨_,(ih _).mpr hys,rfl⟩⟩

/-- Every step of a loop that succeeds has succeeded. -/
theorem exists_of_mem_foldlM {f : β → α → Except ε β} {xs : List α} {b b' : β} {x : α}
    (h : xs.foldlM f b = .ok b') (hx : x ∈ xs) : ∃ c c', f c x = .ok c' := by
  induction xs generalizing b with
  | nil => cases hx
  | cons y ys ih =>
    rw [List.foldlM_cons, bind_eq_ok] at h
    obtain ⟨c,hfirst,hrest⟩ := h
    rcases List.mem_cons.mp hx with rfl | hys
    · exact ⟨b,c,hfirst⟩
    · exact ih hrest hys

/-- What every step of a loop keeps holds at its end. -/
theorem foldlM_preserves {f : β → α → Except ε β} {I : β → Prop}
    (hstep : ∀ b a b', f b a = .ok b' → I b → I b') {xs : List α} {b b' : β}
    (h : xs.foldlM f b = .ok b') (hb : I b) : I b' := by
  induction xs generalizing b with
  | nil =>
    cases h
    exact hb
  | cons y ys ih =>
    rw [List.foldlM_cons, bind_eq_ok] at h
    obtain ⟨c,hfirst,hrest⟩ := h
    exact ih hrest (hstep b y c hfirst hb)

theorem exists_of_mem_mapM {f : α → Except ε β} {xs : List α} {ys : List β} {y : β}
    (h : xs.mapM f = .ok ys) (hy : y ∈ ys) : ∃ x ∈ xs, f x = .ok y := by
  have hall := (mapM_eq_ok_iff f xs ys).mp h
  clear h
  induction hall with
  | nil => cases hy
  | cons hx _ ih =>
    rcases List.mem_cons.mp hy with rfl | hy
    · exact ⟨_,List.mem_cons_self,hx⟩
    · obtain ⟨x,hmem,hfx⟩ := ih hy
      exact ⟨x,List.mem_cons_of_mem _ hmem,hfx⟩

theorem exists_mem_of_mapM {f : α → Except ε β} {xs : List α} {ys : List β} {x : α}
    (h : xs.mapM f = .ok ys) (hx : x ∈ xs) : ∃ y ∈ ys, f x = .ok y := by
  have hall := (mapM_eq_ok_iff f xs ys).mp h
  clear h
  induction hall with
  | nil => cases hx
  | cons hy _ ih =>
    rcases List.mem_cons.mp hx with rfl | hx
    · exact ⟨_,List.mem_cons_self,hy⟩
    · obtain ⟨y,hmem,hfy⟩ := ih hx
      exact ⟨y,List.mem_cons_of_mem _ hmem,hfy⟩

/-- A loop of conversions that all succeed collects the results. -/
theorem mapM_eq_ok_of_forall {f : α → Except ε β} {xs : List α}
    (h : ∀ x ∈ xs, ∃ y, f x = .ok y) : xs.mapM f = .ok (xs.filterMap (fun x => (f x).toOption)) := by
  induction xs with
  | nil => rfl
  | cons x xs ih =>
    rw [List.forall_mem_cons] at h
    obtain ⟨y,hy⟩ := h.1
    rw [List.mapM_cons, ih h.2, List.filterMap_cons_some (b := y) (by rw [hy]; rfl), hy]
    rfl

end Floatile.Lib.Checked
