import Floatile.Lib.Text

/-! String literals in a generated source: a scanner that knows whether a character is inside of
one, and texts whose characters all stay inside. -/
namespace Floatile.Lib.Literal

inductive Scan where
  | code
  | string
  | escape
  deriving DecidableEq, Repr

/-- The state after a character. -/
def Scan.step : Scan → Char → Scan
  | .code, c => if c = '"' then .string else .code
  | .string, c => if c = '"' then .code else if c = '\\' then .escape else .string
  | .escape, _ => .string

def isEscaped (c : Char) : Bool := c ∈ ['"','\\','n','r','t']

/-- What may stand between the quotes of a literal. -/
inductive Body : List Char → Prop
  | nil : Body []
  | plain {c : Char} {rest : List Char} (hquote : c ≠ '"') (hslash : c ≠ '\\')
      (hcontrol : Text.isControl c = false) (h : Body rest) : Body (c :: rest)
  | escaped {c : Char} {rest : List Char} (hc : isEscaped c = true) (h : Body rest) :
      Body ('\\' :: c :: rest)

theorem Body.append {body rest : List Char} (h : Body body) (hrest : Body rest) :
    Body (body ++ rest) := by
  induction h with
  | nil => exact hrest
  | plain hquote hslash hcontrol _ ih => exact .plain hquote hslash hcontrol ih
  | escaped hc _ ih => exact .escaped hc ih

theorem Body.flatten {bodies : List (List Char)} (h : ∀ body ∈ bodies, Body body) :
    Body bodies.flatten := by
  induction bodies with
  | nil => exact .nil
  | cons body bodies ih =>
    rw [List.forall_mem_cons] at h
    exact h.1.append (ih h.2)

/-- A whole literal. -/
def IsLiteral (text : String) : Prop := ∃ body, text.toList = '"' :: body ++ ['"'] ∧ Body body

section Along

variable {α : Type} (char : α → Char) (ok : Scan → α → Prop)

/-- Every item is allowed in the state in which the scanner meets its character. -/
def Along : Scan → List α → Prop
  | _,[] => True
  | s,x :: xs => ok s x ∧ Along (s.step (char x)) xs

/-- The state after the characters of a list. -/
def scan (s : Scan) (xs : List α) : Scan := xs.foldl (fun s x => s.step (char x)) s

variable {char ok}

theorem scan_append (s : Scan) (xs ys : List α) :
    scan char s (xs ++ ys) = scan char (scan char s xs) ys := by
  rw [scan, List.foldl_append, scan, scan]

theorem along_append (s : Scan) (xs ys : List α) :
    Along char ok s (xs ++ ys) ↔ Along char ok s xs ∧ Along char ok (scan char s xs) ys := by
  induction xs generalizing s with
  | nil => simp [Along, scan]
  | cons x xs ih => simp only [List.cons_append, Along, ih, scan, List.foldl_cons, and_assoc]

/-- Items without quotes that are allowed outside of literals. -/
theorem along_code {xs : List α} (h : ∀ x ∈ xs, char x ≠ '"' ∧ ok .code x) :
    Along char ok .code xs ∧ scan char .code xs = .code := by
  induction xs with
  | nil => exact ⟨trivial,rfl⟩
  | cons x xs ih =>
    rw [List.forall_mem_cons] at h
    obtain ⟨⟨hquote,hok⟩,hrest⟩ := h
    have hstep : Scan.code.step (char x) = .code := if_neg hquote
    obtain ⟨halong,hscan⟩ := ih hrest
    refine ⟨⟨hok,by rw [hstep]; exact halong⟩,?_⟩
    rw [scan, List.foldl_cons, hstep]
    exact hscan

theorem along_mono {ok' : Scan → α → Prop} (h : ∀ s x, ok s x → ok' s x) {s : Scan} {xs : List α}
    (hxs : Along char ok s xs) : Along char ok' s xs := by
  induction xs generalizing s with
  | nil => trivial
  | cons x xs ih => exact ⟨h s x hxs.1,ih hxs.2⟩

variable (char ok) in
/-- The items are allowed where code goes on, and the code goes on after them. -/
def Closed (xs : List α) : Prop := Along char ok .code xs ∧ scan char .code xs = .code

theorem closed_nil : Closed char ok [] := ⟨trivial,rfl⟩

theorem Closed.append {xs ys : List α} (h : Closed char ok xs) (h' : Closed char ok ys) :
    Closed char ok (xs ++ ys) := by
  rw [Closed, along_append, scan_append, h.2]
  exact ⟨⟨h.1,h'.1⟩,h'.2⟩

/-- The part after a closed one is closed when the whole is. -/
theorem Closed.of_append {xs ys : List α} (h : Closed char ok (xs ++ ys))
    (hxs : scan char .code xs = .code) : Closed char ok xs ∧ Closed char ok ys := by
  rw [Closed, along_append, scan_append, hxs] at h
  exact ⟨⟨h.1.1,hxs⟩,h.1.2,h.2⟩

theorem Closed.flatMap {β : Type} {f : β → List α} {bs : List β}
    (h : ∀ b ∈ bs, Closed char ok (f b)) : Closed char ok (bs.flatMap f) := by
  induction bs with
  | nil => exact closed_nil
  | cons b bs ih =>
    rw [List.forall_mem_cons] at h
    rw [List.flatMap_cons]
    exact h.1.append (ih h.2)

theorem scan_cons (s : Scan) (x : α) (xs : List α) :
    scan char s (x :: xs) = scan char (s.step (char x)) xs := rfl

section Items

variable {item : Char → α} (hchar : ∀ c, char (item c) = c)
  (hstring : ∀ c, Text.isControl c = false → ok .string (item c))
  (hescape : ∀ c, isEscaped c = true → ok .escape (item c))

include hchar hstring hescape

/-- What stands between the quotes stays there. -/
theorem Body.along {body : List Char} (h : Body body) :
    Along char ok .string (body.map item) ∧ scan char .string (body.map item) = .string := by
  induction h with
  | nil => exact ⟨trivial,rfl⟩
  | @plain c rest hquote hslash hcontrol _ ih =>
    have hstep : Scan.string.step (char (item c)) = .string := by
      rw [hchar, Scan.step, if_neg hquote, if_neg hslash]
    rw [List.map_cons, Along, scan_cons, hstep]
    exact ⟨⟨hstring c hcontrol,ih.1⟩,ih.2⟩
  | @escaped c rest hc _ ih =>
    have hstep : Scan.string.step (char (item '\\')) = .escape := by
      rw [hchar]
      rfl
    rw [List.map_cons, List.map_cons, Along, Along, scan_cons, scan_cons, hstep]
    exact ⟨⟨hstring _ (by decide),hescape c hc,ih.1⟩,ih.2⟩

/-- A literal is closed when its characters are allowed where they stand. -/
theorem IsLiteral.closed {text : String} (h : IsLiteral text) (hopen : ok .code (item '"')) :
    Closed char ok (text.toList.map item) := by
  obtain ⟨body,htext,hbody⟩ := h
  obtain ⟨halong,hscan⟩ := hbody.along hchar hstring hescape
  have hfirst : Scan.code.step (char (item '"')) = .string := by
    rw [hchar]
    rfl
  have hlast : Scan.string.step (char (item '"')) = .code := by
    rw [hchar]
    rfl
  rw [htext, List.cons_append, List.map_cons, List.map_append, List.map_singleton, Closed, Along,
    along_append, scan_cons, scan_append, hfirst, hscan, scan_cons, hlast]
  exact ⟨⟨hopen,halong,hstring _ (by decide),trivial⟩,rfl⟩

end Items

end Along

end Floatile.Lib.Literal
