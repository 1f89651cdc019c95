import Floatile.Lib.Text

/-! The texts of HTTPS origins: the scheme, a domain and a port that is not the default one. -/
namespace Floatile.Lib.Origin

/-- The characters that a domain keeps in a URL: visible ASCII without upper case and without the
code points that are forbidden in domains. -/
def domainChar (c : Char) : Bool :=
  0x20 < c.toNat && c.toNat < 0x7F && !c.isUpper &&
    !(['#','/',':','<','>','?','@','[','\\',']','^','|','%'].contains c)

/-- The labels of a domain, without the empty one after a final dot. -/
def labels (domain : String) : List String :=
  let parts := Text.splitChar domain '.'
  if parts.getLast? = some "" then parts.dropLast else parts

/-- A label that is read as a number: decimal, octal or hexadecimal. -/
def isNumeric (label : String) : Bool :=
  match label.toList with
  | '0' :: 'x' :: digits => digits.all Text.isAsciiHexDigit
  | digits => !digits.isEmpty && digits.all Char.isDigit

/-- A host whose last label is a number is read as an IPv4 address. -/
def endsInNumber (domain : String) : Bool := (labels domain).getLast?.any isNumeric

/-- A domain as a URL keeps it; `toAscii` converts international names. -/
structure IsDomain (toAscii : String → Option String) (domain : String) : Prop where
  ascii : toAscii domain = some domain
  chars : ∀ c ∈ domain.toList, domainChar c = true
  nonempty : domain ≠ ""
  named : endsInNumber domain = false

/-- A domain that names one host of the network: it is not the local host and not a wildcard. -/
structure NamesHost (domain : String) : Prop where
  remote : labels domain ≠ ["localhost"]
  single : '*' ∉ domain.toList

/-- A port that a URL keeps. -/
def KeptPort (port : Option ℕ) : Prop := ∀ n, port = some n → n < 2^16 ∧ n ≠ 443

def portText : Option ℕ → String
  | none => ""
  | some n => ":" ++ toString n

def originText (domain : String) (port : Option ℕ) : String :=
  "https://" ++ domain ++ portText port

/-- The text is an origin in its normal form. -/
def Normal (toAscii : String → Option String) (origin : String) : Prop :=
  ∃ domain port, origin = originText domain port ∧ IsDomain toAscii domain ∧
    NamesHost domain ∧ KeptPort port

theorem ne_of_domainChar {c d : Char} (h : domainChar c = true) (hd : domainChar d = false) :
    c ≠ d := by
  rintro rfl
  rw [h] at hd
  cases hd

theorem isUpper_of_domainChar {c : Char} (h : domainChar c = true) : c.isUpper = false := by
  simp only [domainChar, Bool.and_eq_true, Bool.not_eq_true'] at h
  exact h.1.2

theorem isUpper_of_isDigit {c : Char} (h : c.isDigit = true) : c.isUpper = false := by
  simp only [Char.isDigit, Bool.and_eq_true, decide_eq_true_eq] at h
  refine decide_eq_false ?_
  rintro ⟨hupper,-⟩
  have hlt : '9'.val < 'A'.val := by decide
  exact absurd (UInt32.lt_of_lt_of_le hlt hupper) (UInt32.not_lt.mpr h.2)

theorem toList_portText (n : ℕ) : (portText (some n)).toList = ':' :: Nat.toDigits 10 n := by
  simp [portText]

/-- The characters of a port. -/
theorem mem_portText {port : Option ℕ} {c : Char} (hc : c ∈ (portText port).toList) :
    c = ':' ∨ c.isDigit = true := by
  cases port with
  | none => cases hc
  | some n =>
    rw [toList_portText] at hc
    rcases List.mem_cons.mp hc with rfl | hdigit
    · exact Or.inl rfl
    · exact Or.inr (Nat.isDigit_of_mem_toDigits (by decide) (by decide) hdigit)

theorem toList_originText (domain : String) (port : Option ℕ) :
    (originText domain port).toList =
      "https://".toList ++ domain.toList ++ (portText port).toList := by
  simp [originText]

/-- What follows the last colon of a text. -/
theorem eq_of_append_colon {a b c d : List Char} (hb : ':' ∉ b) (hd : ':' ∉ d)
    (h : a ++ ':' :: b = c ++ ':' :: d) : b = d := by
  rcases List.append_eq_append_iff.mp h with ⟨e,hc,hrest⟩ | ⟨e,ha,hrest⟩
  · cases e with
    | nil => exact (List.cons.inj hrest).2
    | cons x e =>
      rw [List.cons_append, List.cons.injEq] at hrest
      exact absurd (hrest.2 ▸ List.mem_append_right _ List.mem_cons_self) hb
  · cases e with
    | nil => exact (List.cons.inj hrest).2.symm
    | cons x e =>
      rw [List.cons_append, List.cons.injEq] at hrest
      exact absurd (hrest.2 ▸ List.mem_append_right _ List.mem_cons_self) hd

section Characters

variable {toAscii : String → Option String} {domain : String} {port : Option ℕ}

/-- The characters of an origin in its normal form. -/
theorem mem_originText (h : IsDomain toAscii domain) {c : Char}
    (hc : c ∈ (originText domain port).toList) :
    c ∈ "https://".toList ∨ domainChar c = true ∨ c = ':' ∨ c.isDigit = true := by
  rw [toList_originText, List.mem_append, List.mem_append] at hc
  rcases hc with (hscheme | hdomain) | hport
  · exact Or.inl hscheme
  · exact Or.inr (Or.inl (h.chars c hdomain))
  · exact Or.inr (Or.inr (mem_portText hport))

theorem at_notMem_originText (h : IsDomain toAscii domain) :
    '@' ∉ (originText domain port).toList := by
  intro hmem
  rcases mem_originText h hmem with hscheme | hdomain | hcolon | hdigit
  · exact absurd hscheme (by decide)
  · exact absurd hdomain (by decide)
  · exact absurd hcolon (by decide)
  · exact absurd hdigit (by decide)

theorem isUpper_originText (h : IsDomain toAscii domain) :
    ∀ c ∈ (originText domain port).toList, c.isUpper = false := by
  intro c hc
  rcases mem_originText h hc with hscheme | hdomain | rfl | hdigit
  · have hall : "https://".toList.all (fun c => !c.isUpper) = true := rfl
    simpa using List.all_eq_true.mp hall c hscheme
  · exact isUpper_of_domainChar hdomain
  · rfl
  · exact isUpper_of_isDigit hdigit

theorem colon_notMem_domain (h : IsDomain toAscii domain) : ':' ∉ domain.toList :=
  fun hmem => absurd (h.chars ':' hmem) (by decide)

theorem colon_notMem_toDigits (n : ℕ) : ':' ∉ Nat.toDigits 10 n :=
  fun hmem => absurd (Nat.isDigit_of_mem_toDigits (by decide) (by decide) hmem) (by decide)

theorem endsWith_defaultPort (h : IsDomain toAscii domain) (hport : KeptPort port) :
    Text.endsWith (originText domain port) ":443" = false := by
  rw [← Bool.not_eq_true]
  intro hends
  obtain ⟨front,hfront⟩ := List.isSuffixOf_iff_suffix.mp hends
  rw [toList_originText] at hfront
  have hdefault : ':' ∉ ['4','4','3'] := by decide
  cases port with
  | none =>
    have hscheme : front ++ ':' :: ['4','4','3'] =
        "https".toList ++ ':' :: ('/' :: '/' :: domain.toList) := by
      simpa [portText] using hfront
    have heq := eq_of_append_colon hdefault (by simpa using colon_notMem_domain h) hscheme
    cases heq
  | some n =>
    rw [toList_portText] at hfront
    have heq : ['4','4','3'] = Nat.toDigits 10 n :=
      eq_of_append_colon hdefault (colon_notMem_toDigits n) hfront
    have hn : 443 = n := by
      rw [← Nat.ofDigitChars_ten_toDigits (n := n), ← heq]
      rfl
    exact (hport n rfl).2 hn.symm

end Characters

end Floatile.Lib.Origin
