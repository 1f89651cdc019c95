import Mathlib.Data.List.Basic
import Mathlib.Data.List.Infix
import Mathlib.Algebra.GroupWithZero.Nat
import Mathlib.Algebra.Order.Group.Nat
import Mathlib.Algebra.Order.BigOperators.Group.List

/-! Text predicates of the host language, on the characters of a string. -/
namespace Floatile.Lib.Text

/-- The Unicode `White_Space` property. -/
def isWhitespace (c : Char) : Bool :=
  let n := c.toNat
  (9 ≤ n && n ≤ 13) || n == 0x20 || n == 0x85 || n == 0xA0 || n == 0x1680 ||
    (0x2000 ≤ n && n ≤ 0x200A) || n == 0x2028 || n == 0x2029 || n == 0x202F ||
    n == 0x205F || n == 0x3000

def isAsciiLowercase (c : Char) : Bool := c.isLower

def isAsciiDigit (c : Char) : Bool := c.isDigit

def isAsciiAlphanumeric (c : Char) : Bool := c.isAlphanum

def charCount (s : String) : ℕ := s.toList.length

/-- The length of the UTF-8 encoding. -/
def byteLen (s : String) : ℕ := s.utf8ByteSize

def containsChar (s : String) (c : Char) : Bool := s.toList.contains c

def startsWith (s p : String) : Bool := p.toList.isPrefixOf s.toList

def endsWith (s p : String) : Bool := p.toList.isSuffixOf s.toList

def containsText (s p : String) : Bool := s.toList.tails.any p.toList.isPrefixOf

theorem containsText_iff (s p : String) : containsText s p = true ↔ p.toList <:+: s.toList := by
  simp only [containsText, List.any_eq_true, List.mem_tails, List.isPrefixOf_iff_prefix,
    List.infix_iff_prefix_suffix, and_comm]

def eqIgnoreAsciiCase (s t : String) : Bool :=
  s.toList.map Char.toLower == t.toList.map Char.toLower

/-- Splitting at every occurrence of a character; the empty text has one empty segment. -/
def splitChar (s : String) (c : Char) : List String :=
  (s.toList.splitOn c).map String.ofList

def stripPrefix (s p : String) : Option String :=
  if startsWith s p then some (String.ofList (s.toList.drop p.toList.length)) else none

theorem stripPrefix_eq_some_iff {s p t : String} : stripPrefix s p = some t ↔ s = p ++ t := by
  unfold stripPrefix startsWith
  rw [Option.ite_none_right_eq_some, List.isPrefixOf_iff_prefix, Option.some.injEq]
  constructor
  · rintro ⟨⟨rest,hrest⟩,rfl⟩
    rw [← hrest, List.drop_left, String.ext_iff, String.toList_append, String.toList_ofList, hrest]
  · rintro rfl
    simp

/-- The text without white space at both ends. -/
def trim (s : String) : String :=
  String.ofList (((s.toList.dropWhile isWhitespace).reverse.dropWhile isWhitespace).reverse)

def isAsciiHexDigit (c : Char) : Bool :=
  c.isDigit || ('a' ≤ c && c ≤ 'f') || ('A' ≤ c && c ≤ 'F')

/-- The Unicode category of control characters. -/
def isControl (c : Char) : Bool := c.toNat ≤ 0x1F || (0x7F ≤ c.toNat && c.toNat ≤ 0x9F)

/-- Parsing an unsigned 64-bit number: an optional plus sign and at least one digit. -/
def parseU64 (s : String) : Option ℕ :=
  let digits := match s.toList with
    | '+' :: rest => rest
    | cs => cs
  if digits.isEmpty || !digits.all Char.isDigit then none
  else
    let n := digits.foldl (fun acc c => acc * 10 + (c.toNat - '0'.toNat)) 0
    if n < 2^64 then some n else none

/-- A decimal number of any size, of at least one digit. -/
def parseDigits (digits : List Char) : Option ℤ :=
  if digits.isEmpty || !digits.all Char.isDigit then none
  else some (Nat.ofDigitChars 10 digits 0)

def parseSigned : List Char → Option ℤ
  | '-' :: digits => (parseDigits digits).map (fun n => -n)
  | '+' :: digits => parseDigits digits
  | digits => parseDigits digits

/-- Parsing a signed 64-bit number: an optional sign and at least one digit. -/
def parseI64 (s : String) : Option ℤ :=
  (parseSigned s.toList).filter (fun n => -2^63 ≤ n ∧ n < 2^63)

theorem parseDigits_toDigits (n : ℕ) : parseDigits (Nat.toDigits 10 n) = some (n : ℤ) := by
  have hall : (Nat.toDigits 10 n).all Char.isDigit = true :=
    List.all_eq_true.mpr fun c hc => Nat.isDigit_of_mem_toDigits (by decide) (by decide) hc
  have hempty : (Nat.toDigits 10 n).isEmpty = false :=
    List.isEmpty_eq_false_iff.mpr Nat.toDigits_ne_nil
  simp [parseDigits, hall, hempty]

theorem parseSigned_toDigits (n : ℕ) : parseSigned (Nat.toDigits 10 n) = some (n : ℤ) := by
  have hdigit : ∀ c ∈ Nat.toDigits 10 n, c.isDigit = true :=
    fun c hc => Nat.isDigit_of_mem_toDigits (by decide) (by decide) hc
  rw [← parseDigits_toDigits n]
  unfold parseSigned
  split
  · rename_i heq
    exact absurd (hdigit '-' (by simp [heq])) (by decide)
  · rename_i heq
    exact absurd (hdigit '+' (by simp [heq])) (by decide)
  · rfl

theorem parseI64_toString {i : ℤ} (hlo : -2^63 ≤ i) (hhi : i < 2^63) :
    parseI64 (toString i) = some i := by
  have hsigned : parseSigned (toString i).toList = some i := by
    cases i with
    | ofNat n =>
      have hdigits : (toString (Int.ofNat n)).toList = Nat.toDigits 10 n := Nat.toList_repr
      rw [hdigits, parseSigned_toDigits]
      rfl
    | negSucc n =>
      have hdigits : (toString (Int.negSucc n)).toList = '-' :: Nat.toDigits 10 (n + 1) := by
        rw [← Nat.toList_repr]
        exact String.toList_append
      rw [hdigits, parseSigned, parseDigits_toDigits]
      rfl
  rw [parseI64, hsigned, Option.filter_some, if_pos (decide_eq_true ⟨hlo,hhi⟩)]

/-- A text that is none of the given ones: longer than all of them together. -/
def freshText (xs : List String) : String :=
  String.ofList (List.replicate ((xs.map charCount).sum + 1) 'a')

@[simp] theorem charCount_freshText (xs : List String) :
    charCount (freshText xs) = (xs.map charCount).sum + 1 := by
  simp [charCount, freshText]

theorem freshText_notMem (xs : List String) : freshText xs ∉ xs := by
  intro h
  have hle : charCount (freshText xs) ≤ (xs.map charCount).sum :=
    List.single_le_sum (by simp) _ (List.mem_map_of_mem h)
  rw [charCount_freshText] at hle
  omega

end Floatile.Lib.Text
