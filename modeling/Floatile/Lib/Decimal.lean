import Mathlib.Data.Nat.Log
import Mathlib.Algebra.Order.Ring.Int

/-! The text of a double: the shortest decimal that reads back as the same double, without an
exponent. -/
namespace Floatile.Lib.Decimal

/-- A positive fraction with the bounds of the doubles that round to the same one; the bounds
belong to the interval when `closed`. -/
structure Interval where
  low : ℕ
  value : ℕ
  high : ℕ
  den : ℕ
  closed : Bool

/-- The interval of `mantissa * 2 ^ exponent`; below a power of two the doubles are closer. -/
def interval (mantissa : ℕ) (exponent : ℤ) (power : Bool) : Interval :=
  let scale := 2 ^ (exponent - 2).toNat
  let gap := if power then 1 else 2
  { low := (4 * mantissa - gap) * scale
    value := 4 * mantissa * scale
    high := (4 * mantissa + 2) * scale
    den := 2 ^ (2 - exponent).toNat
    closed := mantissa % 2 = 0 }

/-- The integral part of a number of units of the given power of ten. -/
def Interval.units (i : Interval) (exponent : ℤ) : ℕ :=
  i.value * 10 ^ (-exponent).toNat / (i.den * 10 ^ exponent.toNat)

def Interval.contains (i : Interval) (digits : ℕ) (exponent : ℤ) : Bool :=
  let x := digits * (i.den * 10 ^ exponent.toNat)
  let low := i.low * 10 ^ (-exponent).toNat
  let high := i.high * 10 ^ (-exponent).toNat
  if i.closed then low ≤ x && x ≤ high else low < x && x < high

/-- The number of digits before the point; it is negative for zeros after the point. -/
def Interval.magnitude (i : Interval) : ℤ :=
  if i.den ≤ i.value then Nat.log 10 (i.value / i.den) + 1
  else -(((List.range 400).find? (fun j => i.den ≤ i.value * 10 ^ (j + 1))).getD 0 : ℤ)

/-- The closest decimal inside the interval, if there is one with this many digits. -/
def Interval.withDigits (i : Interval) (count : ℕ) : Option (ℕ × ℤ) :=
  let exponent := i.magnitude - count
  let floor := i.units exponent
  let below := i.contains floor exponent
  let above := i.contains (floor + 1) exponent
  let unit := i.den * 10 ^ exponent.toNat
  let value := i.value * 10 ^ (-exponent).toNat
  let closer := 2 * value ≤ (2 * floor + 1) * unit
  if below && (closer || !above) then some (floor,exponent)
  else if above then
    if floor + 1 = 10 ^ count then some (1,exponent + count) else some (floor + 1,exponent)
  else none

/-- Seventeen digits determine a double. -/
def Interval.shortest (i : Interval) : ℕ × ℤ :=
  ((List.range 17).findSome? (fun count => i.withDigits (count + 1))).getD (0,0)

def padded (width : ℕ) (digits : String) : String :=
  String.ofList (List.replicate (width - digits.length) '0') ++ digits

/-- The decimal `digits * 10 ^ exponent`. -/
def decimalText (digits : ℕ) (exponent : ℤ) : String :=
  let places : ℕ := (-exponent).toNat
  let whole := toString (digits * 10 ^ exponent.toNat / 10 ^ places)
  if places = 0 then whole
  else whole ++ "." ++ padded places (toString (digits % 10 ^ places))

def signText (bits : ℕ) : String := if bits / 2 ^ 63 = 1 then "-" else ""

/-- The interval of a double with the given biased exponent. -/
def intervalOfBits (biased fraction : ℕ) : Interval :=
  if biased = 0 then interval fraction (-1074) false
  else interval (2 ^ 52 + fraction) ((biased : ℤ) - 1075) (fraction = 0 ∧ 1 < biased)

/-- The text of a double. -/
def displayF64 (x : Float) : String :=
  let bits := x.toBits.toNat
  let biased : ℕ := bits / 2 ^ 52 % 2048
  let fraction : ℕ := bits % 2 ^ 52
  if biased = 2047 then if fraction = 0 then signText bits ++ "inf" else "NaN"
  else if biased = 0 ∧ fraction = 0 then signText bits ++ "0"
  else
    let (digits,exponent) := (intervalOfBits biased fraction).shortest
    signText bits ++ decimalText digits exponent

/-- The characters of a number. -/
def isNumberChar (c : Char) : Bool := c.isAlphanum || c == '-' || c == '.'

theorem isNumberChar_of_all {s : String} (h : s.toList.all isNumberChar = true) :
    ∀ c ∈ s.toList, isNumberChar c = true := List.all_eq_true.mp h

theorem isNumberChar_toString (n : ℕ) : ∀ c ∈ (toString n).toList, isNumberChar c = true := by
  intro c hc
  have hdigit : c.isDigit = true := by
    apply Nat.isDigit_of_mem_toDigits (b := 10) (n := n) (by decide) (by decide)
    simpa [toString, Nat.repr] using hc
  simp [isNumberChar, Char.isAlphanum, hdigit]

theorem isNumberChar_append {s t : String} (hs : ∀ c ∈ s.toList, isNumberChar c = true)
    (ht : ∀ c ∈ t.toList, isNumberChar c = true) : ∀ c ∈ (s ++ t).toList, isNumberChar c = true := by
  intro c hc
  rw [String.toList_append] at hc
  rcases List.mem_append.mp hc with hc | hc
  · exact hs c hc
  · exact ht c hc

theorem isNumberChar_padded (width : ℕ) {digits : String}
    (h : ∀ c ∈ digits.toList, isNumberChar c = true) :
    ∀ c ∈ (padded width digits).toList, isNumberChar c = true := by
  refine isNumberChar_append ?_ h
  intro c hc
  rw [String.toList_ofList] at hc
  obtain rfl := List.eq_of_mem_replicate hc
  decide

theorem isNumberChar_decimalText (digits : ℕ) (exponent : ℤ) :
    ∀ c ∈ (decimalText digits exponent).toList, isNumberChar c = true := by
  unfold decimalText
  dsimp only
  split_ifs
  · exact isNumberChar_toString _
  · exact isNumberChar_append (isNumberChar_append (isNumberChar_toString _) (isNumberChar_of_all rfl))
      (isNumberChar_padded _ (isNumberChar_toString _))

theorem isNumberChar_signText (bits : ℕ) :
    ∀ c ∈ (signText bits).toList, isNumberChar c = true := by
  unfold signText
  split_ifs <;> exact isNumberChar_of_all rfl

theorem isNumberChar_displayF64 (x : Float) :
    ∀ c ∈ (displayF64 x).toList, isNumberChar c = true := by
  unfold displayF64
  dsimp only
  split_ifs
  · exact isNumberChar_append (isNumberChar_signText _) (isNumberChar_of_all rfl)
  · exact isNumberChar_of_all rfl
  · exact isNumberChar_append (isNumberChar_signText _) (isNumberChar_of_all rfl)
  · exact isNumberChar_append (isNumberChar_signText _) (isNumberChar_decimalText _ _)

example : displayF64 240.5 = "240.5" := by decide +kernel

end Floatile.Lib.Decimal
