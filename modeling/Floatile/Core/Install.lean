import Floatile.Core.Manifest
import Floatile.Lib.SortedMap
import Mathlib.Data.String.Basic

/-! Digests of installed content and the metadata that an installation keeps about itself. The
hash function comes from an external package and is a parameter. -/
namespace Floatile.Core

open Floatile.Lib

/-- Keys and digests of 32 bytes. -/
structure Bytes32 where
  bytes : List UInt8
  length_eq : bytes.length = 32
  deriving DecidableEq

def Bytes32.ofList (bytes : List UInt8) : Option Bytes32 :=
  if h : bytes.length = 32 then some ⟨bytes,h⟩ else none

/-- The files of a package or of a directory, by relative path. -/
abbrev Files := OrdMap String (List UInt8)

inductive InstallationTrust where
  | unsigned
  | trusted
  deriving DecidableEq, Repr

/-- The content of `install.json`. -/
structure InstallMeta where
  manifestVersion : ℕ
  id : String
  version : String
  engineApiVersion : String
  uiApiVersion : String
  installedAt : ℕ
  source : String
  trust : InstallationTrust
  files : OrdMap String String
  digest : String

def utf8 (s : String) : List UInt8 := s.toUTF8.data.toList

/-- The eight bytes of a 64-bit number, the lowest first. -/
def toLeBytes (n : ℕ) : List UInt8 :=
  (List.range 8).map (fun i => UInt8.ofNat (n / 256^i))

def hexDigits : List Char := "0123456789abcdef".toList

def hexDigit (n : ℕ) : Char := hexDigits.getD n '0'

def hexByte (b : UInt8) : List Char := [hexDigit (b.toNat / 16),hexDigit (b.toNat % 16)]

def hexEncode (bytes : List UInt8) : String := String.ofList (bytes.flatMap hexByte)

/-- The value of a hexadecimal digit of either case. -/
def toDigit16 (c : Char) : Option ℕ :=
  if '0' ≤ c ∧ c ≤ '9' then some (c.toNat - '0'.toNat)
  else if 'a' ≤ c ∧ c ≤ 'f' then some (c.toNat - 'a'.toNat + 10)
  else if 'A' ≤ c ∧ c ≤ 'F' then some (c.toNat - 'A'.toNat + 10)
  else none

def hexPairs : List UInt8 → Option (List UInt8)
  | [] => some []
  | [_] => none
  | hi :: lo :: rest => do
    let hi ← toDigit16 (Char.ofNat hi.toNat)
    let lo ← toDigit16 (Char.ofNat lo.toNat)
    let rest ← hexPairs rest
    some (UInt8.ofNat (hi * 16 + lo) :: rest)

/-- Decoding works on the bytes of the text, two at a time. -/
def hexDecode (s : String) : Option (List UInt8) := hexPairs (utf8 s)

theorem utf8_ofList (cs : List Char) :
    utf8 (String.ofList cs) = cs.flatMap String.utf8EncodeChar := by
  induction cs with
  | nil => rfl
  | cons c cs ih =>
    simp only [utf8, String.toUTF8, String.toByteArray_ofList] at ih ⊢
    rw [List.utf8Encode_cons, ByteArray.data_append, Array.toList_append, ih,
      List.utf8Encode_singleton]
    simp

/-- A hexadecimal digit is written as one byte and read back. -/
theorem hexDigit_spec : ∀ n : Fin 16, String.utf8EncodeChar (hexDigit n) =
      [UInt8.ofNat (hexDigit n).toNat] ∧
    toDigit16 (Char.ofNat (UInt8.ofNat (hexDigit n).toNat).toNat) = some n.val := by
  decide

theorem hexPairs_hexByte (b : UInt8) (rest : List UInt8) :
    hexPairs ((hexByte b).flatMap String.utf8EncodeChar ++ rest) =
      (hexPairs rest).map (fun bytes => b :: bytes) := by
  have hb : b.toNat < 256 := b.toNat_lt
  obtain ⟨hhi,hhi'⟩ := hexDigit_spec ⟨b.toNat / 16,by omega⟩
  obtain ⟨hlo,hlo'⟩ := hexDigit_spec ⟨b.toNat % 16,by omega⟩
  dsimp only at hhi hlo hhi' hlo'
  have hbyte : UInt8.ofNat (b.toNat / 16 * 16 + b.toNat % 16) = b := by
    rw [Nat.div_add_mod']
    exact UInt8.ofNat_toNat
  simp only [hexByte, List.flatMap_cons, List.flatMap_nil, hhi, hlo, List.append_nil,
    List.cons_append, List.nil_append, hexPairs, hhi', hlo', Option.bind_eq_bind,
    Option.bind_some, hbyte]
  cases hexPairs rest <;> rfl

theorem hexDecode_hexEncode (bytes : List UInt8) : hexDecode (hexEncode bytes) = some bytes := by
  rw [hexDecode, hexEncode, utf8_ofList]
  induction bytes with
  | nil => rfl
  | cons b bytes ih =>
    rw [List.flatMap_cons, List.flatMap_append, hexPairs_hexByte, ih]
    rfl

/-- Decoding of characters, two at a time. -/
def hexChars : List Char → Option (List UInt8)
  | [] => some []
  | [_] => none
  | hi :: lo :: rest => do
    let hi ← toDigit16 hi
    let lo ← toDigit16 lo
    let rest ← hexChars rest
    some (UInt8.ofNat (hi * 16 + lo) :: rest)

theorem toDigit16_ascii : ∀ k : Fin 128,
    (toDigit16 (Char.ofNat k)).isSome = Text.isAsciiHexDigit (Char.ofNat k) ∧
    ∀ n ∈ toDigit16 (Char.ofNat k), n < 16 ∧ hexDigit n = (Char.ofNat k).toLower := by
  decide

/-- No character beyond ASCII is a digit. -/
theorem toDigit16_eq_none {c : Char} (h : 128 ≤ c.toNat) : toDigit16 c = none := by
  have hle : ∀ d : Char, d.toNat < 128 → ¬c ≤ d := by
    intro d hd hcd
    have : c.toNat ≤ d.toNat := hcd
    omega
  simp [toDigit16, hle '9' (by decide), hle 'f' (by decide), hle 'F' (by decide)]

theorem toDigit16_eq_some {c : Char} {n : ℕ} (h : toDigit16 c = some n) :
    n < 16 ∧ hexDigit n = c.toLower := by
  by_cases hascii : c.toNat < 128
  · have := (toDigit16_ascii ⟨c.toNat,hascii⟩).2 n
    simp only [Char.ofNat_toNat] at this
    exact this h
  · simp [toDigit16_eq_none (not_lt.mp hascii)] at h

theorem toDigit16_isSome (c : Char) : (toDigit16 c).isSome = Text.isAsciiHexDigit c := by
  have hdigit : c.isDigit = decide ('0' ≤ c ∧ c ≤ '9') := by
    rw [Char.isDigit, Bool.decide_and]
    rfl
  rw [toDigit16, Text.isAsciiHexDigit, hdigit]
  split_ifs <;> simp_all

/-- The bytes of a character beyond ASCII. -/
theorem utf8EncodeChar_nonAscii {c : Char} (h : 128 ≤ c.toNat) : ∃ b b' rest,
    String.utf8EncodeChar c = b :: b' :: rest ∧ toDigit16 (Char.ofNat b.toNat) = none := by
  have hfin : ∀ n : Fin 64, toDigit16 (Char.ofNat (UInt8.ofNat (n + 192)).toNat) = none := by
    decide
  have hbyte : ∀ n < 64, toDigit16 (Char.ofNat (UInt8.ofNat (n + 192)).toNat) = none :=
    fun n hn => hfin ⟨n,hn⟩
  have hval : ¬c.val.toNat ≤ 127 := by
    have : c.val.toNat = c.toNat := rfl
    omega
  simp only [String.utf8EncodeChar, if_neg hval]
  split_ifs
  · exact ⟨_,_,_,rfl,hbyte _ (by omega)⟩
  · exact ⟨_,_,_,rfl,hbyte (_ + 32) (by omega)⟩
  · exact ⟨_,_,_,rfl,hbyte (_ + 48) (by omega)⟩

theorem utf8EncodeChar_ascii {c : Char} (h : c.toNat < 128) :
    ∃ b, String.utf8EncodeChar c = [b] ∧ Char.ofNat b.toNat = c := by
  refine ⟨UInt8.ofNat c.toNat,?_,?_⟩
  · have : c.val.toNat ≤ 127 := Nat.le_of_lt_succ h
    simp only [String.utf8EncodeChar, if_pos this]
    rfl
  · rw [UInt8.toNat_ofNat', Nat.mod_eq_of_lt (by omega), Char.ofNat_toNat]

/-- Two bytes are decoded at a time, but no byte of a longer character is a digit. -/
theorem hexPairs_flatMap (cs : List Char) :
    hexPairs (cs.flatMap String.utf8EncodeChar) = hexChars cs := by
  induction cs using hexChars.induct with
  | case1 => rfl
  | case2 c =>
    rw [List.flatMap_cons, List.flatMap_nil, List.append_nil]
    by_cases hc : c.toNat < 128
    · obtain ⟨b,hb,-⟩ := utf8EncodeChar_ascii hc
      rw [hb, hexPairs, hexChars]
    · obtain ⟨b,b',rest,hb,hnone⟩ := utf8EncodeChar_nonAscii (not_lt.mp hc)
      simp [hb, hexPairs, hexChars, hnone]
  | case3 hi lo rest ih =>
    rw [List.flatMap_cons, List.flatMap_cons, hexChars, ← ih]
    by_cases hhi : hi.toNat < 128
    · obtain ⟨b,hb,rfl⟩ := utf8EncodeChar_ascii hhi
      by_cases hlo : lo.toNat < 128
      · obtain ⟨b',hb',rfl⟩ := utf8EncodeChar_ascii hlo
        simp [hb, hb', hexPairs]
      · obtain ⟨b',b'',tail,hb',hnone⟩ := utf8EncodeChar_nonAscii (not_lt.mp hlo)
        simp [hb, hb', hexPairs, hnone, toDigit16_eq_none (not_lt.mp hlo)]
    · obtain ⟨b,b',tail,hb,hnone⟩ := utf8EncodeChar_nonAscii (not_lt.mp hhi)
      simp [hb, hexPairs, hnone, toDigit16_eq_none (not_lt.mp hhi)]

theorem utf8_eq (s : String) : utf8 s = s.toList.flatMap String.utf8EncodeChar := by
  rw [← utf8_ofList, String.ofList_toList]

/-- What is decoded is encoded as the same digits in lower case. -/
theorem hexByte_of_hexChars {cs : List Char} {bytes : List UInt8} (h : hexChars cs = some bytes) :
    bytes.flatMap hexByte = cs.map Char.toLower := by
  induction cs using hexChars.induct generalizing bytes with
  | case1 => simp_all [hexChars]
  | case2 => simp [hexChars] at h
  | case3 hi lo rest ih =>
    simp only [hexChars, Option.bind_eq_bind, Option.bind_eq_some_iff, Option.some.injEq] at h
    obtain ⟨m,hm,n,hn,decoded,hrest,rfl⟩ := h
    obtain ⟨hm16,hm⟩ := toDigit16_eq_some hm
    obtain ⟨hn16,hn⟩ := toDigit16_eq_some hn
    have hbyte : (UInt8.ofNat (m * 16 + n)).toNat = m * 16 + n := by
      rw [UInt8.toNat_ofNat', Nat.mod_eq_of_lt (by omega)]
    have hhigh : (m * 16 + n) / 16 = m := by omega
    have hlow : (m * 16 + n) % 16 = n := by omega
    rw [List.flatMap_cons, ih hrest, hexByte, hbyte, hhigh, hlow, hm, hn]
    rfl

theorem hexChars_isSome (cs : List Char) : (hexChars cs).isSome ↔
    cs.length % 2 = 0 ∧ ∀ c ∈ cs, Text.isAsciiHexDigit c := by
  induction cs using hexChars.induct with
  | case1 => simp [hexChars]
  | case2 => simp [hexChars]
  | case3 hi lo rest ih =>
    have hsome : (hexChars (hi :: lo :: rest)).isSome =
        ((toDigit16 hi).isSome && (toDigit16 lo).isSome && (hexChars rest).isSome) := by
      rw [hexChars]
      cases toDigit16 hi <;> cases toDigit16 lo <;> cases hexChars rest <;> rfl
    rw [hsome, Bool.and_eq_true, Bool.and_eq_true, ih, toDigit16_isSome, toDigit16_isSome]
    have hparity : (rest.length + 1 + 1) % 2 = rest.length % 2 := by omega
    simp only [List.length_cons, List.forall_mem_cons, hparity]
    tauto

/-- Decoding undoes encoding, encoding undoes decoding up to the case of the letters, and what is
decoded are the texts of an even number of hexadecimal digits. -/
theorem hex_codec :
    (∀ bytes, hexDecode (hexEncode bytes) = some bytes) ∧
    (∀ s bytes, hexDecode s = some bytes → hexEncode bytes = s.toLower) ∧
    (∀ s, hexDecode s = none ↔
      ¬(s.toList.length % 2 = 0 ∧ ∀ c ∈ s.toList, Text.isAsciiHexDigit c)) := by
  refine ⟨hexDecode_hexEncode,?_,?_⟩
  · intro s bytes h
    rw [hexDecode, utf8_eq, hexPairs_flatMap] at h
    have hlower : s.toLower = s.map Char.toLower := rfl
    rw [hexEncode, hexByte_of_hexChars h, hlower, String.map_eq_internal]
  · intro s
    rw [hexDecode, utf8_eq, hexPairs_flatMap, ← hexChars_isSome, Option.not_isSome_iff_eq_none]

section Digests

variable (sha256 : List UInt8 → Bytes32)

def fileDigest (bytes : List UInt8) : Bytes32 := sha256 bytes

/-- What one file adds to the hashed text: its path, a NUL, its length and its bytes. -/
def digestEntry (file : String × List UInt8) : List UInt8 :=
  utf8 file.1 ++ [0] ++ toLeBytes file.2.length ++ file.2

def contentDigest (files : Files) : Bytes32 := sha256 (files.entries.flatMap digestEntry)

end Digests

end Floatile.Core
