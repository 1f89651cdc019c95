import Floatile.Core.SignatureOrder
import Floatile.Lib.Framing

/-! The text that a content digest hashes determines the files, so two contents with the same
digest are the same or a collision of the hash. -/
namespace Floatile.Core

open Floatile.Lib
open Floatile.Core.Signature

/-- The text that `content_digest` hashes. -/
def hashedText (files : Files) : List UInt8 := files.entries.flatMap digestEntry

/-- The files whose digest is signed. -/
def signableFiles (files : Files) : Files := files.erase signatureFile

/-- A name without NUL, and a content whose length fits the 64 bits that are hashed. -/
def Hashable (file : String × List UInt8) : Prop :=
  '\x00' ∉ file.1.toList ∧ file.2.length < 2^64

theorem zero_mem_utf8EncodeChar {c : Char} (h : 0 ∈ String.utf8EncodeChar c) : c = '\x00' := by
  have hzero : c.val.toNat = 0 := by
    unfold String.utf8EncodeChar at h
    dsimp only at h
    split_ifs at h with h7 h11 h16
    all_goals
      simp only [List.mem_cons, List.not_mem_nil, or_false, ← UInt8.toNat_inj, UInt8.toNat_ofNat',
        UInt8.toNat_zero] at h
      omega
  exact Char.ext (UInt32.toNat_inj.mp hzero)

theorem zero_notMem_utf8 {s : String} (h : '\x00' ∉ s.toList) : 0 ∉ utf8 s := by
  intro hmem
  rw [← String.ofList_toList (s := s), utf8_ofList] at hmem
  obtain ⟨c,hc,hzero⟩ := List.mem_flatMap.mp hmem
  rw [zero_mem_utf8EncodeChar hzero] at hc
  exact h hc

theorem utf8_inj {s t : String} (h : utf8 s = utf8 t) : s = t := by
  apply String.toByteArray_inj.mp
  exact ByteArray.ext (Array.toList_inj.mp h)

theorem mod_pow_of_digits {n m k : ℕ}
    (h : ∀ i < k, n / 256^i % 256 = m / 256^i % 256) : n % 256^k = m % 256^k := by
  induction k with
  | zero => simp [Nat.mod_one]
  | succ k ih =>
    rw [Nat.mod_pow_succ, Nat.mod_pow_succ, ih (fun i hi => h i (by omega)), h k (by omega)]

theorem framed_toLeBytes : Framed (fun n => n < 2^64) toLeBytes := by
  refine Framed.of_length (n := 8) (fun n => by simp [toLeBytes]) fun n m hn hm h => ?_
  have hdigits : ∀ i < 8, n / 256^i % 256 = m / 256^i % 256 := by
    intro i hi
    have hbyte := List.map_inj_left.mp h i (List.mem_range.mpr hi)
    simpa [← UInt8.toNat_inj] using hbyte
  have hmod := mod_pow_of_digits hdigits
  rwa [Nat.mod_eq_of_lt (by simpa using hn), Nat.mod_eq_of_lt (by simpa using hm)] at hmod

theorem framed_digestEntry : Framed Hashable digestEntry := by
  have hname : Framed (fun name : String => '\x00' ∉ name.toList) (fun name => utf8 name ++ [0]) :=
    Framed.terminated (fun _ => zero_notMem_utf8) (fun _ _ _ _ => utf8_inj)
  have hentry := hname.append framed_toLeBytes.lengthPrefixed
  intro file file' hfile hfile' r s h
  exact hentry hfile hfile' (by simpa only [digestEntry, List.append_assoc] using h)

variable {a b : Files}

theorem hashedText_inj (ha : ∀ e ∈ a.entries, Hashable e) (hb : ∀ e ∈ b.entries, Hashable e)
    (h : hashedText a = hashedText b) : a = b :=
  OrdMap.eq_of_entries_eq
    (framed_digestEntry.flatMap_inj (fun e => by simp [digestEntry]) ha hb h)

theorem hashable_signableFiles (ha : ∀ e ∈ a.entries, Hashable e) :
    ∀ e ∈ (signableFiles a).entries, Hashable e :=
  fun e he => ha e ((SortedMap.erase_sublist signatureFile a.entries).subset he)

/-- The signed files are the same when the files differ in the envelope at most. -/
theorem signableFiles_eq_iff : signableFiles a = signableFiles b ↔
    ∀ path, path ≠ signatureFile → a.get path = b.get path := by
  constructor
  · intro h path hpath
    have hget := congrArg (fun files => OrdMap.get files path) h
    simpa [signableFiles, OrdMap.get_erase, hpath] using hget
  · intro h
    apply OrdMap.eq_of_entries_eq
    refine SortedMap.eq_of_find_eq (a.erase signatureFile).ordered (b.erase signatureFile).ordered
      fun path => ?_
    change (a.erase signatureFile).get path = (b.erase signatureFile).get path
    rw [OrdMap.get_erase, OrdMap.get_erase]
    split_ifs with hpath
    · rfl
    · exact h path hpath

/-- The two texts are a collision of the hash. -/
def Collides (sha256 : List UInt8 → Bytes32) (x y : List UInt8) : Prop :=
  x ≠ y ∧ sha256 x = sha256 y

/-- The hashed texts determine the files, so equal digests mean equal files, unless the two hashed
texts are a collision. -/
theorem digest_determines_files (lib : SignatureLib) {a b : Files}
    (ha : ∀ e ∈ a.entries, Hashable e) (hb : ∀ e ∈ b.entries, Hashable e) :
    (contentDigest lib.sha256 a = lib.sha256 (hashedText a) ∧
      signableContentDigest lib a = lib.sha256 (hashedText (signableFiles a))) ∧
    (hashedText a = hashedText b ↔ a = b) ∧
    (hashedText (signableFiles a) = hashedText (signableFiles b) ↔
      ∀ path, path ≠ signatureFile → a.get path = b.get path) ∧
    (contentDigest lib.sha256 a = contentDigest lib.sha256 b →
      a = b ∨ Collides lib.sha256 (hashedText a) (hashedText b)) ∧
    (signableContentDigest lib a = signableContentDigest lib b →
      (∀ path, path ≠ signatureFile → a.get path = b.get path) ∨
        Collides lib.sha256 (hashedText (signableFiles a)) (hashedText (signableFiles b))) := by
  have hfiles : hashedText a = hashedText b ↔ a = b :=
    ⟨hashedText_inj ha hb,fun h => h ▸ rfl⟩
  have hsignable : hashedText (signableFiles a) = hashedText (signableFiles b) ↔
      ∀ path, path ≠ signatureFile → a.get path = b.get path := by
    rw [← signableFiles_eq_iff]
    exact ⟨hashedText_inj (hashable_signableFiles ha) (hashable_signableFiles hb),fun h => h ▸ rfl⟩
  refine ⟨⟨rfl,rfl⟩,hfiles,hsignable,fun h => ?_,fun h => ?_⟩
  · by_cases htext : hashedText a = hashedText b
    · exact Or.inl (hfiles.mp htext)
    · exact Or.inr ⟨htext,h⟩
  · by_cases htext : hashedText (signableFiles a) = hashedText (signableFiles b)
    · exact Or.inl (hsignable.mp htext)
    · exact Or.inr ⟨htext,h⟩

/-- The same content under another name. -/
def renamedFiles : Files := OrdMap.ofList [("manifest.jsonc",[0x7B,0x7D])]

theorem renamedFiles_text : hashedText signedFiles ≠ hashedText renamedFiles := by
  have hhashable : ∀ files ∈ [signedFiles,renamedFiles], ∀ e ∈ files.entries, Hashable e := by
    simp [signedFiles, renamedFiles, OrdMap.ofList, SortedMap.ofList, SortedMap.insert, Hashable]
  have hsame := (digest_determines_files signerLib (hhashable signedFiles (by simp))
    (hhashable renamedFiles (by simp))).2.1
  rw [ne_eq, hsame]
  intro h
  exact absurd (congrArg (fun files => OrdMap.entries files) h) (by decide)

end Floatile.Core
