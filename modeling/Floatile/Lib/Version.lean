import Floatile.Lib.Text
import Mathlib.Data.Prod.Lex

/-! Versions of three numbers, the part of semantic versions without pre-release and build
identifiers. -/
namespace Floatile.Lib.Version

structure CoreVersion where
  major : ℕ
  minor : ℕ
  patch : ℕ
  deriving DecidableEq, Repr

namespace CoreVersion

def key (v : CoreVersion) : ℕ ×ₗ ℕ ×ₗ ℕ := toLex (v.major,toLex (v.minor,v.patch))

theorem key_injective : Function.Injective key := by
  rintro ⟨a,b,c⟩ ⟨a',b',c'⟩ h
  simpa [key] using h

instance : LinearOrder CoreVersion := LinearOrder.lift' key key_injective

end CoreVersion

/-- A numeric identifier has no leading zero and fits 64 bits. -/
def parseNumericIdentifier (s : String) : Except String ℕ :=
  if s = "0" then .ok 0
  else if Text.startsWith s "0" || Text.startsWith s "+" then .error "invalid leading zero"
  else
    match Text.parseU64 s with
    | some n => .ok n
    | none => .error "unexpected character"

def parseCoreVersion (s : String) : Except String CoreVersion :=
  match Text.splitChar s '.' with
  | [major,minor,patch] => do
    let major ← parseNumericIdentifier major
    let minor ← parseNumericIdentifier minor
    let patch ← parseNumericIdentifier patch
    .ok ⟨major,minor,patch⟩
  | _ => .error "unexpected end of input"

example : parseCoreVersion "1.20.3" = .ok ⟨1,20,3⟩ := by rfl
example : (⟨1,9,0⟩ : CoreVersion) < ⟨1,10,0⟩ := by decide

end Floatile.Lib.Version
