import Floatile.Lib.Checked
import Floatile.Lib.Text
import Mathlib.Data.Nat.Basic

/-! Connections to external accounts: a health and an opaque reference to a credential. -/
namespace Floatile.Core

open Floatile.Lib
open Floatile.Lib.Checked (reject)

structure ConnectionId where
  value : ℕ
  deriving DecidableEq, Repr

theorem ConnectionId.value_injective : Function.Injective ConnectionId.value := by
  rintro ⟨m⟩ ⟨n⟩ h
  exact congrArg ConnectionId.mk h

instance : LinearOrder ConnectionId :=
  LinearOrder.lift' ConnectionId.value ConnectionId.value_injective

def maxConnectionProviderBytes : ℕ := 64

def maxConnectionAccountBytes : ℕ := 256

def maxCredentialRefBytes : ℕ := 256

def validCredentialPart (part : String) : Bool :=
  !part.isEmpty && part != "." && part != ".." &&
    part.toList.all (fun c => Text.isAsciiAlphanumeric c || c == '-' || c == '_' || c == '.')

def validCredentialRef (value : String) : Bool :=
  match Text.stripPrefix value "cred://" with
  | none => false
  | some path =>
    !path.isEmpty && !Text.startsWith path "/" && !Text.endsWith path "/" &&
      (Text.splitChar path '/').all validCredentialPart

/-- The name under which a vault keeps a credential. -/
structure CredentialRef where
  text : String
  valid : Text.byteLen text ≤ maxCredentialRefBytes ∧ validCredentialRef text = true
  deriving DecidableEq

inductive ConnectionHealth where
  | unknown
  | healthy
  | degraded
  | unavailable
  | revoked
  deriving DecidableEq, Repr

structure Connection where
  id : ConnectionId
  credential : CredentialRef
  health : ConnectionHealth
  credentialGeneration : ℕ
  deriving DecidableEq

inductive ConnectionModelError where
  | invalidId
  | invalidProvider
  | invalidAccountIdentity
  | invalidTimestamps
  deriving DecidableEq, Repr

def ConnectionModelError.display : ConnectionModelError → String
  | .invalidId => "connection id 无效"
  | .invalidProvider => "provider 无效"
  | .invalidAccountIdentity => "account identity 无效"
  | .invalidTimestamps => "connection 时间戳无效"

def validateToken (value : String) (maximum : ℕ) : Bool :=
  !value.isEmpty && decide (Text.byteLen value ≤ maximum) &&
    value.toList.all (fun c => Text.isAsciiLowercase c || Text.isAsciiDigit c || c == '-' || c == '.')

def validateText (value : String) (maximum : ℕ) : Bool :=
  !value.isEmpty && decide (Text.byteLen value ≤ maximum) && !value.toList.any Text.isControl

/-- The checks that a connection passes when it is made and when it is read back. -/
def Connection.restore (connection : Connection) (provider accountIdentity : String)
    (createdAt updatedAt : ℕ) : Except ConnectionModelError Connection := do
  reject (¬validateToken provider maxConnectionProviderBytes) .invalidProvider
  reject (¬validateText accountIdentity maxConnectionAccountBytes) .invalidAccountIdentity
  reject (connection.id.value = 0) .invalidId
  reject (updatedAt < createdAt) .invalidTimestamps
  .ok connection

end Floatile.Core
