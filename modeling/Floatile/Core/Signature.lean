import Floatile.Core.Install
import Floatile.Lib.Checked

/-! Verification of a detached package signature against the keys that the host trusts. JSON,
base64 and Ed25519 come from external packages and are parameters. -/
namespace Floatile.Core.Signature

open Floatile.Lib
open Floatile.Lib.Checked (reject)

def signatureFile : String := "signature.json"

def packageDigestPayloadType : String := "application/vnd.floatile.package-digest.v1"

def maxSignatureEnvelopeBytes : ℕ := 16 * 1024

def maxPackageSignatures : ℕ := 8

structure EnvelopeSignature where
  keyid : String
  sig : String
  deriving DecidableEq, Repr

structure SignatureEnvelope where
  payloadType : String
  payload : String
  signatures : List EnvelopeSignature
  deriving DecidableEq, Repr

inductive SignatureVerificationError where
  | envelopeTooLarge
  | malformedEnvelope
  | unsupportedPayloadType
  | invalidSignatureCount
  | digestMismatch
  | publisherMismatch
  | publisherRevoked
  | keyRevoked
  | unknownKey
  | invalidSignature
  deriving DecidableEq, Repr

inductive TrustedPublisherState where
  | active
  | revoked
  deriving DecidableEq, Repr

/-- The keys of a publisher that the host trusts, and those it has revoked. -/
structure TrustedPublisher where
  publisherId : String
  state : TrustedPublisherState
  keys : List Bytes32
  revokedKeyIds : List String
  deriving DecidableEq

/-- The external functions behind the verification. -/
structure SignatureLib where
  sha256 : List UInt8 → Bytes32
  parseEnvelope : List UInt8 → Option SignatureEnvelope
  base64Decode : String → Option (List UInt8)
  base64Encode : List UInt8 → String
  verifyingKey : Bytes32 → Bool
  verifyStrict : Bytes32 → List UInt8 → List UInt8 → Bool

variable (lib : SignatureLib)

/-- The digest of all files but the envelope itself. -/
def signableContentDigest (files : Files) : Bytes32 :=
  contentDigest lib.sha256 (files.erase signatureFile)

def publisherKeyId (publicKey : Bytes32) : String := hexEncode (lib.sha256 publicKey.bytes).bytes

/-- The text that is signed. -/
def dssePae (payloadType : String) (payload : List UInt8) : List UInt8 :=
  utf8 s!"DSSEv1 {Text.byteLen payloadType} {payloadType} {payload.length} " ++ payload

def decodeCanonicalBase64 (value : String) : Except SignatureVerificationError (List UInt8) :=
  match lib.base64Decode value with
  | none => .error .malformedEnvelope
  | some decoded =>
    if lib.base64Encode decoded = value then .ok decoded else .error .malformedEnvelope

/-- The loop over the signatures and, for each, over the trusted keys; `matched` tells whether a
trusted key has been named so far. -/
def trySignatures (pae : List UInt8) :
    List (EnvelopeSignature × Bytes32) → Bool → Except SignatureVerificationError Unit
  | [], matched => .error (if matched then .invalidSignature else .unknownKey)
  | (signature,publicKey) :: rest, matched =>
    if signature.keyid ≠ publisherKeyId lib publicKey then trySignatures pae rest matched
    else do
      let bytes ← decodeCanonicalBase64 lib signature.sig
      reject (bytes.length ≠ 64) .malformedEnvelope
      reject (lib.verifyingKey publicKey = false) .malformedEnvelope
      if lib.verifyStrict publicKey pae bytes then .ok () else trySignatures pae rest true

def verifySignatureEnvelope (envelopeJson : List UInt8) (files : Files)
    (manifestPublisherId : String) (trustedPublisher : TrustedPublisher) :
    Except SignatureVerificationError Unit := do
  reject (maxSignatureEnvelopeBytes < envelopeJson.length) .envelopeTooLarge
  reject (manifestPublisherId ≠ trustedPublisher.publisherId) .publisherMismatch
  reject (trustedPublisher.state = .revoked) .publisherRevoked
  match lib.parseEnvelope envelopeJson with
  | none => .error .malformedEnvelope
  | some envelope => do
    reject (envelope.payloadType ≠ packageDigestPayloadType) .unsupportedPayloadType
    reject (envelope.signatures.isEmpty ∨ maxPackageSignatures < envelope.signatures.length)
      .invalidSignatureCount
    let payload ← decodeCanonicalBase64 lib envelope.payload
    reject (payload.length ≠ 32) .malformedEnvelope
    reject (payload ≠ (signableContentDigest lib files).bytes) .digestMismatch
    reject (∃ s ∈ envelope.signatures, s.keyid ∈ trustedPublisher.revokedKeyIds) .keyRevoked
    trySignatures lib (dssePae envelope.payloadType payload)
      (envelope.signatures.flatMap (fun s => trustedPublisher.keys.map (fun key => (s,key)))) false

end Floatile.Core.Signature
