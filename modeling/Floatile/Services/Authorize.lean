import Floatile.Core.Authority

/-! The permission check of the broker and its audit records. -/
namespace Floatile.Services

open Floatile.Core
open Floatile.Core.Capability
open Floatile.Core.Authority

/-- One redacted record of a capability decision. -/
structure AuditEvent where
  plugin : String
  inst : ℕ
  capability : String
  decision : String
  reason : Option String
  detail : String
  deriving DecidableEq, Repr

/-- The identity under which a broker records its decisions. -/
structure AuditSink where
  plugin : String
  inst : ℕ
  deriving DecidableEq

def denyReasonName : DenyReason → String
  | .notGranted => "NotGranted"
  | .scopeViolation => "ScopeViolation"
  | .quotaExceeded => "QuotaExceeded"
  | .environmentUnavailable => "EnvironmentUnavailable"
  | .invalidInput => "InvalidInput"

def AuditSink.record (sink : AuditSink) (c : CapabilityId) (allowed : Bool)
    (reason : Option DenyReason) (detail : String) : AuditEvent where
  plugin := sink.plugin
  inst := sink.inst
  capability := c.name
  decision := if allowed then "allow" else "deny"
  reason := reason.map denyReasonName
  detail := detail

/-- Inherent capabilities that are not granted yet are added without parameters. -/
def mergeInherent (caps : List Grant) : List Grant :=
  (capabilityRegistry.filter (fun d => d.exposure = .inherent)).foldl (fun caps d =>
    if caps.any (fun g => g.capability = d.id) then caps
    else caps ++ [⟨d.id,none,.derivedFromInstall⟩]) caps

/-- The decision on the first grant of the capability, with its audit record. -/
def authorize (caps : List Grant) (sink : AuditSink) (c : CapabilityId)
    (request : Option CapabilityParams) (detail : String) :
    Except DenyReason Unit × AuditEvent :=
  match Capability.decide (findGrant caps c) request with
  | .allowed => (.ok (),sink.record c true none detail)
  | .denied reason => (.error reason,sink.record c false (some reason) detail)

@[simp] theorem authorize_eq_ok (caps : List Grant) (sink : AuditSink) (c : CapabilityId)
    (request : Option CapabilityParams) (detail : String) :
    (authorize caps sink c request detail).1 = .ok () ↔ Allows (findGrant caps c) request := by
  unfold authorize Allows
  cases Capability.decide (findGrant caps c) request <;> simp

/-- One merging step keeps the first grant of every capability. -/
theorem findGrant_merge (caps : List Grant) (d c : CapabilityId) :
    findGrant (if caps.any (fun g => g.capability = d) then caps
      else caps ++ [⟨d,none,.derivedFromInstall⟩]) c =
      (findGrant caps c).or (if d = c then some ⟨d,none,.derivedFromInstall⟩ else none) := by
  unfold findGrant
  split_ifs with hany hdc hdc
  · obtain ⟨g,hg,hgd⟩ := List.any_eq_true.mp hany
    have hsome : (caps.find? (fun g => g.capability = c)).isSome :=
      List.find?_isSome.mpr ⟨g,hg,by simpa [hdc] using hgd⟩
    obtain ⟨g',hg'⟩ := Option.isSome_iff_exists.mp hsome
    simp [hg']
  · simp
  · simp [List.find?_append, hdc]
  · simp [List.find?_append, hdc]

/-- After merging, an inherent capability is granted without parameters unless it was granted
before. -/
theorem findGrant_mergeInherent (caps : List Grant) (c : CapabilityId) :
    findGrant (mergeInherent caps) c = (findGrant caps c).or
      (if c.isInherent then some ⟨c,none,.derivedFromInstall⟩ else none) := by
  have hinherent : capabilityRegistry.filter (fun d => d.exposure = .inherent) =
      [CapabilityId.uiUpdateState,.logWrite,.clockRead].map CapabilityId.definition := by
    rfl
  simp only [mergeInherent, hinherent, List.map_cons, List.map_nil, List.foldl_cons,
    List.foldl_nil, CapabilityId.definition_id]
  rw [findGrant_merge, findGrant_merge, findGrant_merge]
  cases c <;> simp [CapabilityId.isInherent, CapabilityId.definition]

end Floatile.Services
