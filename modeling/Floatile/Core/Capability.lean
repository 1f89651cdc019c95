import Floatile.Core.Json
import Floatile.Lib.SortedMap
import Floatile.Lib.Text

/-! The capability registry, capability parameters and the permission decision. -/
namespace Floatile.Core.Capability

open Floatile.Lib

inductive CapabilityId where
  | uiUpdateState
  | logWrite
  | clockRead
  | storageRead
  | storageWrite
  | timerSchedule
  | themeSubscribe
  | systemCpu
  | systemMemory
  | networkHttps
  deriving DecidableEq, Repr

inductive CapabilityExposure where
  | inherent
  | declared
  deriving DecidableEq

inductive CapabilityParamKind where
  | none
  | storage
  | timer
  | metrics
  | network
  deriving DecidableEq

structure CapabilityDefinition where
  id : CapabilityId
  name : String
  exposure : CapabilityExposure
  params : CapabilityParamKind

def CapabilityId.definition : CapabilityId → CapabilityDefinition
  | .uiUpdateState => ⟨.uiUpdateState,"ui:update-state",.inherent,.none⟩
  | .logWrite => ⟨.logWrite,"log:write",.inherent,.none⟩
  | .clockRead => ⟨.clockRead,"clock:read",.inherent,.none⟩
  | .storageRead => ⟨.storageRead,"storage:read",.declared,.storage⟩
  | .storageWrite => ⟨.storageWrite,"storage:write",.declared,.storage⟩
  | .timerSchedule => ⟨.timerSchedule,"timer:schedule",.declared,.timer⟩
  | .themeSubscribe => ⟨.themeSubscribe,"theme:subscribe",.declared,.none⟩
  | .systemCpu => ⟨.systemCpu,"system:cpu",.declared,.metrics⟩
  | .systemMemory => ⟨.systemMemory,"system:memory",.declared,.none⟩
  | .networkHttps => ⟨.networkHttps,"network:https",.declared,.network⟩

def capabilityIds : List CapabilityId :=
  [.uiUpdateState,.logWrite,.clockRead,.storageRead,.storageWrite,.timerSchedule,
    .themeSubscribe,.systemCpu,.systemMemory,.networkHttps]

def capabilityRegistry : List CapabilityDefinition :=
  capabilityIds.map CapabilityId.definition

namespace CapabilityId

def name (c : CapabilityId) : String := c.definition.name

def isInherent (c : CapabilityId) : Bool := c.definition.exposure = .inherent

def fromName (name : String) : Option CapabilityId :=
  (capabilityRegistry.find? (fun d => d.name = name)).map CapabilityDefinition.id

/-- The discriminant, by which capabilities are ordered. -/
def discriminant : CapabilityId → ℕ
  | .uiUpdateState => 0
  | .logWrite => 1
  | .clockRead => 2
  | .storageRead => 3
  | .storageWrite => 4
  | .timerSchedule => 5
  | .themeSubscribe => 6
  | .systemCpu => 7
  | .systemMemory => 8
  | .networkHttps => 9

theorem discriminant_injective : Function.Injective discriminant := by
  intro c d h
  cases c <;> cases d <;> first | rfl | simp [discriminant] at h

instance : LinearOrder CapabilityId := LinearOrder.lift' discriminant discriminant_injective

@[simp] theorem definition_id (c : CapabilityId) : c.definition.id = c := by cases c <;> rfl

theorem mem_capabilityIds (c : CapabilityId) : c ∈ capabilityIds := by
  cases c <;> simp [capabilityIds]

/-- Registered names parse back to their capability. -/
@[simp] theorem fromName_name (c : CapabilityId) : fromName c.name = some c := by
  cases c <;> decide

end CapabilityId

/-- Scope and quota of a capability. An empty `keys` list stands for all private keys. -/
inductive CapabilityParams where
  | storage (keys : List String) (maxBytes : ℕ)
  | timer (maxPerMinute maxActive : ℕ)
  | metrics (sampleRateHz : ℕ)
  | network (origins : List String) (maxRequestsPerMinute maxResponseBytes maxTimeoutMs : ℕ)
  deriving DecidableEq, Repr

inductive EffectiveGrant where
  | prompted
  | explicit
  | derivedFromInstall
  deriving DecidableEq, Repr

inductive TrustLevel where
  | none
  | dev
  | signedUntrusted
  | signedTrusted
  deriving DecidableEq, Repr

structure Grant where
  capability : CapabilityId
  params : Option CapabilityParams
  effective : EffectiveGrant
  deriving DecidableEq, Repr

structure PluginId where
  text : String
  deriving DecidableEq, Repr

structure InstanceId where
  value : ℕ
  deriving DecidableEq, Repr

/-- The authority of a plugin, the upper bound of every instance. -/
structure Grants where
  plugin : PluginId
  caps : List Grant
  trust : TrustLevel
  deriving DecidableEq

/-- The authority of one instance. -/
structure InstanceGrant where
  id : InstanceId
  caps : List Grant
  deriving DecidableEq

/-- The first grant of a capability. -/
def findGrant (caps : List Grant) (c : CapabilityId) : Option Grant :=
  caps.find? (fun g => g.capability = c)

def Grants.find (grants : Grants) (c : CapabilityId) : Option Grant := findGrant grants.caps c

theorem capability_of_findGrant {caps : List Grant} {c : CapabilityId} {g : Grant}
    (h : findGrant caps c = some g) : g.capability = c := by
  simpa using List.find?_some h

theorem mem_of_findGrant {caps : List Grant} {c : CapabilityId} {g : Grant}
    (h : findGrant caps c = some g) : g ∈ caps :=
  List.mem_of_find?_eq_some h

inductive DenyReason where
  | notGranted
  | scopeViolation
  | quotaExceeded
  | environmentUnavailable
  | invalidInput
  deriving DecidableEq, Repr

inductive PermissionDecision where
  | allowed
  | denied (reason : DenyReason)
  deriving DecidableEq, Repr

inductive CapabilityError where
  | unknownCapability (name : String)
  | invalidParams (capability detail : String)
  | notGranted (detail : String)
  | exceedsPluginGrant (detail : String)
  deriving DecidableEq, Repr

def CapabilityError.display : CapabilityError → String
  | .unknownCapability name => s!"未知能力 `{name}`"
  | .invalidParams capability detail => s!"能力 `{capability}` 参数非法: {detail}"
  | .notGranted detail => s!"能力未在插件授权中声明: {detail}"
  | .exceedsPluginGrant detail => s!"实例授权超出插件授权上限: {detail}"

def invalidParams {α : Type} (c : CapabilityId) (detail : String) : Except CapabilityError α :=
  .error (.invalidParams c.name detail)

def unknownField {α : Type} (c : CapabilityId) (field : String) : Except CapabilityError α :=
  invalidParams c s!"未知字段 `{field}`"

/-- A value that is absent is reported as an invalid parameter. -/
def expect {α : Type} (c : CapabilityId) (detail : String) :
    Option α → Except CapabilityError α
  | some a => .ok a
  | none => invalidParams c detail

def u32TryFrom (n : ℕ) : Option ℕ := if n < 2^32 then some n else none

def boundedU32 (value : Json) (c : CapabilityId) (field : String) (min max : ℕ) :
    Except CapabilityError ℕ := do
  let n ← expect c s!"`{field}` 必须是 32 位整数" (value.asU64.bind u32TryFrom)
  if min ≤ n ∧ n ≤ max then .ok n
  else invalidParams c s!"`{field}` 必须在 {min}..={max}"

def boundedU64 (value : Json) (c : CapabilityId) (field : String) (min max : ℕ) :
    Except CapabilityError ℕ := do
  let n ← expect c s!"`{field}` 必须是非负整数" value.asU64
  if min ≤ n ∧ n ≤ max then .ok n
  else invalidParams c s!"`{field}` 必须在 {min}..={max}"

def validateHttpsOrigin (origin : String) : Except CapabilityError Unit :=
  let rest := origin.toList.drop 8
  let invalid := !Text.startsWith origin "https://" ||
    255 < Text.byteLen origin ||
    rest.isEmpty ||
    rest.contains '/' ||
    Text.containsChar origin '@' ||
    Text.containsChar origin '?' ||
    Text.containsChar origin '#' ||
    origin.toList.any Text.isWhitespace
  if invalid then
    .error (.invalidParams "network:https" s!"`{origin}` 不是精确 HTTPS origin")
  else .ok ()

def validateStorageKey (key : String) : Except CapabilityError Unit :=
  if key.isEmpty then .error (.invalidParams "storage:*" "空存储键")
  else if Text.containsChar key '\x00' || 256 < Text.charCount key then
    .error (.invalidParams "storage:*" "存储键含 NUL 或超过 256 字符")
  else .ok ()

def parseStorageKey (c : CapabilityId) (keys : List String) (value : Json) :
    Except CapabilityError (List String) := do
  let key ← expect c "`keys` 元素必须是字符串" value.asStr
  validateStorageKey key
  .ok (keys ++ [key])

def parseStorageField (c : CapabilityId) (acc : List String × ℕ) (field : String × Json) :
    Except CapabilityError (List String × ℕ) :=
  match field.1 with
  | "keys" => do
    let items ← expect c "`keys` 必须是字符串数组" field.2.asArray
    let keys ← items.foldlM (parseStorageKey c) acc.1
    .ok (keys,acc.2)
  | "maxBytes" => do
    let n ← expect c "`maxBytes` 必须是非负整数" field.2.asU64
    .ok (acc.1,n)
  | other => unknownField c other

def parseTimerField (c : CapabilityId) (acc : ℕ × ℕ) (field : String × Json) :
    Except CapabilityError (ℕ × ℕ) :=
  match field.1 with
  | "maxPerMinute" => do
    let n ← expect c "`maxPerMinute` 必须是非负 32 位整数" (field.2.asU64.bind u32TryFrom)
    .ok (n,acc.2)
  | "maxActive" => do
    let n ← expect c "`maxActive` 必须是非负 32 位整数" (field.2.asU64.bind u32TryFrom)
    .ok (acc.1,n)
  | other => unknownField c other

def parseMetricsField (c : CapabilityId) (_ : ℕ) (field : String × Json) :
    Except CapabilityError ℕ :=
  match field.1 with
  | "sampleRateHz" =>
    expect c "`sampleRateHz` 必须是非负 32 位整数" (field.2.asU64.bind u32TryFrom)
  | other => unknownField c other

structure NetworkFields where
  origins : List String
  maxRequestsPerMinute : ℕ
  maxResponseBytes : ℕ
  maxTimeoutMs : ℕ

def parseOrigin (c : CapabilityId) (origins : List String) (value : Json) :
    Except CapabilityError (List String) := do
  let origin ← expect c "`origins` 元素必须是字符串" value.asStr
  validateHttpsOrigin origin
  if origins.contains origin then invalidParams c s!"重复 origin `{origin}`"
  else .ok (origins ++ [origin])

def parseNetworkField (c : CapabilityId) (acc : NetworkFields) (field : String × Json) :
    Except CapabilityError NetworkFields :=
  match field.1 with
  | "origins" => do
    let values ← expect c "`origins` 必须是字符串数组" field.2.asArray
    if values.isEmpty || 16 < values.length then
      invalidParams c "`origins` 必须包含 1..=16 项"
    else
      let origins ← values.foldlM (parseOrigin c) acc.origins
      .ok { acc with origins := origins }
  | "maxRequestsPerMinute" => do
    let n ← boundedU32 field.2 c field.1 1 600
    .ok { acc with maxRequestsPerMinute := n }
  | "maxResponseBytes" => do
    let n ← boundedU64 field.2 c field.1 1 (1024 * 1024)
    .ok { acc with maxResponseBytes := n }
  | "maxTimeoutMs" => do
    let n ← boundedU64 field.2 c field.1 100 30000
    .ok { acc with maxTimeoutMs := n }
  | other => unknownField c other

def defaultParams (c : CapabilityId) : Except CapabilityError (Option CapabilityParams) :=
  match c.definition.params with
  | .storage => .ok (some (.storage [] (64 * 1024)))
  | .timer => .ok (some (.timer 60 8))
  | .metrics => .ok (some (.metrics 1))
  | .network => invalidParams c "`origins` 不得省略"
  | .none => .ok none

/-- Parameters of a manifest entry; unknown fields are rejected. -/
def parseCapabilityParams (c : CapabilityId) (json : Option Json) :
    Except CapabilityError (Option CapabilityParams) :=
  match json with
  | none => defaultParams c
  | some json => do
    let obj ← expect c "params 必须是 JSON object" json.asObject
    match c.definition.params with
    | .storage => do
      let (keys,maxBytes) ← obj.foldlM (parseStorageField c) ([],64 * 1024)
      .ok (some (.storage keys maxBytes))
    | .timer => do
      let (maxPerMinute,maxActive) ← obj.foldlM (parseTimerField c) (60,8)
      .ok (some (.timer maxPerMinute maxActive))
    | .metrics => do
      let sampleRateHz ← obj.foldlM (parseMetricsField c) 1
      .ok (some (.metrics sampleRateHz))
    | .network => do
      let fields ← obj.foldlM (parseNetworkField c) ⟨[],30,256 * 1024,10000⟩
      if fields.origins.isEmpty then invalidParams c "`origins` 不得省略"
      else .ok (some (.network fields.origins fields.maxRequestsPerMinute
        fields.maxResponseBytes fields.maxTimeoutMs))
    | .none => invalidParams c "该能力不接受 params"

/-- Is the capability granted, and is the request within the granted parameters? -/
def decide (grant : Option Grant) (request : Option CapabilityParams) : PermissionDecision :=
  match grant, request with
  | none, _ => .denied .notGranted
  | some grant, none => if grant.params.isNone then .allowed else .denied .scopeViolation
  | some grant, some request =>
    match grant.params, request with
    | none, _ => .denied .scopeViolation
    | some (.storage keys maxBytes), .storage rk rb =>
      if !(keys.isEmpty || rk.all keys.contains) then .denied .scopeViolation
      else if maxBytes < rb then .denied .quotaExceeded
      else .allowed
    | some (.timer maxPerMinute maxActive), .timer rp ra =>
      if maxPerMinute < rp ∨ maxActive < ra then .denied .quotaExceeded else .allowed
    | some (.metrics sampleRateHz), .metrics rr =>
      if sampleRateHz < rr then .denied .quotaExceeded else .allowed
    | some (.network origins maxRequests maxBytes maxTimeout), .network ro rr rb rt =>
      if !ro.all origins.contains then .denied .scopeViolation
      else if maxRequests < rr ∨ maxBytes < rb ∨ maxTimeout < rt then .denied .quotaExceeded
      else .allowed
    | _, _ => .denied .invalidInput

/-- The parameters of an instance entry do not exceed those of the plugin entry. -/
def paramsWithin (plugin inst : Option CapabilityParams) : Bool :=
  match plugin, inst with
  | none, none => true
  | none, some _ => false
  | some _, none => true
  | some (.storage keys maxBytes), some (.storage ik ib) =>
    (keys.isEmpty || ik.all keys.contains) && ib ≤ maxBytes
  | some (.timer maxPerMinute maxActive), some (.timer ip ia) =>
    ip ≤ maxPerMinute && ia ≤ maxActive
  | some (.metrics sampleRateHz), some (.metrics ir) => ir ≤ sampleRateHz
  | some (.network origins maxRequests maxBytes maxTimeout), some (.network io ir ib it) =>
    io.all origins.contains && ir ≤ maxRequests && ib ≤ maxBytes && it ≤ maxTimeout
  | some _, some _ => false

theorem paramsWithin_refl (p : Option CapabilityParams) : paramsWithin p p = true := by
  cases p with
  | none => rfl
  | some p => cases p <;> simp [paramsWithin]

/-- The checks of `narrowInstance` on one entry. -/
def narrowEntry (plugin : Grants) (cap : Grant) : Except CapabilityError Unit :=
  match plugin.find cap.capability with
  | none => .error (.notGranted s!"实例要求 {cap.capability.name} 但插件未授权")
  | some granted =>
    if !paramsWithin granted.params cap.params then
      .error (.exceedsPluginGrant s!"{cap.capability.name} 实例参数超出插件授权")
    else .ok ()

/-- Every entry of an instance must be granted to the plugin and stay within its parameters. -/
def narrowInstance (plugin : Grants) (id : InstanceId) (caps : List Grant) :
    Except CapabilityError InstanceGrant := do
  caps.forM (narrowEntry plugin)
  .ok ⟨id,caps⟩

end Floatile.Core.Capability
