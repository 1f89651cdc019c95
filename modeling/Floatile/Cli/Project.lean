import Floatile.Lib.Version
import Floatile.Services.Broker
import Floatile.Shell.ManifestGrants
import Floatile.Sdk.DerivedState

/-! The project file of an author: its sections become the permissions of the manifest, and the
permissions become the authority of the widget, in the shell and under test. The compiler and the
format of components are external; what a component imports is given. -/
namespace Floatile.Cli.Project

open Floatile.Lib
open Floatile.Lib.Version (parseCoreVersion)
open Floatile.Core
open Floatile.Core.Capability
open Floatile.Core.Authority
open Floatile.Core.Distribution (parsedPermission)
open Floatile.Services
open Floatile.Shell

def authorSection : CapabilityId → Option String
  | .uiUpdateState => none
  | .logWrite => none
  | .clockRead => none
  | .storageRead => some "storage"
  | .storageWrite => some "storage"
  | .timerSchedule => some "timer"
  | .themeSubscribe => some "theme"
  | .systemCpu => some "metrics"
  | .systemMemory => some "metrics"
  | .networkHttps => some "httpTemplates"

def witInterface : CapabilityId → String
  | .uiUpdateState => "host-ui"
  | .logWrite => "host-log"
  | .clockRead => "host-clock"
  | .storageRead => "host-storage"
  | .storageWrite => "host-storage"
  | .timerSchedule => "host-timer"
  | .themeSubscribe => "host-theme"
  | .systemCpu => "host-metrics"
  | .systemMemory => "host-metrics"
  | .networkHttps => "host-http"

def witFunctions : CapabilityId → List String
  | .uiUpdateState => ["update-state"]
  | .logWrite => ["log"]
  | .clockRead => ["now"]
  | .storageRead => ["get","submit-get","take-get-result"]
  | .storageWrite => ["set","delete"]
  | .timerSchedule => ["schedule","cancel"]
  | .themeSubscribe => ["get-token","subscribe","unsubscribe"]
  | .systemCpu => ["cpu-percent"]
  | .systemMemory => ["memory"]
  | .networkHttps => ["submit","take-result"]

structure PluginCfg where
  id : String
  name : String
  version : String

structure WidgetCfg where
  defaultSize : Option (Float32 × Float32)
  minSize : Option (Float32 × Float32)
  maxSize : Option (Float32 × Float32)

structure PublisherCfg where
  id : String
  name : String

/-- The parameters of one section; a section serves all capabilities that are assigned to it. -/
structure PermissionCfg where
  keys : List String := []
  maxBytes : Option UInt64 := none
  maxPerMinute : Option UInt32 := none
  maxActive : Option UInt32 := none
  sampleRateHz : Option UInt32 := none
  origins : List String := []
  maxRequestsPerMinute : Option UInt32 := none
  maxResponseBytes : Option UInt64 := none
  maxTimeoutMs : Option UInt64 := none

structure ProjectConfig where
  plugin : PluginCfg
  widget : WidgetCfg
  permissions : OrdMap String PermissionCfg
  httpTemplates : List HttpTemplateDecl
  publisher : Option PublisherCfg

inductive ProjectError where
  | invalidManifest (error : ManifestError)
  | unknownCapability (name : String)
  deriving DecidableEq

def sectionToCapabilities (name : String) : Option (List CapabilityId) :=
  let capabilities := capabilityIds.filter (fun c => authorSection c = some name)
  if capabilities.isEmpty then none else some capabilities

def jsonU64 (n : UInt64) : Json := .number (.posInt n)

def jsonU32 (n : UInt32) : Json := .number (.posInt n.toUInt64)

def jsonStrings (items : List String) : Option Json :=
  if items.isEmpty then none else some (.array (items.map .string))

/-- A parameter that is given is put into the object. -/
def putSome (key : String) (value : Option Json) (params : List (String × Json)) :
    List (String × Json) :=
  match value with
  | none => params
  | some value => SortedMap.insert key value params

def permissionParams (kind : CapabilityParamKind) (cfg : PermissionCfg) : List (String × Json) :=
  match kind with
  | .none => []
  | .storage =>
    putSome "maxBytes" (cfg.maxBytes.map jsonU64) (putSome "keys" (jsonStrings cfg.keys) [])
  | .timer =>
    putSome "maxActive" (cfg.maxActive.map jsonU32)
      (putSome "maxPerMinute" (cfg.maxPerMinute.map jsonU32) [])
  | .metrics => putSome "sampleRateHz" (cfg.sampleRateHz.map jsonU32) []
  | .network =>
    putSome "maxTimeoutMs" (cfg.maxTimeoutMs.map jsonU64)
      (putSome "maxResponseBytes" (cfg.maxResponseBytes.map jsonU64)
        (putSome "maxRequestsPerMinute" (cfg.maxRequestsPerMinute.map jsonU32)
          (putSome "origins" (jsonStrings cfg.origins) [])))

def permissionDecl (cfg : PermissionCfg) (c : CapabilityId) : PermissionDecl :=
  let params := permissionParams c.definition.params cfg
  ⟨c.name,if params.isEmpty then none else some (.object params)⟩

/-- The declarations of one section are added to those of the sections before it. -/
def declareSection (permissions : List PermissionDecl) (entry : String × PermissionCfg) :
    Except ProjectError (List PermissionDecl) :=
  match sectionToCapabilities entry.1 with
  | none => .error (.unknownCapability entry.1)
  | some capabilities => .ok (permissions ++ capabilities.map (permissionDecl entry.2))

def sizeOr (size : Option (Float32 × Float32)) (fallback : Float32 × Float32) : LogicalSize :=
  let v := size.getD fallback
  ⟨v.1,v.2⟩

def projectManifest (config : ProjectConfig) (permissions : List PermissionDecl) : Manifest where
  manifestVersion := Core.manifestVersion
  id := ⟨config.plugin.id⟩
  name := config.plugin.name
  description := none
  version := config.plugin.version
  publisher := match config.publisher with
    | some p => ⟨p.id,p.name⟩
    | none => ⟨config.plugin.id,config.plugin.name⟩
  engineApiVersion := Core.engineApiVersion
  uiApiVersion := Sdk.uiApiVersion
  kind := .widget
  entrypoints := {
    ui := ⟨"ui/widget.ftui",widgetUi_valid⟩
    logic := ⟨"logic/plugin.wasm",pluginLogic_valid⟩ }
  sizes := {
    default := sizeOr config.widget.defaultSize (240,120)
    min := sizeOr config.widget.minSize (160,80)
    max := sizeOr config.widget.maxSize (800,600) }
  permissions := permissions
  httpTemplates := config.httpTemplates
  config := none
  storage := none

/-- The manifest of a project, which is validated before it is used. -/
def generateManifest {Version : Type} (parseVersion : String → Except String Version)
    (config : ProjectConfig) : Except ProjectError Manifest := do
  let permissions ← config.permissions.entries.foldlM declareSection []
  let manifest := projectManifest config permissions
  (validateManifest parseVersion manifest).mapError ProjectError.invalidManifest
  .ok manifest

/-- The grants that the test rebuilds; parameters that cannot be read are left out. -/
def testGrants (manifest : Manifest) : List Grant :=
  manifest.permissions.filterMap fun p =>
    (CapabilityId.fromName p.capability).map fun c =>
      ⟨c,((parseCapabilityParams c p.params).toOption).join,.derivedFromInstall⟩

/-- The grants of the instance under test, which is always the first one. -/
def harnessGrants (manifest : Manifest) (denyAll : Bool) : Except String InstanceGrant :=
  let grants := if denyAll then [] else testGrants manifest
  (narrowInstance ⟨manifest.id,grants,.dev⟩ ⟨1⟩ grants).mapError CapabilityError.display

/-- What a component imports under a name; of an instance the functions count. -/
inductive ImportItem where
  | componentInstance (exports : List (String × Bool))
  | other
  deriving DecidableEq

def floatileInterfaceName (name : String) : Option String :=
  (Text.stripPrefix name "floatile:widget/").bind (fun rest => (Text.splitChar rest '@').head?)

abbrev CapabilitySet := OrdMap CapabilityId Unit

def CapabilitySet.insertAll (used : CapabilitySet) (cs : List CapabilityId) : CapabilitySet :=
  cs.foldl (fun used c => used.insert c ()) used

def CapabilitySet.toList (s : CapabilitySet) : List CapabilityId := s.entries.map Prod.fst

/-- The capabilities that the functions of one import belong to. -/
def importCapabilities (entry : String × ImportItem) : List CapabilityId :=
  match floatileInterfaceName entry.1, entry.2 with
  | some name, .componentInstance exports =>
    let functions := (exports.filter Prod.snd).map Prod.fst
    capabilityIds.filter fun c =>
      witInterface c = name && (witFunctions c).any (fun f => functions.contains f)
  | _, _ => []

def importedCapabilities (imports : List (String × ImportItem)) : CapabilitySet :=
  imports.foldl (fun used entry => used.insertAll (importCapabilities entry)) OrdMap.empty

/-- The names of the capabilities that are used without a declaration, and the declared ones that
are not used. -/
def capabilityDrift (permissions : List PermissionDecl) (used : CapabilitySet) :
    List String × List CapabilityId :=
  let declared := CapabilitySet.insertAll OrdMap.empty
    (permissions.filterMap (fun p => CapabilityId.fromName p.capability))
  let missing := used.toList.filter fun c =>
    (declared.get c).isNone && c.definition.exposure = .declared
  (missing.map CapabilityId.name,declared.toList.filter (fun c => (used.get c).isNone))

/-- The parameters of a capability as its section states them, with the defaults of the host. -/
def authoredParams (c : CapabilityId) (cfg : PermissionCfg) : Option CapabilityParams :=
  match c.definition.params with
  | .none => none
  | .storage => some (.storage cfg.keys ((cfg.maxBytes.map UInt64.toNat).getD (64 * 1024)))
  | .timer => some (.timer ((cfg.maxPerMinute.map UInt32.toNat).getD 60)
    ((cfg.maxActive.map UInt32.toNat).getD 8))
  | .metrics => some (.metrics ((cfg.sampleRateHz.map UInt32.toNat).getD 1))
  | .network => some (.network cfg.origins ((cfg.maxRequestsPerMinute.map UInt32.toNat).getD 30)
    ((cfg.maxResponseBytes.map UInt64.toNat).getD (256 * 1024))
    ((cfg.maxTimeoutMs.map UInt64.toNat).getD 10000))

/-- The section of the file that serves a capability. -/
def authored (config : ProjectConfig) (c : CapabilityId) : Option PermissionCfg :=
  (authorSection c).bind config.permissions.get

/-- The requests that the project file grants to its widget. -/
def Granted (config : ProjectConfig) (c : CapabilityId) (request : Option CapabilityParams) :
    Prop :=
  (c.isInherent = true ∧ Permits none request) ∨
    ∃ cfg, authored config c = some cfg ∧ Permits (authoredParams c cfg) request

/-- The component imports a function of the capability. -/
def Imports (imports : List (String × ImportItem)) (c : CapabilityId) : Prop :=
  ∃ name exports f, (name,ImportItem.componentInstance exports) ∈ imports ∧
    floatileInterfaceName name = some (witInterface c) ∧ f ∈ witFunctions c ∧ (f,true) ∈ exports

/-- The budgets of the services as the file states them. -/
def authoredQuotas (config : ProjectConfig) : Quotas where
  storageMaxBytes := match authored config .storageWrite with
    | some cfg => (cfg.maxBytes.map UInt64.toNat).getD (64 * 1024)
    | none => 64 * 1024
  timerQuota := (authored config .timerSchedule).map fun cfg =>
    ((cfg.maxPerMinute.map UInt32.toNat).getD 60,(cfg.maxActive.map UInt32.toNat).getD 8)
  metricsRate := match authored config .systemCpu with
    | some cfg => (cfg.sampleRateHz.map UInt32.toNat).getD 1
    | none => 1
  httpsRateMax := match authored config .networkHttps with
    | some cfg => (cfg.maxRequestsPerMinute.map UInt32.toNat).getD 30
    | none => 0

@[simp] theorem asU64_jsonU64 (n : UInt64) : (jsonU64 n).asU64 = some n.toNat := rfl

@[simp] theorem asU64_jsonU32 (n : UInt32) : (jsonU32 n).asU64 = some n.toNat := by
  simp [jsonU32, Json.asU64, Number.asU64]

@[simp] theorem u32TryFrom_toNat (n : UInt32) : u32TryFrom n.toNat = some n.toNat := by
  simp [u32TryFrom, n.toNat_lt]

theorem expect_eq_ok {α : Type} {c : CapabilityId} {detail : String} {value : Option α} {a : α}
    (h : expect c detail value = .ok a) : value = some a := by
  cases value with
  | none => cases h
  | some b => simpa [expect] using h

theorem eq_of_boundedU32 {n : UInt32} {c : CapabilityId} {field : String} {min max m : ℕ}
    (h : boundedU32 (jsonU32 n) c field min max = .ok m) : m = n.toNat := by
  obtain ⟨k,hk,h⟩ := Checked.bind_eq_ok.mp h
  have hkn : k = n.toNat := by simpa using (expect_eq_ok hk).symm
  split_ifs at h
  · cases h
    exact hkn
  · cases h

theorem eq_of_boundedU64 {n : UInt64} {c : CapabilityId} {field : String} {min max m : ℕ}
    (h : boundedU64 (jsonU64 n) c field min max = .ok m) : m = n.toNat := by
  obtain ⟨k,hk,h⟩ := Checked.bind_eq_ok.mp h
  have hkn : k = n.toNat := by simpa using (expect_eq_ok hk).symm
  split_ifs at h
  · cases h
    exact hkn
  · cases h

theorem parseStorageKeys_eq {c : CapabilityId} {keys acc acc' : List String}
    (h : (keys.map Json.string).foldlM (parseStorageKey c) acc = .ok acc') :
    acc' = acc ++ keys := by
  induction keys generalizing acc with
  | nil =>
    cases h
    simp
  | cons key keys ih =>
    rw [List.map_cons, List.foldlM_cons, Checked.bind_eq_ok] at h
    obtain ⟨next,hnext,hrest⟩ := h
    obtain ⟨k,hk,hnext⟩ := Checked.bind_eq_ok.mp hnext
    obtain ⟨-,hnext⟩ := Checked.check_bind_eq_ok.mp hnext
    cases expect_eq_ok hk
    cases hnext
    simpa using ih hrest

theorem parseOrigins_eq {c : CapabilityId} {origins acc acc' : List String}
    (h : (origins.map Json.string).foldlM (parseOrigin c) acc = .ok acc') :
    acc' = acc ++ origins := by
  induction origins generalizing acc with
  | nil =>
    cases h
    simp
  | cons origin origins ih =>
    rw [List.map_cons, List.foldlM_cons, Checked.bind_eq_ok] at h
    obtain ⟨next,hnext,hrest⟩ := h
    obtain ⟨o,ho,hnext⟩ := Checked.bind_eq_ok.mp hnext
    obtain ⟨-,hnext⟩ := Checked.check_bind_eq_ok.mp hnext
    obtain ⟨-,hnext⟩ := (Checked.ite_error_eq_ok ..).mp hnext
    cases expect_eq_ok ho
    cases hnext
    simpa using ih hrest

/-- A field that may be left out. -/
def optionalField (key : String) (value : Option Json) : List (String × Json) :=
  (value.map (fun v => (key,v))).toList

theorem putSome_nil (key : String) (value : Option Json) :
    putSome key value [] = optionalField key value := by
  cases value <;> rfl

/-- A later key of the alphabet goes behind a field, an earlier one in front of it. -/
theorem putSome_append (key key' : String) (value value' : Option Json)
    (params : List (String × Json)) (hlt : key' < key) :
    putSome key value (optionalField key' value' ++ params) =
      optionalField key' value' ++ putSome key value params := by
  cases value with
  | none => rfl
  | some v =>
    cases value' with
    | none => rfl
    | some v' =>
      have hne : ¬key < key' := hlt.not_gt
      simp [putSome, optionalField, SortedMap.insert, hne, hlt.ne]

theorem putSome_front (key : String) (value : Option Json) {params : List (String × Json)}
    (hlt : ∀ e ∈ params, key < e.1) :
    putSome key value params = optionalField key value ++ params := by
  cases value with
  | none => rfl
  | some v => exact SortedMap.insert_of_lt v hlt

theorem lt_of_mem_optionalField {key : String} (key' : String) (value : Option Json)
    (hlt : key < key') :
    ∀ e ∈ optionalField key' value, key < e.1 := by
  intro e he
  cases value with
  | none => cases he
  | some v =>
    obtain rfl := List.mem_singleton.mp he
    exact hlt

theorem foldlM_optionalField {ε σ ν : Type} {f : σ → String × Json → Except ε σ} {g : ν → Json}
    {key : String} (set : σ → Option ν → σ) (hnone : ∀ s, set s none = s)
    (hsome : ∀ s n s', f s (key,g n) = .ok s' → s' = set s (some n))
    {value : Option ν} {rest : List (String × Json)} {s s' : σ}
    (h : (optionalField key (value.map g) ++ rest).foldlM f s = .ok s') :
    rest.foldlM f (set s value) = .ok s' := by
  cases value with
  | none => simpa [optionalField, hnone] using h
  | some n =>
    rw [Option.map_some, optionalField, Option.map_some, Option.toList_some,
      List.singleton_append, List.foldlM_cons, Checked.bind_eq_ok] at h
    obtain ⟨next,hnext,hrest⟩ := h
    rwa [← hsome s n next hnext]

/-- The texts of a list field, which is left out when it is empty. -/
theorem foldlM_stringsField {ε σ : Type} {f : σ → String × Json → Except ε σ} {key : String}
    (set : σ → List String → σ) (hempty : ∀ s, set s [] = s)
    (hitems : ∀ s items s', f s (key,.array (items.map .string)) = .ok s' → s' = set s items)
    {items : List String} {rest : List (String × Json)} {s s' : σ}
    (h : (optionalField key (jsonStrings items) ++ rest).foldlM f s = .ok s') :
    rest.foldlM f (set s items) = .ok s' := by
  cases items with
  | nil => simpa [optionalField, jsonStrings, hempty] using h
  | cons item items =>
    simp only [optionalField, jsonStrings, List.isEmpty_cons, Bool.false_eq_true, ↓reduceIte,
      Option.map_some, Option.toList_some, List.singleton_append] at h
    rw [List.foldlM_cons, Checked.bind_eq_ok] at h
    obtain ⟨next,hnext,hrest⟩ := h
    rwa [← hitems s (item :: items) next hnext]

theorem permissionParams_storage (cfg : PermissionCfg) :
    permissionParams .storage cfg = optionalField "keys" (jsonStrings cfg.keys) ++
      (optionalField "maxBytes" (cfg.maxBytes.map jsonU64) ++ []) := by
  have h := putSome_append "maxBytes" "keys" (cfg.maxBytes.map jsonU64) (jsonStrings cfg.keys) []
    (by decide)
  simpa [permissionParams, putSome_nil] using h

theorem permissionParams_timer (cfg : PermissionCfg) :
    permissionParams .timer cfg = optionalField "maxActive" (cfg.maxActive.map jsonU32) ++
      (optionalField "maxPerMinute" (cfg.maxPerMinute.map jsonU32) ++ []) := by
  rw [permissionParams, putSome_nil, List.append_nil]
  exact putSome_front _ _ (lt_of_mem_optionalField _ _ (by decide))

theorem permissionParams_network (cfg : PermissionCfg) :
    permissionParams .network cfg =
      optionalField "maxRequestsPerMinute" (cfg.maxRequestsPerMinute.map jsonU32) ++
        (optionalField "maxResponseBytes" (cfg.maxResponseBytes.map jsonU64) ++
          (optionalField "maxTimeoutMs" (cfg.maxTimeoutMs.map jsonU64) ++
            (optionalField "origins" (jsonStrings cfg.origins) ++ []))) := by
  have horigins (key : String) (hlt : key < "origins") :
      ∀ e ∈ optionalField "origins" (jsonStrings cfg.origins), key < e.1 :=
    lt_of_mem_optionalField _ _ hlt
  rw [permissionParams, putSome_nil, putSome_front _ _ (horigins _ (by decide)),
    putSome_append _ _ _ _ _ (by decide), putSome_front _ _ (horigins _ (by decide)),
    putSome_append _ _ _ _ _ (by decide), putSome_append _ _ _ _ _ (by decide),
    putSome_front _ _ (horigins _ (by decide)), List.append_nil]

theorem foldlM_storageParams {c : CapabilityId} {cfg : PermissionCfg} {acc : List String × ℕ}
    (h : (permissionParams .storage cfg).foldlM (parseStorageField c) ([],64 * 1024) = .ok acc) :
    acc = (cfg.keys,(cfg.maxBytes.map UInt64.toNat).getD (64 * 1024)) := by
  rw [permissionParams_storage] at h
  replace h := foldlM_stringsField (fun s items => (s.1 ++ items,s.2)) (by simp)
    (fun s items s' hs => ?_) h
  replace h := foldlM_optionalField (fun s v => (s.1,(v.map UInt64.toNat).getD s.2)) (by simp)
    (fun s n s' hs => ?_) h
  · exact (Except.ok.inj h).symm
  · obtain ⟨m,hm,hs⟩ := Checked.bind_eq_ok.mp hs
    cases expect_eq_ok hm
    exact (Except.ok.inj hs).symm
  · obtain ⟨values,hvalues,hs⟩ := Checked.bind_eq_ok.mp hs
    cases expect_eq_ok hvalues
    obtain ⟨keys,hkeys,hs⟩ := Checked.bind_eq_ok.mp hs
    rw [← parseStorageKeys_eq hkeys]
    exact (Except.ok.inj hs).symm

theorem foldlM_timerParams {c : CapabilityId} {cfg : PermissionCfg} {acc : ℕ × ℕ}
    (h : (permissionParams .timer cfg).foldlM (parseTimerField c) (60,8) = .ok acc) :
    acc = ((cfg.maxPerMinute.map UInt32.toNat).getD 60,
      (cfg.maxActive.map UInt32.toNat).getD 8) := by
  rw [permissionParams_timer] at h
  replace h := foldlM_optionalField (fun s v => (s.1,(v.map UInt32.toNat).getD s.2)) (by simp)
    (fun s n s' hs => ?_) h
  replace h := foldlM_optionalField (fun s v => ((v.map UInt32.toNat).getD s.1,s.2)) (by simp)
    (fun s n s' hs => ?_) h
  · exact (Except.ok.inj h).symm
  all_goals
    obtain ⟨m,hm,hs⟩ := Checked.bind_eq_ok.mp hs
    have hm := expect_eq_ok hm
    rw [asU64_jsonU32, Option.bind_some, u32TryFrom_toNat] at hm
    cases hm
    exact (Except.ok.inj hs).symm

theorem foldlM_metricsParams {c : CapabilityId} {cfg : PermissionCfg} {acc : ℕ}
    (h : (permissionParams .metrics cfg).foldlM (parseMetricsField c) 1 = .ok acc) :
    acc = (cfg.sampleRateHz.map UInt32.toNat).getD 1 := by
  rw [permissionParams, putSome_nil, ← List.append_nil (optionalField _ _)] at h
  replace h := foldlM_optionalField (fun s v => (v.map UInt32.toNat).getD s) (by simp)
    (fun s n s' hs => ?_) h
  · exact (Except.ok.inj h).symm
  · have hs := expect_eq_ok hs
    rw [asU64_jsonU32, Option.bind_some, u32TryFrom_toNat] at hs
    exact (Option.some.inj hs).symm

theorem foldlM_networkParams {c : CapabilityId} {cfg : PermissionCfg} {acc : NetworkFields}
    (h : (permissionParams .network cfg).foldlM (parseNetworkField c)
      ⟨[],30,256 * 1024,10000⟩ = .ok acc) :
    acc = ⟨cfg.origins,(cfg.maxRequestsPerMinute.map UInt32.toNat).getD 30,
      (cfg.maxResponseBytes.map UInt64.toNat).getD (256 * 1024),
      (cfg.maxTimeoutMs.map UInt64.toNat).getD 10000⟩ := by
  rw [permissionParams_network] at h
  replace h := foldlM_optionalField (fun (s : NetworkFields) v => { s with
    maxRequestsPerMinute := (v.map UInt32.toNat).getD s.maxRequestsPerMinute }) (by simp)
    (fun s n s' hs => ?_) h
  replace h := foldlM_optionalField (fun (s : NetworkFields) v => { s with
    maxResponseBytes := (v.map UInt64.toNat).getD s.maxResponseBytes }) (by simp)
    (fun s n s' hs => ?_) h
  replace h := foldlM_optionalField (fun (s : NetworkFields) v => { s with
    maxTimeoutMs := (v.map UInt64.toNat).getD s.maxTimeoutMs }) (by simp)
    (fun s n s' hs => ?_) h
  replace h := foldlM_stringsField (fun (s : NetworkFields) items => { s with
    origins := s.origins ++ items }) (by simp) (fun s items s' hs => ?_) h
  · exact (Except.ok.inj h).symm
  · obtain ⟨values,hvalues,hs⟩ := Checked.bind_eq_ok.mp hs
    cases expect_eq_ok hvalues
    split_ifs at hs
    · cases hs
    · obtain ⟨origins,horigins,hs⟩ := Checked.bind_eq_ok.mp hs
      rw [← parseOrigins_eq horigins]
      exact (Except.ok.inj hs).symm
  · obtain ⟨m,hm,hs⟩ := Checked.bind_eq_ok.mp hs
    rw [eq_of_boundedU64 hm] at hs
    exact (Except.ok.inj hs).symm
  · obtain ⟨m,hm,hs⟩ := Checked.bind_eq_ok.mp hs
    rw [eq_of_boundedU64 hm] at hs
    exact (Except.ok.inj hs).symm
  · obtain ⟨m,hm,hs⟩ := Checked.bind_eq_ok.mp hs
    rw [eq_of_boundedU32 hm] at hs
    exact (Except.ok.inj hs).symm

/-- Leaving out the object of the parameters is the same as an empty object. -/
theorem parseCapabilityParams_object {c : CapabilityId} (hkind : c.definition.params ≠ .none)
    (params : List (String × Json)) :
    parseCapabilityParams c (if params.isEmpty then none else some (.object params)) =
      parseCapabilityParams c (some (.object params)) := by
  cases params with
  | nil => cases c <;> first | rfl | exact absurd rfl hkind
  | cons e params => rfl

/-- A declaration whose parameters can be read gives what the section states. -/
theorem parseCapabilityParams_permissionDecl {cfg : PermissionCfg} {c : CapabilityId}
    {params : Option CapabilityParams}
    (h : parseCapabilityParams c (permissionDecl cfg c).params = .ok params) :
    params = authoredParams c cfg := by
  have hobject (hkind : c.definition.params ≠ .none) : parseCapabilityParams c
      (some (.object (permissionParams c.definition.params cfg))) = .ok params := by
    rw [← parseCapabilityParams_object hkind]
    exact h
  cases hkind : c.definition.params with
  | none =>
    rw [permissionDecl, hkind] at h
    cases hdefault : defaultParams c with
    | error e =>
      rw [defaultParams, hkind] at hdefault
      cases hdefault
    | ok p =>
      rw [defaultParams, hkind] at hdefault
      cases hdefault
      simpa [permissionParams, parseCapabilityParams, defaultParams, hkind, authoredParams]
        using h.symm
  | storage =>
    have h := hobject (by simp [hkind])
    simp only [parseCapabilityParams, hkind, Json.asObject] at h
    obtain ⟨obj,hobj,h⟩ := Checked.bind_eq_ok.mp h
    cases expect_eq_ok hobj
    obtain ⟨acc,hacc,h⟩ := Checked.bind_eq_ok.mp h
    obtain rfl := foldlM_storageParams hacc
    simpa [authoredParams, hkind] using h.symm
  | timer =>
    have h := hobject (by simp [hkind])
    simp only [parseCapabilityParams, hkind, Json.asObject] at h
    obtain ⟨obj,hobj,h⟩ := Checked.bind_eq_ok.mp h
    cases expect_eq_ok hobj
    obtain ⟨acc,hacc,h⟩ := Checked.bind_eq_ok.mp h
    obtain rfl := foldlM_timerParams hacc
    simpa [authoredParams, hkind] using h.symm
  | metrics =>
    have h := hobject (by simp [hkind])
    simp only [parseCapabilityParams, hkind, Json.asObject] at h
    obtain ⟨obj,hobj,h⟩ := Checked.bind_eq_ok.mp h
    cases expect_eq_ok hobj
    obtain ⟨acc,hacc,h⟩ := Checked.bind_eq_ok.mp h
    obtain rfl := foldlM_metricsParams hacc
    simpa [authoredParams, hkind] using h.symm
  | network =>
    have h := hobject (by simp [hkind])
    simp only [parseCapabilityParams, hkind, Json.asObject] at h
    obtain ⟨obj,hobj,h⟩ := Checked.bind_eq_ok.mp h
    cases expect_eq_ok hobj
    obtain ⟨acc,hacc,h⟩ := Checked.bind_eq_ok.mp h
    obtain rfl := foldlM_networkParams hacc
    split_ifs at h
    · cases h
    · simpa [authoredParams, hkind] using h.symm

/-- The capabilities of the sections with what the sections state for them, section by section. -/
def authoredEntries (config : ProjectConfig) : List (CapabilityId × Option CapabilityParams) :=
  config.permissions.entries.flatMap fun e =>
    (capabilityIds.filter (fun c => authorSection c = some e.1)).map
      (fun c => (c,authoredParams c e.2))

theorem declareSection_eq_ok {permissions permissions' : List PermissionDecl}
    {entry : String × PermissionCfg} (h : declareSection permissions entry = .ok permissions') :
    permissions' = permissions ++
      (capabilityIds.filter (fun c => authorSection c = some entry.1)).map
        (permissionDecl entry.2) := by
  unfold declareSection sectionToCapabilities at h
  dsimp only at h
  split_ifs at h
  exact (Except.ok.inj h).symm

theorem foldlM_declareSection {entries : List (String × PermissionCfg)}
    {permissions permissions' : List PermissionDecl}
    (h : entries.foldlM declareSection permissions = .ok permissions') :
    permissions' = permissions ++ entries.flatMap (fun e =>
      (capabilityIds.filter (fun c => authorSection c = some e.1)).map (permissionDecl e.2)) := by
  induction entries generalizing permissions with
  | nil =>
    cases h
    simp
  | cons e entries ih =>
    rw [List.foldlM_cons, Checked.bind_eq_ok] at h
    obtain ⟨next,hnext,hrest⟩ := h
    rw [ih hrest, declareSection_eq_ok hnext, List.flatMap_cons, List.append_assoc]

section Generated

variable {Version : Type} {parseVersion : String → Except String Version}
  {config : ProjectConfig} {manifest : Manifest}
  (hgen : generateManifest parseVersion config = .ok manifest)

include hgen

theorem generated_valid : validateManifest parseVersion manifest = .ok () := by
  obtain ⟨permissions,-,h⟩ := Checked.bind_eq_ok.mp hgen
  obtain ⟨hvalid,h⟩ := Checked.check_bind_eq_ok.mp h
  cases h
  exact Checked.mapError_eq_ok.mp hvalid

theorem generated_permissions : manifest.permissions = config.permissions.entries.flatMap (fun e =>
    (capabilityIds.filter (fun c => authorSection c = some e.1)).map (permissionDecl e.2)) := by
  obtain ⟨permissions,hpermissions,h⟩ := Checked.bind_eq_ok.mp hgen
  obtain ⟨-,h⟩ := Checked.check_bind_eq_ok.mp h
  cases h
  exact foldlM_declareSection hpermissions

/-- The manifest declares the capabilities of the sections with what the sections state. -/
theorem declaredEntries_generated : declaredEntries manifest = authoredEntries config := by
  have hvalid := validatePermission_of_validateManifest (generated_valid hgen)
  have hparsed : ∀ e ∈ config.permissions.entries, ∀ c, authorSection c = some e.1 →
      parsedPermission (permissionDecl e.2 c) = .ok (c,authoredParams c e.2) := by
    intro e he c hc
    have hmem : permissionDecl e.2 c ∈ manifest.permissions := by
      rw [generated_permissions hgen, List.mem_flatMap]
      refine ⟨e,he,List.mem_map_of_mem (List.mem_filter.mpr ⟨c.mem_capabilityIds,?_⟩)⟩
      simpa using hc
    obtain ⟨c',params,hparse,-,-⟩ := parsedPermission_of_validatePermission (hvalid _ hmem)
    have hname : CapabilityId.fromName (permissionDecl e.2 c).capability = some c :=
      CapabilityId.fromName_name c
    rw [hparse]
    unfold parsedPermission at hparse
    rw [hname] at hparse
    cases hparams : parseCapabilityParams c (permissionDecl e.2 c).params with
    | error err => simp [hparams] at hparse
    | ok p =>
      simp only [hparams, Except.ok.injEq, Prod.mk.injEq] at hparse
      obtain ⟨rfl,rfl⟩ := hparse
      rw [parseCapabilityParams_permissionDecl hparams]
  rw [declaredEntries, generated_permissions hgen, List.filterMap_flatMap, authoredEntries]
  refine List.flatMap_congr fun e he => ?_
  rw [List.filterMap_map, ← List.filterMap_eq_map]
  refine List.filterMap_congr fun c hc => ?_
  rw [Function.comp_apply, hparsed e he c (by simpa using (List.mem_filter.mp hc).2)]
  rfl

end Generated

theorem nodup_capabilityIds : capabilityIds.Nodup := by decide

theorem mem_authoredEntries {config : ProjectConfig} {c : CapabilityId}
    {params : Option CapabilityParams} :
    (c,params) ∈ authoredEntries config ↔
      ∃ cfg, authored config c = some cfg ∧ params = authoredParams c cfg := by
  simp only [authoredEntries, List.mem_flatMap, List.mem_map, List.mem_filter, decide_eq_true_eq,
    Prod.mk.injEq]
  constructor
  · rintro ⟨⟨name,cfg⟩,he,c',⟨-,hc⟩,rfl,rfl⟩
    refine ⟨cfg,?_,rfl⟩
    rw [authored, hc]
    exact (OrdMap.mem_entries_iff _ _ _).mp he
  · rintro ⟨cfg,hcfg,rfl⟩
    obtain ⟨name,hname,hget⟩ := Option.bind_eq_some_iff.mp hcfg
    exact ⟨(name,cfg),(OrdMap.mem_entries_iff _ _ _).mpr hget,c,⟨c.mem_capabilityIds,hname⟩,rfl,rfl⟩

theorem nodup_authoredEntries (config : ProjectConfig) :
    ((authoredEntries config).map Prod.fst).Nodup := by
  have hmap : (authoredEntries config).map Prod.fst = config.permissions.entries.flatMap (fun e =>
      capabilityIds.filter (fun c => authorSection c = some e.1)) := by
    rw [authoredEntries, List.map_flatMap]
    refine List.flatMap_congr fun e _ => ?_
    rw [List.map_map]
    exact List.map_id _
  rw [hmap, List.nodup_flatMap]
  refine ⟨fun e _ => nodup_capabilityIds.filter _,config.permissions.ordered.imp ?_⟩
  intro e e' hlt c hc hc'
  have hname : authorSection c = some e.1 := by simpa using (List.mem_filter.mp hc).2
  have hname' : authorSection c = some e'.1 := by simpa using (List.mem_filter.mp hc').2
  rw [hname] at hname'
  exact hlt.ne (Option.some.inj hname')

/-- The parameters of a capability are those that its section states. -/
theorem find?_authoredEntries (config : ProjectConfig) (c : CapabilityId) :
    ((authoredEntries config).find? (fun e => e.1 = c)).map Prod.snd =
      (authored config c).map (authoredParams c) := by
  cases hcfg : authored config c with
  | some cfg =>
    have hmem := mem_authoredEntries.mpr ⟨cfg,hcfg,rfl⟩
    simpa using congrArg (Option.map Prod.snd) (find?_of_nodup (nodup_authoredEntries config) hmem)
  | none =>
    rw [Option.map_none, Option.map_eq_none_iff, List.find?_eq_none]
    rintro ⟨c',params⟩ he hc
    obtain rfl : c' = c := by simpa using hc
    obtain ⟨cfg,hsome,-⟩ := mem_authoredEntries.mp he
    rw [hcfg] at hsome
    cases hsome

theorem get_insertAll (used : CapabilitySet) (cs : List CapabilityId) (c : CapabilityId) :
    (used.insertAll cs).get c = some () ↔ used.get c = some () ∨ c ∈ cs := by
  unfold CapabilitySet.insertAll
  induction cs generalizing used with
  | nil => simp
  | cons d cs ih =>
    rw [List.foldl_cons, ih, OrdMap.get_insert, List.mem_cons]
    by_cases hdc : c = d
    · simp [hdc]
    · simp [hdc]

theorem mem_importCapabilities {entry : String × ImportItem} {c : CapabilityId} :
    c ∈ importCapabilities entry ↔ Imports [entry] c := by
  obtain ⟨name,item⟩ := entry
  unfold importCapabilities Imports
  cases item with
  | other =>
    cases floatileInterfaceName name <;> simp
  | componentInstance exports =>
    cases hname : floatileInterfaceName name with
    | none =>
      simp only [List.not_mem_nil, false_iff]
      rintro ⟨name',exports',f,hmem,hinterface,-⟩
      cases List.mem_singleton.mp hmem
      rw [hname] at hinterface
      cases hinterface
    | some interface =>
      simp only [List.mem_filter, CapabilityId.mem_capabilityIds, true_and, Bool.and_eq_true,
        decide_eq_true_eq, List.any_eq_true, List.contains_iff_mem, List.mem_map]
      constructor
      · rintro ⟨rfl,f,hf,⟨f',used⟩,hexport,rfl⟩
        obtain ⟨hexport,rfl⟩ := hexport
        exact ⟨name,exports,f',List.mem_singleton_self _,hname,hf,hexport⟩
      · rintro ⟨name',exports',f,hmem,hinterface,hf,hexport⟩
        cases List.mem_singleton.mp hmem
        rw [hname] at hinterface
        exact ⟨(Option.some.inj hinterface).symm,f,hf,(f,true),⟨hexport,rfl⟩,rfl⟩

/-- The set holds exactly the capabilities of the functions that the component imports. -/
theorem get_importedCapabilities (imports : List (String × ImportItem)) (c : CapabilityId) :
    (importedCapabilities imports).get c = some () ↔ Imports imports c := by
  have hfold (used : CapabilitySet) : (imports.foldl (fun used entry =>
      used.insertAll (importCapabilities entry)) used).get c = some () ↔
        used.get c = some () ∨ ∃ entry ∈ imports, Imports [entry] c := by
    induction imports generalizing used with
    | nil => simp
    | cons entry imports ih =>
      rw [List.foldl_cons, ih, get_insertAll, mem_importCapabilities, List.exists_mem_cons_iff,
        or_assoc]
  rw [importedCapabilities, hfold, OrdMap.get_empty]
  constructor
  · rintro (h | ⟨entry,hentry,name,exports,f,hmem,h⟩)
    · cases h
    · obtain rfl := List.mem_singleton.mp hmem
      exact ⟨name,exports,f,hentry,h⟩
  · rintro ⟨name,exports,f,hmem,h⟩
    exact Or.inr ⟨_,hmem,name,exports,f,List.mem_singleton_self _,h⟩

theorem mem_toList {s : CapabilitySet} {c : CapabilityId} : c ∈ s.toList ↔ s.get c = some () := by
  rw [← OrdMap.mem_entries_iff, CapabilitySet.toList, List.mem_map]
  constructor
  · rintro ⟨⟨c',u⟩,hmem,rfl⟩
    exact hmem
  · exact fun hmem => ⟨_,hmem,rfl⟩

theorem get_isNone {s : CapabilitySet} {c : CapabilityId} :
    (s.get c).isNone = true ↔ ¬s.get c = some () := by
  cases s.get c <;> simp

/-- A field of the budgets that only the grant of one capability sets. -/
theorem foldl_read {β : Type} (field : Quotas → β) (c : CapabilityId)
    (hother : ∀ q g, g.capability ≠ c → field (q.read g) = field q)
    (hown : ∀ q q' g, g.capability = c → field q = field q' → field (q.read g) = field (q'.read g))
    {caps : List Grant} (hnodup : (caps.map Grant.capability).Nodup) (q : Quotas) :
    field (caps.foldl Quotas.read q) =
      (findGrant caps c).elim (field q) (fun g => field (q.read g)) := by
  induction caps generalizing q with
  | nil => rfl
  | cons g caps ih =>
    obtain ⟨hhead,htail⟩ := List.nodup_cons.mp hnodup
    rw [List.foldl_cons, ih htail]
    by_cases hg : g.capability = c
    · have hrest : findGrant caps c = none := by
        rw [findGrant, List.find?_eq_none]
        intro g' hg' hc
        simp only [decide_eq_true_eq] at hc
        exact hhead (hg.trans hc.symm ▸ List.mem_map_of_mem hg')
      have hfirst : findGrant (g :: caps) c = some g := by simp [findGrant, hg]
      rw [hrest, hfirst]
      rfl
    · have hskip : findGrant (g :: caps) c = findGrant caps c := by simp [findGrant, hg]
      rw [hskip, hother q g hg]
      cases hfind : findGrant caps c with
      | none => rfl
      | some g' => exact hown _ _ g' (capability_of_findGrant hfind) (hother q g hg)

theorem nodup_mergeInherent {caps : List Grant} (hnodup : (caps.map Grant.capability).Nodup) :
    ((mergeInherent caps).map Grant.capability).Nodup := by
  unfold mergeInherent
  generalize capabilityRegistry.filter (fun d => d.exposure = .inherent) = definitions
  induction definitions generalizing caps with
  | nil => exact hnodup
  | cons d definitions ih =>
    rw [List.foldl_cons]
    apply ih
    split_ifs with hany
    · exact hnodup
    · rw [List.map_append, List.map_cons, List.map_nil, List.nodup_append]
      refine ⟨hnodup,List.nodup_singleton _,?_⟩
      rintro c hc c' hc' rfl
      obtain rfl := List.mem_singleton.mp hc'
      obtain ⟨g,hg,hgc⟩ := List.mem_map.mp hc
      exact hany (List.any_eq_true.mpr ⟨g,hg,by simpa using hgc⟩)

theorem findGrant_authored (config : ProjectConfig) (c : CapabilityId)
    (hc : c.isInherent = false) :
    findGrant (mergeInherent ((authoredEntries config).map entryGrant)) c =
      (authored config c).map (fun cfg => entryGrant (c,authoredParams c cfg)) := by
  rw [findGrant_mergeInherent, hc, findGrant_map_entryGrant]
  have hparams := find?_authoredEntries config c
  cases hfind : (authoredEntries config).find? (fun e => e.1 = c) with
  | none =>
    rw [hfind, Option.map_none, eq_comm, Option.map_eq_none_iff] at hparams
    simp [hparams]
  | some e =>
    obtain ⟨c',params⟩ := e
    obtain rfl : c' = c := by simpa using List.find?_some hfind
    rw [hfind, Option.map_some, eq_comm, Option.map_eq_some_iff] at hparams
    obtain ⟨cfg,hcfg,hparams⟩ := hparams
    rw [hcfg, Option.map_some, Option.map_some, hparams]
    rfl

/-- The broker starts with the budgets that the file states. -/
theorem foldl_read_authored (config : ProjectConfig) :
    (mergeInherent ((authoredEntries config).map entryGrant)).foldl Quotas.read
      ⟨64 * 1024,none,1,0⟩ = authoredQuotas config := by
  have hnodup : ((mergeInherent ((authoredEntries config).map entryGrant)).map
      Grant.capability).Nodup := by
    apply nodup_mergeInherent
    rw [List.map_map]
    exact nodup_authoredEntries config
  have hstorage := foldl_read Quotas.storageMaxBytes .storageWrite
    (by intro q g hg; unfold Quotas.read; split <;> simp_all)
    (by intro q q' g hg hq; unfold Quotas.read; split <;> simp_all) hnodup ⟨64 * 1024,none,1,0⟩
  have htimer := foldl_read Quotas.timerQuota .timerSchedule
    (by intro q g hg; unfold Quotas.read; split <;> simp_all)
    (by intro q q' g hg hq; unfold Quotas.read; split <;> simp_all) hnodup ⟨64 * 1024,none,1,0⟩
  have hmetrics := foldl_read Quotas.metricsRate .systemCpu
    (by intro q g hg; unfold Quotas.read; split <;> simp_all)
    (by intro q q' g hg hq; unfold Quotas.read; split <;> simp_all) hnodup ⟨64 * 1024,none,1,0⟩
  have hhttps := foldl_read Quotas.httpsRateMax .networkHttps
    (by intro q g hg; unfold Quotas.read; split <;> simp_all)
    (by intro q q' g hg hq; unfold Quotas.read; split <;> simp_all) hnodup ⟨64 * 1024,none,1,0⟩
  rw [findGrant_authored config _ rfl] at hstorage htimer hmetrics hhttps
  generalize (mergeInherent ((authoredEntries config).map entryGrant)).foldl Quotas.read
    ⟨64 * 1024,none,1,0⟩ = quotas at *
  obtain ⟨storageMaxBytes,timerQuota,metricsRate,httpsRateMax⟩ := quotas
  rw [authoredQuotas]
  congr 1
  · refine hstorage.trans ?_
    cases authored config .storageWrite <;> rfl
  · refine htimer.trans ?_
    cases authored config .timerSchedule <;> rfl
  · refine hmetrics.trans ?_
    cases authored config .systemCpu <;> rfl
  · refine hhttps.trans ?_
    cases authored config .networkHttps <;> rfl

theorem granted_iff (config : ProjectConfig) (c : CapabilityId)
    (request : Option CapabilityParams) : Granted config c request ↔
      Allows (findGrant (mergeInherent ((authoredEntries config).map entryGrant)) c) request := by
  cases hc : c.isInherent with
  | false =>
    rw [findGrant_authored config c hc]
    cases hcfg : authored config c with
    | none => simp [Granted, hc, hcfg]
    | some cfg => simp [Granted, hc, hcfg, allows_some_iff]
  | true =>
    have hsection : authored config c = none := by
      cases c <;> first | rfl | exact absurd hc (by decide)
    have hfind : (authoredEntries config).find? (fun e => e.1 = c) = none := by
      rw [← Option.map_eq_none_iff (f := Prod.snd), find?_authoredEntries, hsection]
      rfl
    rw [findGrant_mergeInherent, findGrant_map_entryGrant, hfind, hc]
    simp [Granted, hc, hsection, allows_some_iff]

/-- Some request of a capability is granted exactly when it is inherent or has its section. -/
theorem exists_granted (config : ProjectConfig) (c : CapabilityId) :
    (∃ request, Granted config c request) ↔ c.isInherent = true ∨ (authored config c).isSome := by
  constructor
  · rintro ⟨request,⟨hc,-⟩ | ⟨cfg,hcfg,-⟩⟩
    · exact Or.inl hc
    · exact Or.inr (by simp [hcfg])
  · rintro (hc | hcfg)
    · exact ⟨none,Or.inl ⟨hc,permits_self none⟩⟩
    · obtain ⟨cfg,hcfg⟩ := Option.isSome_iff_exists.mp hcfg
      exact ⟨_,Or.inr ⟨cfg,hcfg,permits_self _⟩⟩

section InForce

variable {Version : Type} {parseVersion : String → Except String Version}
  {config : ProjectConfig} {manifest : Manifest}
  (hgen : generateManifest parseVersion config = .ok manifest)

include hgen

theorem manifestGrants_generated (inst : InstanceId) : manifestGrants manifest.id manifest inst =
    .ok ⟨inst,(authoredEntries config).map entryGrant⟩ := by
  have hvalid := validatePermission_of_validateManifest (generated_valid hgen)
  have hentries := declaredEntries_generated hgen
  refine (manifestGrants_eq_ok_iff hvalid _).mpr ⟨selfNarrow_of_declaredOnce ?_,?_⟩
  · rw [DeclaredOnce, hentries]
    exact nodup_authoredEntries config
  · rw [hentries]

theorem testGrants_generated : testGrants manifest = (authoredEntries config).map entryGrant := by
  have hvalid := validatePermission_of_validateManifest (generated_valid hgen)
  rw [← declaredEntries_generated hgen, declaredEntries, List.map_filterMap, testGrants]
  refine List.filterMap_congr fun decl hdecl => ?_
  obtain ⟨c,params,hparse,-,-⟩ := parsedPermission_of_validatePermission (hvalid decl hdecl)
  rw [hparse]
  unfold parsedPermission at hparse
  cases hname : CapabilityId.fromName decl.capability with
  | none => simp [hname] at hparse
  | some c' =>
    rw [hname] at hparse
    cases hparams : parseCapabilityParams c' decl.params with
    | error e => simp [hparams] at hparse
    | ok p =>
      simp only [hparams, Except.ok.injEq, Prod.mk.injEq] at hparse
      obtain ⟨rfl,rfl⟩ := hparse
      rw [Option.map_some, hparams]
      rfl

theorem harnessGrants_generated (denyAll : Bool) : harnessGrants manifest denyAll =
    .ok ⟨⟨1⟩,if denyAll then [] else (authoredEntries config).map entryGrant⟩ := by
  rw [harnessGrants, testGrants_generated hgen]
  cases denyAll with
  | true => rfl
  | false =>
    have h := manifestGrants_generated hgen ⟨1⟩
    have hvalid := validatePermission_of_validateManifest (generated_valid hgen)
    rw [manifestGrants, Checked.bind_eq_ok] at h
    obtain ⟨caps,hcaps,h⟩ := h
    have hfold := foldlM_declGrant hvalid []
    rw [hcaps, List.nil_append, ← declaredEntries, declaredEntries_generated hgen] at hfold
    obtain rfl := Except.ok.inj hfold
    exact Checked.mapError_eq_ok.mpr (Checked.mapError_eq_ok.mp h)

theorem mem_declared (c : CapabilityId) :
    c ∈ manifest.permissions.filterMap (fun p => CapabilityId.fromName p.capability) ↔
      (authored config c).isSome := by
  rw [generated_permissions hgen, List.filterMap_flatMap, List.mem_flatMap]
  simp only [List.mem_filterMap, List.mem_map, List.mem_filter, decide_eq_true_eq]
  constructor
  · rintro ⟨e,he,decl,⟨c',⟨-,hc'⟩,rfl⟩,hname⟩
    change CapabilityId.fromName c'.name = some c at hname
    rw [CapabilityId.fromName_name] at hname
    obtain rfl := Option.some.inj hname
    have hget := (OrdMap.mem_entries_iff config.permissions e.1 e.2).mp he
    rw [authored, hc', Option.bind_some, hget]
    rfl
  · intro hsome
    obtain ⟨cfg,hcfg⟩ := Option.isSome_iff_exists.mp hsome
    obtain ⟨name,hname,hget⟩ := Option.bind_eq_some_iff.mp hcfg
    have hmem := (OrdMap.mem_entries_iff config.permissions name cfg).mpr hget
    exact ⟨(name,cfg),hmem,_,⟨c,⟨c.mem_capabilityIds,hname⟩,rfl⟩,CapabilityId.fromName_name c⟩

/-- What is missing is imported without any request that is granted for it. -/
theorem mem_missing (imports : List (String × ImportItem)) (name : String) :
    name ∈ (capabilityDrift manifest.permissions (importedCapabilities imports)).1 ↔
      ∃ c, c.name = name ∧ Imports imports c ∧ ¬∃ request, Granted config c request := by
  simp only [capabilityDrift, List.mem_map, List.mem_filter, mem_toList, get_importedCapabilities,
    Bool.and_eq_true, decide_eq_true_eq, get_isNone, get_insertAll, OrdMap.get_empty,
    mem_declared hgen, exists_granted, reduceCtorEq, false_or, not_or]
  have hexposure (c : CapabilityId) : c.definition.exposure = .declared ↔ ¬c.isInherent = true := by
    cases c <;> decide
  constructor
  · rintro ⟨c,⟨himport,hsection,hdeclared⟩,rfl⟩
    exact ⟨c,rfl,himport,(hexposure c).mp hdeclared,hsection⟩
  · rintro ⟨c,rfl,himport,hinherent,hsection⟩
    exact ⟨c,⟨himport,hsection,(hexposure c).mpr hinherent⟩,rfl⟩

theorem mem_unused (imports : List (String × ImportItem)) (c : CapabilityId) :
    c ∈ (capabilityDrift manifest.permissions (importedCapabilities imports)).2 ↔
      (authored config c).isSome ∧ ¬Imports imports c := by
  simp only [capabilityDrift, List.mem_filter, mem_toList, get_isNone, get_insertAll,
    get_importedCapabilities, OrdMap.get_empty, mem_declared hgen, reduceCtorEq, false_or]

end InForce

theorem sectionToCapabilities_eq_none {name : String} :
    sectionToCapabilities name = none ↔ ∀ c, authorSection c ≠ some name := by
  unfold sectionToCapabilities
  dsimp only
  split_ifs with hempty
  · rw [List.isEmpty_iff, List.filter_eq_nil_iff] at hempty
    simpa using fun c => hempty c c.mem_capabilityIds
  · rw [List.isEmpty_iff, List.filter_eq_nil_iff] at hempty
    simpa [CapabilityId.mem_capabilityIds] using hempty

/-- The first unknown section ends the generation. -/
theorem foldlM_declareSection_error {entries : List (String × PermissionCfg)}
    (permissions : List PermissionDecl)
    (hunknown : ∃ e ∈ entries, ∀ c, authorSection c ≠ some e.1) :
    ∃ e ∈ entries, (∀ c, authorSection c ≠ some e.1) ∧
      entries.foldlM declareSection permissions = .error (.unknownCapability e.1) := by
  induction entries generalizing permissions with
  | nil =>
    obtain ⟨e,he,-⟩ := hunknown
    cases he
  | cons e entries ih =>
    cases hcapabilities : sectionToCapabilities e.1 with
    | none =>
      refine ⟨e,List.mem_cons_self,sectionToCapabilities_eq_none.mp hcapabilities,?_⟩
      rw [List.foldlM_cons, declareSection, hcapabilities]
      rfl
    | some capabilities =>
      obtain ⟨e',he',hunknown'⟩ := hunknown
      have hrest : e' ∈ entries := by
        rcases List.mem_cons.mp he' with rfl | hrest
        · rw [sectionToCapabilities_eq_none.mpr hunknown'] at hcapabilities
          cases hcapabilities
        · exact hrest
      obtain ⟨first,hfirst,hnone,herror⟩ :=
        ih (permissions ++ capabilities.map (permissionDecl e.2)) ⟨e',hrest,hunknown'⟩
      refine ⟨first,List.mem_cons_of_mem _ hfirst,hnone,?_⟩
      rw [List.foldlM_cons, declareSection, hcapabilities]
      exact herror

/-- The authority of a widget is what the project file says: in the manifest, in the shell, in the
budgets of the broker, in the headless test and in the report of the check. -/
structure InForce (config : ProjectConfig) (manifest : Manifest) : Prop where
  declared : declaredEntries manifest = authoredEntries config
  shell : ∀ inst c request,
    BrokerAuthorizes manifest.id inst manifest c request ↔ Granted config c request
  budgets : ∀ inst generation audit now, ∃ ig,
    manifestGrants manifest.id manifest inst = .ok ig ∧
      let broker := Broker.new manifest.id generation ig audit now
      broker.storage = StorageService.new (authoredQuotas config).storageMaxBytes ∧
      broker.metrics = MetricsService.new (authoredQuotas config).metricsRate ∧
      broker.httpsRateMax = (authoredQuotas config).httpsRateMax ∧
      ∀ maxPerMinute maxActive,
        (authoredQuotas config).timerQuota = some (maxPerMinute,maxActive) →
          broker.timer = (TimerService.new now).setQuota maxPerMinute maxActive
  test : ∀ denyAll, ∃ ig, harnessGrants manifest denyAll = .ok ig ∧ ∀ sink c request detail,
    (authorize (mergeInherent ig.caps) sink c request detail).1 = .ok () ↔
      if denyAll then c.isInherent = true ∧ Permits none request else Granted config c request
  missing : ∀ imports name,
    name ∈ (capabilityDrift manifest.permissions (importedCapabilities imports)).1 ↔
      ∃ c, c.name = name ∧ Imports imports c ∧ ¬∃ request, Granted config c request
  unused : ∀ imports c,
    c ∈ (capabilityDrift manifest.permissions (importedCapabilities imports)).2 ↔
      (authored config c).isSome ∧ ¬Imports imports c

/-- No section of the project file is ignored: an unknown one is reported, and otherwise the file
is in force as it stands. -/
theorem project_file_in_force {Version : Type} (parseVersion : String → Except String Version)
    (config : ProjectConfig) :
    ((∃ e ∈ config.permissions.entries, ∀ c, authorSection c ≠ some e.1) →
      ∃ e ∈ config.permissions.entries, (∀ c, authorSection c ≠ some e.1) ∧
        generateManifest parseVersion config = .error (.unknownCapability e.1)) ∧
    ∀ manifest, generateManifest parseVersion config = .ok manifest →
      InForce config manifest := by
  constructor
  · intro hunknown
    obtain ⟨e,he,hnone,herror⟩ := foldlM_declareSection_error [] hunknown
    refine ⟨e,he,hnone,?_⟩
    rw [generateManifest, herror]
    rfl
  · intro manifest hgen
    constructor
    case declared => exact declaredEntries_generated hgen
    case shell =>
      intro inst c request
      rw [BrokerAuthorizes, manifestGrants_generated hgen, granted_iff]
      simp
    case budgets =>
      intro inst generation audit now
      refine ⟨_,manifestGrants_generated hgen inst,?_⟩
      have hquotas := foldl_read_authored config
      refine ⟨?_,?_,?_,?_⟩
      · rw [← hquotas]
        rfl
      · rw [← hquotas]
        rfl
      · rw [← hquotas]
        rfl
      · intro maxPerMinute maxActive htimer
        rw [Broker.new]
        dsimp only
        rw [hquotas, htimer]
    case test =>
      intro denyAll
      refine ⟨_,harnessGrants_generated hgen denyAll,?_⟩
      intro sink c request detail
      rw [authorize_eq_ok]
      cases denyAll with
      | false => exact (granted_iff config c request).symm
      | true =>
        rw [if_pos rfl, if_pos rfl, findGrant_mergeInherent]
        cases hc : c.isInherent <;> simp [findGrant, allows_some_iff]
    case missing => exact mem_missing hgen
    case unused => exact mem_unused hgen

/-- The project of a clock with given sections. -/
def clockProject (permissions : OrdMap String PermissionCfg) : ProjectConfig where
  plugin := ⟨"org.example.clock","Clock","1.0.0"⟩
  widget := ⟨some (200,100),none,none⟩
  permissions := permissions
  httpTemplates := []
  publisher := none

/-- The timer has its own budget, the store the default one. -/
def clockSections : OrdMap String PermissionCfg :=
  OrdMap.ofList [("timer",{ maxPerMinute := some 30, maxActive := some 2 }),
    ("storage",{ keys := ["zone"] })]

/-- The clock without and with a section that does not exist. -/
theorem project_file_in_force_clock :
    (∃ manifest, generateManifest parseCoreVersion (clockProject clockSections) = .ok manifest ∧
      InForce (clockProject clockSections) manifest) ∧
    ∃ name, generateManifest parseCoreVersion
      (clockProject (clockSections.insert "network" {})) =
        .error (.unknownCapability name) := by
  constructor
  · exact ⟨_,rfl,(project_file_in_force parseCoreVersion (clockProject clockSections)).2 _ rfl⟩
  · have hunknown : ∃ e ∈ (clockProject (clockSections.insert "network" {})).permissions.entries,
        ∀ c, authorSection c ≠ some e.1 :=
      ⟨("network",{}),.head _,by intro c; cases c <;> decide⟩
    obtain ⟨e,-,-,herror⟩ := (project_file_in_force parseCoreVersion _).1 hunknown
    exact ⟨e.1,herror⟩

end Floatile.Cli.Project
