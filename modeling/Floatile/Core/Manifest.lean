import Floatile.Core.Capability
import Floatile.Lib.Checked

/-! The package manifest and its validation. Version texts are read by an external parser,
which is a parameter. -/
namespace Floatile.Core

open Floatile.Lib
open Floatile.Core.Capability
open Floatile.Lib.Checked (reject)

def manifestVersion : ℕ := 1

def engineApiVersion : String := "1.2.0"

inductive PluginKind where
  | widget
  deriving DecidableEq

inductive ManifestError where
  | unsupportedManifestVersion (version : ℕ)
  | invalidPluginId (id : String)
  | invalidName (detail : String)
  | invalidSemver (version : String)
  | incompatibleEngineApiVersion (version engine : String)
  | unsupportedUiApiVersion (version : String)
  | unsupportedPluginType (kind : String)
  | invalidEntrypoint (detail : String)
  | invalidSizes (detail : String)
  | unknownCapability (name : String)
  | inherentCapabilityDeclared (name : String)
  | invalidCapabilityParams (capability detail : String)
  | invalidPackagePath (detail : String)
  | invalidHttpTemplate (detail : String)
  deriving DecidableEq

def ManifestError.display : ManifestError → String
  | .unsupportedManifestVersion version =>
    s!"不支持的 manifestVersion {version}，需要 {manifestVersion}"
  | .invalidPluginId id => s!"非法插件 id `{id}`"
  | .invalidName detail => s!"非法名称: {detail}"
  | .invalidSemver version => s!"非法 semver `{version}`"
  | .incompatibleEngineApiVersion version engine =>
    s!"engineApiVersion `{version}` 与宿主 {engine} 不兼容"
  | .unsupportedUiApiVersion version => s!"不支持的 uiApiVersion `{version}`，需要 major 1"
  | .unsupportedPluginType kind => s!"不支持的插件类型 `{kind}`"
  | .invalidEntrypoint detail => s!"非法入口: {detail}"
  | .invalidSizes detail => s!"非法尺寸: {detail}"
  | .unknownCapability name => s!"未知能力 `{name}`"
  | .inherentCapabilityDeclared name => s!"声明了固有能力 `{name}`，不得写入 permissions"
  | .invalidCapabilityParams capability detail => s!"能力 `{capability}` 参数非法: {detail}"
  | .invalidPackagePath detail => s!"非法包路径 `{detail}`"
  | .invalidHttpTemplate detail => s!"非法 HTTPS 模板: {detail}"

def validateSegments (path : String) : List String → Except ManifestError Unit
  | [] => .ok ()
  | segment :: segments =>
    if segment.isEmpty then .error (.invalidPackagePath s!"{path}: 存在空段")
    else if segment = "." ∨ segment = ".." then
      .error (.invalidPackagePath s!"{path}: 含 {segment} 段")
    else validateSegments path segments

/-- The form of a path inside a package: relative, normalised, without `.` and `..` segments. -/
def validatePackagePath (path : String) : Except ManifestError Unit :=
  if path.isEmpty then .error (.invalidPackagePath "空路径")
  else if Text.startsWith path "/" || Text.startsWith path "\\" then
    .error (.invalidPackagePath s!"{path}: 不得为绝对路径")
  else if Text.containsChar path '\x00' then .error (.invalidPackagePath s!"{path}: 含 NUL")
  else if Text.containsChar path '\\' then
    .error (.invalidPackagePath s!"{path}: 含反斜杠变体")
  else if Text.startsWith path "." then
    .error (.invalidPackagePath s!"{path}: 不得以 `.` 开头")
  else validateSegments path (Text.splitChar path '/')

/-- A path in the form checked by `validatePackagePath`. -/
structure PackagePath where
  text : String
  valid : validatePackagePath text = .ok ()

/-- The entry points that are written for an author are in this form. -/
theorem widgetUi_valid : validatePackagePath "ui/widget.ftui" = .ok () := by decide

theorem pluginLogic_valid : validatePackagePath "logic/plugin.wasm" = .ok () := by decide

structure Publisher where
  id : String
  name : String
  deriving DecidableEq

structure Entrypoints where
  ui : PackagePath
  logic : PackagePath

structure LogicalSize where
  width : Float32
  height : Float32

structure Sizes where
  default : LogicalSize
  min : LogicalSize
  max : LogicalSize

structure PermissionDecl where
  capability : String
  params : Option Json

/-- The schema file of the configuration of instances. -/
structure ConfigRef where
  schema : PackagePath

structure StorageDecl where
  migrationVersion : ℕ
  deriving DecidableEq

structure HttpTemplateDecl where
  id : String
  method : String
  url : String
  queryParams : List String
  credentialHeader : String
  allowedStatuses : List ℕ
  maxResponseBytes : ℕ
  timeoutMs : ℕ
  cacheTtlMs : ℕ
  staleIfErrorMs : ℕ
  maxRetries : ℕ
  retryBaseDelayMs : ℕ
  deriving DecidableEq

structure Manifest where
  manifestVersion : ℕ
  id : PluginId
  name : String
  description : Option String
  version : String
  publisher : Publisher
  engineApiVersion : String
  uiApiVersion : String
  kind : PluginKind
  entrypoints : Entrypoints
  sizes : Sizes
  permissions : List PermissionDecl
  httpTemplates : List HttpTemplateDecl
  config : Option ConfigRef := none
  storage : Option StorageDecl

def validatePluginId (id : String) : Except ManifestError Unit :=
  let valid := !id.isEmpty &&
    Text.byteLen id ≤ 128 &&
    id.toList.all (fun c => Text.isAsciiLowercase c || Text.isAsciiDigit c || c == '.' || c == '-') &&
    !Text.startsWith id "." &&
    !Text.endsWith id "." &&
    !Text.containsText id ".."
  if valid then .ok () else .error (.invalidPluginId id)

def validateName (name : String) : Except ManifestError Unit :=
  if name.isEmpty || 256 < Text.charCount name then
    .error (.invalidName "name 必须非空且不超过 256 字符")
  else .ok ()

def majorOf (version : String) : Option ℕ :=
  (Text.splitChar version '.').head?.bind Text.parseU64

def checkApiMajor (version engine : String) : Except ManifestError Unit :=
  if majorOf version = majorOf engine then .ok ()
  else .error (.incompatibleEngineApiVersion version engine)

def validateEntrypoints (entrypoints : Entrypoints) : Except ManifestError Unit :=
  if !Text.endsWith entrypoints.ui.text ".ftui" then
    .error (.invalidEntrypoint s!"ui 必须是 .ftui，实际 {entrypoints.ui.text}")
  else if !Text.endsWith entrypoints.logic.text ".wasm" then
    .error (.invalidEntrypoint s!"logic 必须是 .wasm，实际 {entrypoints.logic.text}")
  else .ok ()

def LogicalSize.positive (s : LogicalSize) : Bool :=
  s.width.isFinite && s.height.isFinite && 0 < s.width && 0 < s.height

def validateSizes (sizes : Sizes) : Except ManifestError Unit :=
  if !sizes.default.positive || !sizes.min.positive || !sizes.max.positive then
    .error (.invalidSizes "尺寸必须为正有限逻辑像素")
  else if sizes.max.width < sizes.min.width || sizes.max.height < sizes.min.height then
    .error (.invalidSizes "min 必须不大于 max")
  else if sizes.default.width < sizes.min.width || sizes.max.width < sizes.default.width ||
      sizes.default.height < sizes.min.height || sizes.max.height < sizes.default.height then
    .error (.invalidSizes "default 必须在 min..max 内")
  else .ok ()

def validatePermission (decl : PermissionDecl) : Except ManifestError Unit :=
  match CapabilityId.fromName decl.capability with
  | none => .error (.unknownCapability decl.capability)
  | some c =>
    if c.isInherent then .error (.inherentCapabilityDeclared decl.capability)
    else
      match parseCapabilityParams c decl.params with
      | .ok _ => .ok ()
      | .error (.invalidParams _ detail) =>
        .error (.invalidCapabilityParams decl.capability detail)
      | .error other => .error (.unknownCapability other.display)

def httpsUrlOrigin (url : String) : Option String := do
  let rest ← Text.stripPrefix url "https://"
  let authority := rest.toList.takeWhile (fun c => c != '/' && c != '?')
  if authority.isEmpty ||
      authority.contains '@' ||
      ['['].isPrefixOf authority ||
      Text.eqIgnoreAsciiCase (String.ofList authority) "localhost" ||
      Text.containsChar url '#' ||
      url.toList.any Text.isWhitespace then
    none
  else some (String.ofList ("https://".toList ++ authority))

/-- The network budget that templates have to respect. -/
structure NetworkBudget where
  origins : List String
  maxResponseBytes : ℕ
  maxTimeoutMs : ℕ

def networkBudget (manifest : Manifest) : Except ManifestError (Option NetworkBudget) :=
  match manifest.permissions.find? (fun p => p.capability = "network:https") with
  | none => .ok none
  | some permission =>
    match parseCapabilityParams .networkHttps permission.params with
    | .error e => .error (.invalidHttpTemplate e.display)
    | .ok (some (.network origins _ maxResponseBytes maxTimeoutMs)) =>
      .ok (some ⟨origins,maxResponseBytes,maxTimeoutMs⟩)
    | .ok _ => .ok none

def validTemplateId (id : String) : Bool :=
  !id.isEmpty && Text.byteLen id ≤ 64 &&
    id.toList.all (fun c => Text.isAsciiLowercase c || Text.isAsciiDigit c || c == '-' || c == '.')

def validQueryName (name : String) : Bool :=
  !name.isEmpty && Text.byteLen name ≤ 64 &&
    name.toList.all (fun c => Text.isAsciiAlphanumeric c || c == '_' || c == '-')

def exceedsBudget (template : HttpTemplateDecl) (origin : String) (budget : NetworkBudget) : Bool :=
  !budget.origins.contains origin ||
    template.maxResponseBytes == 0 ||
    budget.maxResponseBytes < template.maxResponseBytes ||
    !(100 ≤ template.timeoutMs && template.timeoutMs ≤ 30000) ||
    budget.maxTimeoutMs < template.timeoutMs ||
    24 * 60 * 60 * 1000 < template.cacheTtlMs ||
    7 * 24 * 60 * 60 * 1000 < template.staleIfErrorMs ||
    2 < template.maxRetries ||
    !(10 ≤ template.retryBaseDelayMs && template.retryBaseDelayMs ≤ 2000)

def validateHttpTemplate (network : Option NetworkBudget) (ids : List String)
    (template : HttpTemplateDecl) : Except ManifestError (List String) :=
  if !validTemplateId template.id || ids.contains template.id then
    .error (.invalidHttpTemplate s!"模板 id `{template.id}` 非法或重复")
  else if template.method ≠ "GET" then
    .error (.invalidHttpTemplate s!"模板 `{template.id}` 当前仅允许 GET")
  else
    match httpsUrlOrigin template.url with
    | none => .error (.invalidHttpTemplate
        s!"模板 `{template.id}` URL 必须是无凭证、无 fragment 的固定 HTTPS URL")
    | some origin =>
      match network with
      | none => .error (.invalidHttpTemplate "声明 httpTemplates 必须同时声明 network:https")
      | some budget =>
        if exceedsBudget template origin budget then
          .error (.invalidHttpTemplate s!"模板 `{template.id}` 超出 network:https origin 或预算")
        else if template.credentialHeader ≠ "authorization" ∧
            template.credentialHeader ≠ "x-api-key" then
          .error (.invalidHttpTemplate
            s!"模板 `{template.id}` credentialHeader 仅允许 authorization/x-api-key")
        else if 16 < template.queryParams.length ∨ !template.queryParams.all validQueryName ∨
            ¬template.queryParams.Nodup then
          .error (.invalidHttpTemplate s!"模板 `{template.id}` queryParams 非法或重复")
        else if template.allowedStatuses.isEmpty || 32 < template.allowedStatuses.length ||
            !template.allowedStatuses.all (fun s => 100 ≤ s && s ≤ 599) then
          .error (.invalidHttpTemplate s!"模板 `{template.id}` allowedStatuses 非法")
        else .ok (template.id :: ids)

def validateHttpTemplates (manifest : Manifest) : Except ManifestError Unit := do
  reject (16 < manifest.httpTemplates.length) (.invalidHttpTemplate "httpTemplates 最多 16 项")
  let network ← networkBudget manifest
  let _ ← manifest.httpTemplates.foldlM (validateHttpTemplate network) []
  .ok ()

/-- The checks of a manifest, in the order of the source. -/
def validateManifest {Version : Type} (parseVersion : String → Except String Version)
    (manifest : Manifest) : Except ManifestError Unit := do
  reject (manifest.manifestVersion ≠ Core.manifestVersion)
    (.unsupportedManifestVersion manifest.manifestVersion)
  validatePluginId manifest.id.text
  validateName manifest.name
  reject (manifest.description.any (fun desc => 1024 < Text.charCount desc))
    (.invalidName "description 超过 1024 字符")
  let _ ← (parseVersion manifest.version).mapError
    (fun _ => ManifestError.invalidSemver manifest.version)
  reject manifest.publisher.id.isEmpty (.invalidName "publisher.id 不能为空")
  reject (256 < Text.charCount manifest.publisher.name)
    (.invalidName "publisher.name 超过 256 字符")
  checkApiMajor manifest.engineApiVersion engineApiVersion
  reject (majorOf manifest.uiApiVersion ≠ some 1)
    (.unsupportedUiApiVersion manifest.uiApiVersion)
  reject (manifest.kind ≠ .widget) (.unsupportedPluginType "Widget")
  validateEntrypoints manifest.entrypoints
  validateSizes manifest.sizes
  manifest.permissions.forM validatePermission
  validateHttpTemplates manifest

/-- Every permission of a valid manifest passes its own validation. -/
theorem validatePermission_of_validateManifest {Version : Type}
    {parseVersion : String → Except String Version} {manifest : Manifest}
    (h : validateManifest parseVersion manifest = .ok ()) :
    ∀ decl ∈ manifest.permissions, validatePermission decl = .ok () := by
  simp only [validateManifest, Checked.bind_eq_ok] at h
  obtain ⟨_,-,_,-,_,-,_,-,_,-,_,-,_,-,_,-,_,-,_,-,_,-,_,-,_,hpermissions,-⟩ := h
  exact (Checked.forM_eq_ok_iff _ _).mp hpermissions

end Floatile.Core
