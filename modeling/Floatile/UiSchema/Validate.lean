import Floatile.Lib.Checked
import Floatile.UiSchema.Registry

/-! The validation of a user interface document: structure, bindings, events and budgets. The
length of the serialised document comes from the JSON library and is a parameter. -/
namespace Floatile.UiSchema

open Floatile.Lib
open Floatile.Lib.Checked (reject)
open Floatile.Core

/-- The minor number of a version `1.x`; other major versions are refused. -/
def checkApiVersion (version : String) : Except UiSchemaError ℕ :=
  match Text.splitChar version '.' with
  | "1" :: [] => .ok 0
  | "1" :: minor :: _ =>
    match Text.parseU64 minor with
    | some minor => .ok minor
    | none => .error (.unsupportedApiVersion version)
  | _ => .error (.unsupportedApiVersion version)

def checkIrSize (irBytes : UiDocument → Except String ℕ) (doc : UiDocument) :
    Except UiSchemaError Unit := do
  let bytes ← (irBytes doc).mapError (fun e => UiSchemaError.invalidState s!"IR 序列化失败: {e}")
  reject (maxIrBytes < bytes) (.limitExceeded s!"IR 大小 {bytes} 字节超过上限 {maxIrBytes}")

def checkEventName (name : String) : Except UiSchemaError Unit :=
  reject name.isEmpty (.unknownEvent "空事件名")

mutual

/-- A schema that is nested too deeply is refused. -/
def checkSchemaDepth (schema : JsonSchema) (depth : ℕ) (path : String) :
    Except UiSchemaError Unit :=
  match schema with
  | .array _ items => do
    reject (maxStateDepth < depth)
      (.invalidState s!"{path}: schema 超过最大深度 {maxStateDepth}")
    checkSchemaDepth items (depth + 1) path
  | .object _ properties _ => do
    reject (maxStateDepth < depth)
      (.invalidState s!"{path}: schema 超过最大深度 {maxStateDepth}")
    checkPropertiesDepth properties (depth + 1) path
  | _ => reject (maxStateDepth < depth)
      (.invalidState s!"{path}: schema 超过最大深度 {maxStateDepth}")

def checkPropertiesDepth (properties : List (String × JsonSchema)) (depth : ℕ) (path : String) :
    Except UiSchemaError Unit :=
  match properties with
  | [] => .ok ()
  | (key,sub) :: properties => do
    checkSchemaDepth sub depth s!"{path}.{key}"
    checkPropertiesDepth properties depth path

end

/-- What a component is checked against. -/
structure ValidateEnv where
  docEvents : OrdMap String EventSchema
  uiMinor : ℕ

/-- What has been counted so far. -/
structure Counts where
  nodes : ℕ
  bindings : ℕ
  assetRefs : ℕ
  deriving DecidableEq, Repr

def invalidControl {α : Type} (detail : String) : Except UiSchemaError α :=
  .error (.invalidControl detail)

def bindingTypeMismatch {α : Type} (detail : String) : Except UiSchemaError α :=
  .error (.bindingTypeMismatch detail)

/-- The node is counted and its kind looked up. -/
def enterComponent (env : ValidateEnv) (depth : ℕ) (counts : Counts) (kind : String) :
    Except UiSchemaError (ComponentSpec × Counts) := do
  reject (maxTreeDepth < depth) (.limitExceeded s!"组件树深度 {depth} 超过上限 {maxTreeDepth}")
  reject (maxNodes < counts.nodes + 1)
    (.limitExceeded s!"组件节点数 {counts.nodes + 1} 超过上限 {maxNodes}")
  let spec ← find kind
  reject (env.uiMinor < spec.introducedMinor)
    (.unsupportedApiVersion s!"{kind} requires 1.{spec.introducedMinor}.0")
  .ok (spec,{ counts with nodes := counts.nodes + 1 })

/-- The schema that a binding points to. -/
def bindingTarget (stateSchema : JsonSchema) (itemSchema : Option JsonSchema) :
    Binding → Except UiSchemaError JsonSchema
  | .state bind => do
    let path ← PathSegments.parse bind
    resolve stateSchema path.segments
  | .item item =>
    match itemSchema with
    | none => .error (.invalidItemBinding s!"`{item}` 只能在 ForEach template 内使用")
    | some itemSchema =>
      if item = "value" then .ok itemSchema
      else do
        let path ← PathSegments.parse s!"$.{item}"
        resolve itemSchema path.segments

def isListSchema : JsonSchema → Bool
  | .array (some maxItems) (.string _) => maxItems ≤ maxListItems
  | _ => false

def isChartSchema : JsonSchema → Bool
  | .array (some maxItems) .number => maxItems ≤ maxChartPoints
  | .array (some maxItems) .integer => maxItems ≤ maxChartPoints
  | _ => false

def validateBinding (binding : Binding) (prop : PropSchema) (stateSchema : JsonSchema)
    (itemSchema : Option JsonSchema) (component propName : String) :
    Except UiSchemaError Unit := do
  let target ← bindingTarget stateSchema itemSchema binding
  reject (component = "List" ∧ propName = "items" ∧ isListSchema target = false)
    (.bindingTypeMismatch s!"List.items 必须绑定 maxItems <= {maxListItems} 的 string array")
  reject (component = "Sparkline" ∧ propName = "values" ∧ isChartSchema target = false)
    (.bindingTypeMismatch s!"Sparkline.values 必须绑定 maxItems <= {maxChartPoints} 的 number array")
  reject (!prop.types.any (fun t => t.name = jsonType target ∨
      t = .number ∧ jsonType target = "integer"))
    (.bindingTypeMismatch s!"{component}.{propName}: 绑定目标类型 {jsonType target} 不在允许集合")

def validateProp (env : ValidateEnv) (spec : ComponentSpec) (kind : String)
    (stateSchema : JsonSchema) (itemSchema : Option JsonSchema) (counts : Counts)
    (entry : String × PropValue) : Except UiSchemaError Counts :=
  let (name,value) := entry
  match spec.findProp name with
  | none => .error (.unknownProp kind name)
  | some prop => do
    reject (env.uiMinor < prop.introducedMinor)
      (.unsupportedApiVersion s!"{kind}.{name} requires 1.{prop.introducedMinor}.0")
    match value with
    | .binding binding => do
      reject (prop.allowBinding = false) (.bindingTypeMismatch s!"{kind}.{name} 不允许绑定")
      validateBinding binding prop stateSchema itemSchema kind name
      reject (maxBindings < counts.bindings + 1)
        (.limitExceeded s!"绑定数 {counts.bindings + 1} 超过上限 {maxBindings}")
      .ok { counts with bindings := counts.bindings + 1 }
    | .literal json => do
      validateLiteral spec prop json
      .ok counts

def checkRequiredProps (spec : ComponentSpec) (comp : Component) : Except UiSchemaError Unit :=
  match spec.props.find? (fun p => !p.optional && (comp.props.get p.name).isNone) with
  | some prop => .error (.missingProp comp.kind prop.name)
  | none => .ok ()

def checkChildren (spec : ComponentSpec) (comp : Component) : Except UiSchemaError Unit :=
  match spec.children with
  | .forbidden =>
    reject (!comp.children.isEmpty) (.invalidChildren s!"`{comp.kind}` 不允许子组件")
  | .one =>
    reject (comp.children.length ≠ 1)
      (.invalidChildren s!"`{comp.kind}` 需要一个子组件，实际 {comp.children.length}")
  | .many => .ok ()

/-- The checks of an element before its children. -/
def validateElement (env : ValidateEnv) (spec : ComponentSpec) (stateSchema : JsonSchema)
    (itemSchema : Option JsonSchema) (comp : Component) (counts : Counts) :
    Except UiSchemaError Counts := do
  reject (comp.when_.isSome || comp.then_.isSome || comp.else_.isSome || comp.items.isSome ||
      comp.key.isSome || comp.template.isSome)
    (.invalidControl s!"`{comp.kind}` 是元素组件，不能携带 If/ForEach 字段")
  let counts ← comp.props.entries.foldlM
    (validateProp env spec comp.kind stateSchema itemSchema) counts
  checkRequiredProps spec comp
  reject (6 ≤ env.uiMinor ∧ comp.kind ∈ ["Toggle","Progress","Gauge"] ∧
      (comp.props.get "accessibilityLabel").isNone)
    (.missingProp comp.kind "accessibilityLabel")
  reject ((comp.props.get "color").isSome && (comp.props.get "colorToken").isSome)
    (.invalidPropType s!"{comp.kind}.color" ["color or colorToken, not both"])
  reject (comp.kind = "List" ∧ (comp.props.get "items").isSome ∧ !comp.children.isEmpty)
    (.invalidChildren "List 使用 items 时不能同时声明静态 children")
  checkChildren spec comp
  .ok counts

def validateEvent (env : ValidateEnv) (spec : ComponentSpec) (kind : String)
    (entry : String × EmittedEvent) : Except UiSchemaError Unit := do
  let (input,emitted) := entry
  reject (!spec.declaresInputEvent input) (.unknownInputEvent kind input)
  match env.docEvents.get emitted.emit with
  | none => .error (.unknownEvent emitted.emit)
  | some declared =>
    validateValue declared.payload emitted.payload s!"events.{emitted.emit}.payload" 0

/-- The checks of an element after its children: events and references to assets. -/
def validateEvents (env : ValidateEnv) (spec : ComponentSpec) (comp : Component)
    (counts : Counts) : Except UiSchemaError Counts := do
  comp.events.entries.forM (validateEvent env spec comp.kind)
  if comp.kind = "Image" then do
    reject (maxAssetRefs < counts.assetRefs + 1)
      (.limitExceeded s!"asset 引用数 {counts.assetRefs + 1} 超过上限 {maxAssetRefs}")
    .ok { counts with assetRefs := counts.assetRefs + 1 }
  else .ok counts

def isPlain (comp : Component) : Bool :=
  comp.props.entries.isEmpty && comp.events.entries.isEmpty && comp.children.isEmpty

/-- The checks of an If before its branches. -/
def validateIf (stateSchema : JsonSchema) (comp : Component) : Except UiSchemaError Unit := do
  reject (!isPlain comp) (.invalidControl "If 不使用 props/events/children")
  match comp.when_ with
  | some (.state bind) => do
    let path ← PathSegments.parse bind
    let target ← resolve stateSchema path.segments
    reject (jsonType target ≠ "boolean")
      (.bindingTypeMismatch s!"If.when 必须绑定 boolean，实际 {jsonType target}")
    reject comp.then_.isNone (.invalidControl "If 需要 then 分支")
  | _ => invalidControl "If 需要 when 布尔 State 绑定"

/-- The checks of a ForEach before its template; the result is the schema of an item. -/
def validateForeach (stateSchema : JsonSchema) (comp : Component) :
    Except UiSchemaError JsonSchema := do
  reject (!isPlain comp) (.invalidControl "ForEach 不使用 props/events/children")
  match comp.items with
  | some (.state bind) => do
    let path ← PathSegments.parse bind
    let target ← resolve stateSchema path.segments
    match target with
    | .array _ items => do
      reject comp.key.isNone (.invalidControl "ForEach 需要 key")
      reject comp.template.isNone (.invalidControl "ForEach 需要 template")
      .ok items
    | _ => bindingTypeMismatch s!"ForEach.items 必须绑定 array，实际 {jsonType target}"
  | _ => invalidControl "ForEach 需要 items 数组 State 绑定"

mutual

def validateComponent (env : ValidateEnv) (stateSchema : JsonSchema)
    (itemSchema : Option JsonSchema) (depth : ℕ) (counts : Counts) (comp : Component) :
    Except UiSchemaError Counts :=
  match comp with
  | ⟨kind,_,children,_,_,then_,else_,_,_,template⟩ => do
    let (spec,counts) ← enterComponent env depth counts kind
    match spec.kind with
    | .if_ => do
      validateIf stateSchema comp
      let counts ← validateBranch env stateSchema none (depth + 1) counts then_
      validateBranch env stateSchema none (depth + 1) counts else_
    | .forEach => do
      let items ← validateForeach stateSchema comp
      validateBranch env stateSchema (some items) (depth + 1) counts template
    | .element => do
      let counts ← validateElement env spec stateSchema itemSchema comp counts
      let counts ← validateChildren env stateSchema itemSchema (depth + 1) counts children
      validateEvents env spec comp counts

def validateChildren (env : ValidateEnv) (stateSchema : JsonSchema)
    (itemSchema : Option JsonSchema) (depth : ℕ) (counts : Counts) (children : List Component) :
    Except UiSchemaError Counts :=
  match children with
  | [] => .ok counts
  | child :: children => do
    let counts ← validateComponent env stateSchema itemSchema depth counts child
    validateChildren env stateSchema itemSchema depth counts children

/-- A branch of a control component, if there is one. -/
def validateBranch (env : ValidateEnv) (stateSchema : JsonSchema)
    (itemSchema : Option JsonSchema) (depth : ℕ) (counts : Counts) (branch : Option Component) :
    Except UiSchemaError Counts :=
  match branch with
  | none => .ok counts
  | some comp => validateComponent env stateSchema itemSchema depth counts comp

end

def validateEventDecl (entry : String × EventSchema) : Except UiSchemaError Unit := do
  checkEventName entry.1
  checkSchemaDepth entry.2.payload 0 s!"events.{entry.1}.payload"

def validateDocument (irBytes : UiDocument → Except String ℕ) (doc : UiDocument) :
    Except UiSchemaError Unit := do
  let uiMinor ← checkApiVersion doc.uiApiVersion
  checkIrSize irBytes doc
  reject (maxEventDecls < doc.events.entries.length)
    (.limitExceeded s!"事件声明 {doc.events.entries.length} 超过上限 {maxEventDecls}")
  doc.events.entries.forM validateEventDecl
  validateValue doc.state.schema doc.state.initial "$" 0
  checkSchemaDepth doc.state.schema 0 "state.schema"
  let _ ← validateComponent ⟨doc.events,uiMinor⟩ doc.state.schema none 1 ⟨0,0,0⟩ doc.root
  .ok ()

end Floatile.UiSchema
