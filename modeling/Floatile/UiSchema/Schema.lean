import Floatile.Core.Json
import Floatile.Lib.SortedMap
import Floatile.Lib.Text

/-! The schema of instance state and the validation of values against it. -/
namespace Floatile.UiSchema

open Floatile.Lib
open Floatile.Core

inductive UiSchemaError where
  | unsupportedApiVersion (version : String)
  | unknownComponent (component : String)
  | unknownProp (component prop : String)
  | missingProp (component prop : String)
  | invalidPropType (prop : String) (expected : List String)
  | invalidBindingPath (detail : String)
  | bindingTypeMismatch (detail : String)
  | invalidItemBinding (detail : String)
  | unknownEvent (event : String)
  | unknownInputEvent (component event : String)
  | invalidEventPayload (detail : String)
  | invalidState (detail : String)
  | limitExceeded (detail : String)
  | invalidChildren (detail : String)
  | invalidControl (detail : String)
  deriving DecidableEq, Repr

def UiSchemaError.display : UiSchemaError → String
  | .unsupportedApiVersion version => s!"不支持的 uiApiVersion `{version}`，需要 major 1"
  | .unknownComponent component => s!"未知组件 `{component}`"
  | .unknownProp component prop => s!"组件 `{component}` 的未知 prop `{prop}`"
  | .missingProp component prop => s!"组件 `{component}` 缺少必填 prop `{prop}`"
  | .invalidPropType prop expected =>
    s!"prop `{prop}` 类型不合法：期望 [" ++
      ", ".intercalate (expected.map (fun e => "\"" ++ e ++ "\"")) ++ "]"
  | .invalidBindingPath detail => s!"绑定路径不合法：{detail}"
  | .bindingTypeMismatch detail => s!"绑定类型不匹配：{detail}"
  | .invalidItemBinding detail => s!"ForEach item 绑定不合法：{detail}"
  | .unknownEvent event => s!"发出的未知事件 `{event}`"
  | .unknownInputEvent component event => s!"组件 `{component}` 未声明输入事件 `{event}`"
  | .invalidEventPayload detail => s!"事件 payload 不合法：{detail}"
  | .invalidState detail => s!"State 不合法：{detail}"
  | .limitExceeded detail => s!"超出预算限制：{detail}"
  | .invalidChildren detail => s!"子组件结构不合法：{detail}"
  | .invalidControl detail => s!"If/ForEach 控制组件结构不合法：{detail}"

def maxStateDepth : ℕ := 16

inductive JsonSchema where
  | string (maxLength : Option ℕ)
  | boolean
  | number
  | integer
  | null
  | array (maxItems : Option ℕ) (items : JsonSchema)
  | object (required : List String) (properties : List (String × JsonSchema))
      (additionalProperties : Bool)

def typeName : JsonSchema → String
  | .string _ => "string"
  | .boolean => "boolean"
  | .number => "number"
  | .integer => "integer"
  | .null => "null"
  | .array _ _ => "array"
  | .object _ _ _ => "object"

def jsonTypeName : Json → String
  | .null => "null"
  | .bool _ => "boolean"
  | .number _ => "number"
  | .string _ => "string"
  | .array _ => "array"
  | .object _ => "object"

def ensureDepth (path : String) (depth : ℕ) : Except UiSchemaError Unit :=
  if maxStateDepth < depth then
    .error (.invalidState s!"{path}: 超过最大深度 {maxStateDepth}")
  else .ok ()

def typeMismatch (schema : JsonSchema) (value : Json) (path : String) :
    Except UiSchemaError Unit :=
  .error (.invalidState
    s!"{path}: 类型不匹配，期望 {typeName schema}，实际 {jsonTypeName value}")

/-- The limit on a length, when the schema states one. -/
def checkMax (limit : Option ℕ) (length : ℕ) (path noun : String) : Except UiSchemaError Unit :=
  match limit with
  | none => .ok ()
  | some max =>
    if max < length then .error (.invalidState s!"{path}: {noun} {length} 超过上限 {max}")
    else .ok ()

def checkUnknown (properties : List (String × JsonSchema)) (path : String) :
    List (String × Json) → Except UiSchemaError Unit
  | [] => .ok ()
  | (key,_) :: fields =>
    if (SortedMap.find key properties).isNone then
      .error (.invalidState s!"{path}: 未知字段 `{key}`")
    else checkUnknown properties path fields

def checkRequired (fields : List (String × Json)) (path : String) :
    List String → Except UiSchemaError Unit
  | [] => .ok ()
  | name :: names =>
    if (SortedMap.find name fields).isNone then
      .error (.invalidState s!"{path}: 缺少必填字段 `{name}`")
    else checkRequired fields path names

def subPath (path key : String) : String :=
  if path.isEmpty then s!"${key}" else s!"{path}.{key}"

mutual

/-- A value conforms to a schema and is not nested too deeply. -/
def validateValue (schema : JsonSchema) (value : Json) (path : String) (depth : ℕ) :
    Except UiSchemaError Unit :=
  match value with
  | .null => do
    ensureDepth path depth
    match schema with
    | .null => .ok ()
    | _ => typeMismatch schema .null path
  | .bool b => do
    ensureDepth path depth
    match schema with
    | .boolean => .ok ()
    | _ => typeMismatch schema (.bool b) path
  | .number n => do
    ensureDepth path depth
    match schema with
    | .integer =>
      if n.asI64.isSome || n.asU64.isSome then .ok () else typeMismatch schema (.number n) path
    | .number => .ok ()
    | _ => typeMismatch schema (.number n) path
  | .string s => do
    ensureDepth path depth
    match schema with
    | .string maxLength => checkMax maxLength (Text.charCount s) path "字符串长度"
    | _ => typeMismatch schema (.string s) path
  | .array items => do
    ensureDepth path depth
    match schema with
    | .array maxItems itemSchema => do
      checkMax maxItems items.length path "数组长度"
      validateItems itemSchema items path 0 (depth + 1)
    | _ => typeMismatch schema (.array items) path
  | .object fields => do
    ensureDepth path depth
    match schema with
    | .object required properties additionalProperties => do
      if additionalProperties then .ok () else checkUnknown properties path fields
      checkRequired fields path required
      validateFields properties additionalProperties fields path (depth + 1)
    | _ => typeMismatch schema (.object fields) path

def validateItems (schema : JsonSchema) (items : List Json) (path : String) (index depth : ℕ) :
    Except UiSchemaError Unit :=
  match items with
  | [] => .ok ()
  | item :: items => do
    validateValue schema item s!"{path}[{index}]" depth
    validateItems schema items path (index + 1) depth

def validateFields (properties : List (String × JsonSchema)) (additionalProperties : Bool)
    (fields : List (String × Json)) (path : String) (depth : ℕ) : Except UiSchemaError Unit :=
  match fields with
  | [] => .ok ()
  | (key,sub) :: fields => do
    match SortedMap.find key properties with
    | some subSchema => validateValue subSchema sub (subPath path key) depth
    | none => if additionalProperties then ensureDepth (subPath path key) depth else .ok ()
    validateFields properties additionalProperties fields path depth

end

example : validateValue (.object ["time"] [("time",.string (some 8))] false)
    (.object [("time",.string "12:00:00")]) "$" 0 = .ok () := by rfl

end Floatile.UiSchema
