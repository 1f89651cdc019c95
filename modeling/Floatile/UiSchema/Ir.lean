import Floatile.UiSchema.Schema

/-! The static user interface document of a widget and the paths of its bindings. -/
namespace Floatile.UiSchema

open Floatile.Lib
open Floatile.Core

inductive Binding where
  | state (bind : String)
  | item (item : String)
  deriving DecidableEq, Repr

/-- The value of a prop. -/
inductive PropValue where
  | binding (b : Binding)
  | literal (v : Json)

structure EmittedEvent where
  emit : String
  payload : Json

/-- A node of the component tree; the fields after `events` belong to If and ForEach. -/
structure Component where
  kind : String
  props : OrdMap String PropValue
  children : List Component
  events : OrdMap String EmittedEvent
  when_ : Option Binding
  then_ : Option Component
  else_ : Option Component
  items : Option Binding
  key : Option String
  template : Option Component

structure StateSchema where
  initial : Json
  schema : JsonSchema

structure EventSchema where
  payload : JsonSchema

structure UiDocument where
  uiApiVersion : String
  state : StateSchema
  events : OrdMap String EventSchema
  root : Component

def maxIrBytes : ℕ := 256 * 1024

def maxNodes : ℕ := 256

def maxTreeDepth : ℕ := 32

def maxBindings : ℕ := 512

def maxEventDecls : ℕ := 128

def maxAssetRefs : ℕ := 64

def maxListItems : ℕ := 256

def maxChartPoints : ℕ := 128

/-- The fields of a path below the root `$`. -/
structure PathSegments where
  segments : List String
  deriving DecidableEq

def invalidPath {α : Type} (detail : String) : Except UiSchemaError α :=
  .error (.invalidBindingPath detail)

def isFieldChar (c : Char) : Bool :=
  c != '[' && c != ']' && c != '*' && !Text.isWhitespace c

def parseField (path field : String) : Except UiSchemaError String :=
  if field.isEmpty then invalidPath s!"{path}: 存在空字段段"
  else if !field.toList.all isFieldChar then invalidPath s!"{path}: 段 `{field}` 含非法字符"
  else .ok field

def PathSegments.parse (path : String) : Except UiSchemaError PathSegments :=
  match path.toList with
  | '$' :: [] => .ok ⟨[]⟩
  | '$' :: '.' :: rest => do
    let segments ← (Text.splitChar (String.ofList rest) '.').mapM (parseField path)
    .ok ⟨segments⟩
  | '$' :: _ => invalidPath s!"{path}: `$` 后必须紧跟 `.field`"
  | _ => invalidPath s!"{path}: 必须以 `$` 开头"

/-- The schema below a path; only the declared fields of objects are followed. -/
def resolve (schema : JsonSchema) : List String → Except UiSchemaError JsonSchema
  | [] => .ok schema
  | field :: fields =>
    match schema with
    | .object _ properties additionalProperties =>
      match SortedMap.find field properties with
      | some sub => resolve sub fields
      | none =>
        if additionalProperties then
          invalidPath s!"`{field}` 在 additionalProperties schema 上无法静态解析类型"
        else invalidPath s!"State 不存在字段 `{field}`"
    | _ => invalidPath s!"`{field}`：无法在非 object schema 上继续遍历"

def jsonType : JsonSchema → String
  | .string _ => "string"
  | .boolean => "boolean"
  | .number => "number"
  | .integer => "number"
  | .null => "null"
  | .array _ _ => "array"
  | .object _ _ _ => "object"

end Floatile.UiSchema
