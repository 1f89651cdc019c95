import Floatile.Core.Json
import Floatile.Lib.Checked
import Floatile.Lib.SortedMap
import Floatile.Lib.Text

/-! Instances of an installed plugin: the intent that survives a restart of the host, and the
configuration with its schema. JSON and JSON Schema come from external packages and are
parameters. -/
namespace Floatile.Core

open Floatile.Lib
open Floatile.Lib.Checked (reject)

def maxInstanceConfigBytes : ℕ := 64 * 1024

def maxInstanceConfigDepth : ℕ := 16

inductive InstanceDesiredState where
  | stopped
  | running
  deriving DecidableEq, Repr

inductive InstanceModelError where
  | invalidDigest
  | invalidPluginId (id : String)
  | invalidVersion (version : String)
  | configRootNotObject
  | configTooLarge (actual maximum : ℕ)
  | configTooDeep (actual maximum : ℕ)
  | invalidConfig (detail : String)
  | invalidConfigSchema
  | configSchemaMismatch (paths : List String)
  | timestampOrder (createdAt updatedAt : ℕ)
  deriving DecidableEq

def InstanceModelError.display : InstanceModelError → String
  | .invalidDigest => "安装 digest 必须是 32 字节 SHA-256 hex"
  | .invalidPluginId id => s!"非法插件 id `{id}`"
  | .invalidVersion version => s!"非法安装版本 `{version}`"
  | .configRootNotObject => "实例配置根必须是 object"
  | .configTooLarge actual maximum => s!"实例配置大小 {actual} 超过上限 {maximum}"
  | .configTooDeep actual maximum => s!"实例配置深度 {actual} 超过上限 {maximum}"
  | .invalidConfig detail => s!"实例配置无效: {detail}"
  | .invalidConfigSchema => "实例配置 schema 无效"
  | .configSchemaMismatch paths =>
    "实例配置不符合 schema，路径: [" ++
      ", ".intercalate (paths.map (fun path => "\"" ++ path ++ "\"")) ++ "]"
  | .timestampOrder createdAt updatedAt => s!"实例 updated_at {updatedAt} 早于 created_at {createdAt}"

/-- The external functions behind a configuration. A validator lists the places of its errors. -/
structure ConfigLib where
  toVec : List (String × Json) → Except String (List UInt8)
  fromSlice : List UInt8 → Option Json
  validatorFor : Json → Option (Json → List String)

mutual

/-- The depth of a value that stands at the given depth. -/
def valueDepth (depth : ℕ) : Json → ℕ
  | .object fields => (fieldsDepth depth fields).getD depth
  | .array items => (itemsDepth depth items).getD depth
  | .null | .bool _ | .number _ | .string _ => depth

def itemsDepth (depth : ℕ) : List Json → Option ℕ
  | [] => none
  | item :: items =>
    let deepest := valueDepth (depth + 1) item
    some ((itemsDepth depth items).elim deepest (max deepest))

def fieldsDepth (depth : ℕ) : List (String × Json) → Option ℕ
  | [] => none
  | (_,value) :: fields =>
    let deepest := valueDepth (depth + 1) value
    some ((fieldsDepth depth fields).elim deepest (max deepest))

end

def objectDepth (fields : List (String × Json)) (depth : ℕ) : ℕ :=
  (fieldsDepth depth fields).getD depth

def isReferenceKey (key : String) : Bool :=
  key == "$ref" || key == "$dynamicRef" || key == "$recursiveRef"

/-- A reference that does not point into the same document. -/
def isExternal (key : String) (value : Json) : Bool :=
  isReferenceKey key && match value.asStr with
    | none => true
    | some reference => !Text.startsWith reference "#"

mutual

def schemaContainsExternalReference : Json → Bool
  | .array items => itemsContainExternalReference items
  | .object fields => fieldsContainExternalReference fields
  | .null | .bool _ | .number _ | .string _ => false

def itemsContainExternalReference : List Json → Bool
  | [] => false
  | item :: items =>
    schemaContainsExternalReference item || itemsContainExternalReference items

def fieldsContainExternalReference : List (String × Json) → Bool
  | [] => false
  | (key,value) :: fields =>
    isExternal key value || schemaContainsExternalReference value ||
      fieldsContainExternalReference fields

end

/-- A configuration: the fields of an object that is not nested too deeply. -/
structure InstanceConfig where
  fields : List (String × Json)
  depth_le : objectDepth fields 1 ≤ maxInstanceConfigDepth

namespace InstanceConfig

def empty : InstanceConfig := ⟨[],by decide⟩

def toValue (config : InstanceConfig) : Json := .object config.fields

variable (lib : ConfigLib)

def new (value : Json) : Except InstanceModelError InstanceConfig :=
  match value.asObject with
  | none => .error .configRootNotObject
  | some fields => do
    let bytes ← (lib.toVec fields).mapError InstanceModelError.invalidConfig
    reject (maxInstanceConfigBytes < bytes.length)
      (.configTooLarge bytes.length maxInstanceConfigBytes)
    if h : objectDepth fields 1 ≤ maxInstanceConfigDepth then .ok ⟨fields,h⟩
    else .error (.configTooDeep (objectDepth fields 1) maxInstanceConfigDepth)

def errorPath (path : String) : String := if path.isEmpty then "/" else path

def validateSchema (config : InstanceConfig) (schema : Json) : Except InstanceModelError Unit := do
  reject (schemaContainsExternalReference schema) .invalidConfigSchema
  match lib.validatorFor schema with
  | none => .error .invalidConfigSchema
  | some validate =>
    match validate config.toValue with
    | [] => .ok ()
    | errors => .error (.configSchemaMismatch ((errors.take 8).map errorPath))

end InstanceConfig

end Floatile.Core
