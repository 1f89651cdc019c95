import Floatile.Renderer.Render
import Floatile.UiSchema.StatePath

/-! The runtime window of a plugin: the state is projected to the properties of the generated
component, and its callbacks are forwarded as events. -/
namespace Floatile.Shell

open Floatile.Lib
open Floatile.Lib.Checked (reject)
open Floatile.Core
open Floatile.UiSchema
open Floatile.Renderer

inductive RuntimeUiError where
  | projection (detail : String)
  | callback (detail : String)
  deriving DecidableEq, Repr

def RuntimeUiError.code : RuntimeUiError → String
  | .projection _ => "RUI_PROJECTION"
  | .callback _ => "RUI_CALLBACK"

inductive ProjectedValue where
  | string (value : String)
  | boolean (value : Bool)
  | number (value : Float)
  | stringList (values : List String)
  | numberList (values : List Float)

def ProjectedValue.valueType : ProjectedValue → BindingValueType
  | .string _ => .string
  | .boolean _ => .boolean
  | .number _ => .number
  | .stringList _ => .stringList
  | .numberList _ => .numberList

section Projection

variable (slot : BindingSlot)

def projectionError {α : Type} (detail : String) : Except RuntimeUiError α :=
  .error (.projection s!"{slot.prop}: {detail}")

def requireSome {α : Type} (detail : String) : Option α → Except RuntimeUiError α
  | some value => .ok value
  | none => projectionError slot detail

def stateField (current : Json) (segment : String) : Except RuntimeUiError Json :=
  requireSome slot s!"State 字段 `{segment}` 缺失" (current.asObject.bind (SortedMap.find segment))

/-- The items of an array of limited length. -/
def projectItems {α : Type} (expected tooLong itemExpected : String) (limit : ℕ)
    (item : Json → Option α) (current : Json) : Except RuntimeUiError (List α) := do
  let items ← requireSome slot expected current.asArray
  reject (limit < items.length) (.projection s!"{slot.prop}: {tooLong} {limit}")
  items.mapM (fun value => requireSome slot itemExpected (item value))

def projectBindingValue (state : Json) : Except RuntimeUiError ProjectedValue := do
  let path ← (PathSegments.parse slot.path).mapError
    (fun e => RuntimeUiError.projection s!"{slot.prop}: {e.display}")
  let current ← path.segments.foldlM (stateField slot) state
  match slot.valueType with
  | .string => (requireSome slot "期望 string" current.asStr).map .string
  | .boolean => (requireSome slot "期望 boolean" current.asBool).map .boolean
  | .number => (requireSome slot "期望 number" current.asF64).map .number
  | .stringList =>
    (projectItems slot "期望 string array" "List 项数超过" "List item 期望 string" maxListItems
      Json.asStr current).map .stringList
  | .numberList =>
    (projectItems slot "期望 number array" "Sparkline 采样点超过" "Sparkline point 期望 number"
      maxChartPoints Json.asF64 current).map .numberList

end Projection

end Floatile.Shell
