import Floatile.UiSchema.Ir
import Mathlib.Data.Option.Basic

/-! Reading a document from JSON. The names of the fields are those that the serialization library
derives; the documentation spells four of them differently. A record is read from an object. The
library also takes an array of the values of its fields, in the order of their declarations; the
documentation knows no such form, and it is left out here. -/
namespace Floatile.UiSchema.Wire

open Floatile.Lib
open Floatile.Core

/-- The spellings of the four names on which the code and the documentation differ. -/
structure Spelling where
  maxLength : String
  maxItems : String
  additionalProperties : String
  else_ : String

/-- The names of the fields as the code declares them. -/
def derived : Spelling := ⟨"max_length","max_items","additional_properties","else_"⟩

def documented : Spelling := ⟨"maxLength","maxItems","additionalProperties","else"⟩

section Fields

variable {α β : Type} (read : Json → Option α)

/-- A field that may be missing or null. -/
def optional : Option Json → Option (Option α)
  | none => some none
  | some .null => some none
  | some value => (read value).map some

/-- A field that has a default. -/
def defaulted (default : α) : Option Json → Option α
  | none => some default
  | some value => read value

def readList (value : Json) : Option (List α) := do
  let items ← value.asArray
  items.mapM read

def readMap (value : Json) : Option (List (String × α)) := do
  let fields ← value.asObject
  fields.mapM (fun e => (read e.2).map (Prod.mk e.1))

end Fields

variable (w : Spelling)

/-- The schema, read with a limit on the nesting that is above the limit of the JSON library. -/
def readSchema : ℕ → Json → Option JsonSchema
  | depth + 1,.object fields => do
    let kind ← (SortedMap.find "type" fields).bind Json.asStr
    if kind = "string" then
      let maxLength ← optional Json.asU64 (SortedMap.find w.maxLength fields)
      some (.string maxLength)
    else if kind = "boolean" then some .boolean
    else if kind = "number" then some .number
    else if kind = "integer" then some .integer
    else if kind = "null" then some .null
    else if kind = "array" then
      let maxItems ← optional Json.asU64 (SortedMap.find w.maxItems fields)
      let items ← (SortedMap.find "items" fields).bind (readSchema depth)
      some (.array maxItems items)
    else if kind = "object" then
      let required ← defaulted (readList Json.asStr) [] (SortedMap.find "required" fields)
      let properties ←
        defaulted (readMap (readSchema depth)) [] (SortedMap.find "properties" fields)
      let additionalProperties ←
        defaulted Json.asBool true (SortedMap.find w.additionalProperties fields)
      some (.object required properties additionalProperties)
    else none
  | _,_ => none

def readBinding : Json → Option Binding
  | .object fields =>
    match SortedMap.find "bind" fields with
    | some (.string bind) => some (.state bind)
    | _ => ((SortedMap.find "item" fields).bind Json.asStr).map .item
  | _ => none

/-- What is no binding is a literal. -/
def readPropValue (value : Json) : Option PropValue :=
  match readBinding value with
  | some binding => some (.binding binding)
  | none => some (.literal value)

/-- Read from an object only, as the components and schemas are. -/
def readEmittedEvent (value : Json) : Option EmittedEvent := do
  let fields ← value.asObject
  let emit ← (SortedMap.find "emit" fields).bind Json.asStr
  some ⟨emit,(SortedMap.find "payload" fields).getD .null⟩

def readComponent : ℕ → Json → Option Component
  | depth + 1,.object fields => do
    let kind ← (SortedMap.find "type" fields).bind Json.asStr
    let props ← defaulted (readMap readPropValue) [] (SortedMap.find "props" fields)
    let children ←
      defaulted (readList (readComponent depth)) [] (SortedMap.find "children" fields)
    let events ← defaulted (readMap readEmittedEvent) [] (SortedMap.find "events" fields)
    let when_ ← optional readBinding (SortedMap.find "when" fields)
    let then_ ← optional (readComponent depth) (SortedMap.find "then" fields)
    let else_ ← optional (readComponent depth) (SortedMap.find w.else_ fields)
    let items ← optional readBinding (SortedMap.find "items" fields)
    let key ← optional Json.asStr (SortedMap.find "key" fields)
    let template ← optional (readComponent depth) (SortedMap.find "template" fields)
    some {
      kind := kind
      props := OrdMap.ofList props
      children := children
      events := OrdMap.ofList events
      when_ := when_
      then_ := then_
      else_ := else_
      items := items
      key := key
      template := template }
  | _,_ => none

/-- The JSON library reads no value that is nested more deeply. -/
def recursionLimit : ℕ := 128

def readStateSchema (value : Json) : Option StateSchema := do
  let fields ← value.asObject
  let initial ← SortedMap.find "initial" fields
  let schema ← (SortedMap.find "schema" fields).bind (readSchema w recursionLimit)
  some ⟨initial,schema⟩

def readEventSchema (value : Json) : Option EventSchema := do
  let fields ← value.asObject
  let payload ← (SortedMap.find "payload" fields).bind (readSchema w recursionLimit)
  some ⟨payload⟩

/-- The document, where no object has a key twice. -/
def readDocument (value : Json) : Option UiDocument := do
  let fields ← value.asObject
  let uiApiVersion ← (SortedMap.find "uiApiVersion" fields).bind Json.asStr
  let state ← (SortedMap.find "state" fields).bind (readStateSchema w)
  let events ← (SortedMap.find "events" fields).bind (readMap (readEventSchema w))
  let root ← (SortedMap.find "root" fields).bind (readComponent w recursionLimit)
  some {
    uiApiVersion := uiApiVersion
    state := state
    events := OrdMap.ofList events
    root := root }

end Floatile.UiSchema.Wire
