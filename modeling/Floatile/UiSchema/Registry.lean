import Floatile.UiSchema.Ir

/-! The registry of components: their props, input events and children. -/
namespace Floatile.UiSchema

open Floatile.Lib
open Floatile.Core

inductive JsonType where
  | string
  | boolean
  | number
  | integer
  | object
  | array
  | null
  deriving DecidableEq, Repr

def JsonType.name : JsonType → String
  | .string => "string"
  | .boolean => "boolean"
  | .number => "number"
  | .integer => "integer"
  | .object => "object"
  | .array => "array"
  | .null => "null"

/-- An integer is also a number. -/
def JsonType.accepts : JsonType → Json → Bool
  | .string, .string _ => true
  | .boolean, .bool _ => true
  | .integer, .number (.float _) => false
  | .integer, .number _ => true
  | .number, .number _ => true
  | .object, .object _ => true
  | .array, .array _ => true
  | .null, .null => true
  | _, _ => false

structure PropSchema where
  name : String
  types : List JsonType
  allowBinding : Bool
  introducedMinor : ℕ
  optional : Bool
  deriving DecidableEq, Repr

inductive ChildrenPolicy where
  | forbidden
  | one
  | many
  deriving DecidableEq, Repr

inductive ComponentKind where
  | element
  | if_
  | forEach
  deriving DecidableEq, Repr

structure ComponentSpec where
  name : String
  introducedMinor : ℕ
  props : List PropSchema
  inputEvents : List String
  children : ChildrenPolicy
  kind : ComponentKind
  deriving DecidableEq, Repr

def ComponentSpec.findProp (spec : ComponentSpec) (name : String) : Option PropSchema :=
  spec.props.find? (fun p => p.name = name)

def ComponentSpec.declaresInputEvent (spec : ComponentSpec) (name : String) : Bool :=
  spec.inputEvents.contains name

/-- An optional prop of one literal type. -/
def styleProp (name : String) (type : JsonType) : PropSchema := ⟨name,[type],false,0,true⟩

def commonElementProps : List PropSchema :=
  [styleProp "padding" .number,styleProp "gap" .number,styleProp "width" .number,
   styleProp "height" .number,styleProp "opacity" .number,styleProp "radius" .number,
   styleProp "color" .string,styleProp "border" .string]

def elementSince (name : String) (introducedMinor : ℕ) (children : ChildrenPolicy)
    (props : List PropSchema) (events : List String) : ComponentSpec where
  name := name
  introducedMinor := introducedMinor
  props := commonElementProps.filter (fun common => !props.any (fun p => p.name = common.name)) ++
    props
  inputEvents := events
  children := children
  kind := .element

def element (name : String) (children : ChildrenPolicy) (props : List PropSchema)
    (events : List String) : ComponentSpec := elementSince name 0 children props events

def components : List ComponentSpec :=
  [element "Row" .many [] [],
   element "Column" .many [] [],
   element "Stack" .many [] [],
   element "Grid" .many [⟨"columns",[.integer],false,0,true⟩] [],
   element "Scroll" .many [] [],
   elementSince "Responsive" 4 .many [⟨"breakpoint",[.number],false,4,false⟩] [],
   element "Text" .forbidden
     [⟨"text",[.string],true,0,false⟩,⟨"style",[.string],false,0,true⟩,
      ⟨"colorToken",[.string],false,5,true⟩] [],
   element "Icon" .forbidden
     [⟨"name",[.string],true,0,false⟩,⟨"size",[.number],false,0,true⟩] [],
   element "Image" .forbidden
     [⟨"asset",[.string],false,0,false⟩,⟨"width",[.number],false,0,true⟩,
      ⟨"height",[.number],false,0,true⟩] [],
   element "Button" .forbidden [⟨"label",[.string],true,0,false⟩] ["activate"],
   element "Toggle" .forbidden
     [⟨"checked",[.boolean],true,0,false⟩,⟨"accessibilityLabel",[.string],true,6,true⟩] ["toggle"],
   element "Progress" .forbidden
     [⟨"value",[.number],true,0,false⟩,⟨"accessibilityLabel",[.string],true,6,true⟩] [],
   elementSince "Badge" 1 .forbidden
     [⟨"label",[.string],true,0,false⟩,⟨"tone",[.string],false,0,true⟩] [],
   element "Gauge" .forbidden
     [⟨"value",[.number],true,0,false⟩,⟨"accessibilityLabel",[.string],true,6,true⟩] [],
   element "List" .many [⟨"items",[.array],true,2,true⟩] [],
   elementSince "Sparkline" 3 .forbidden
     [⟨"values",[.array],true,3,false⟩,⟨"label",[.string],true,3,false⟩,
      ⟨"tone",[.string],false,3,true⟩] [],
   ⟨"If",0,[],[],.forbidden,.if_⟩,
   ⟨"ForEach",0,[],[],.forbidden,.forEach⟩]

def find (name : String) : Except UiSchemaError ComponentSpec :=
  match components.find? (fun spec => spec.name = name) with
  | some spec => .ok spec
  | none => .error (.unknownComponent name)

structure ThemeColorToken where
  name : String
  value : String
  deriving DecidableEq, Repr

def colorTokens : List ThemeColorToken :=
  [⟨"foreground","#cdd6f4"⟩,⟨"muted","#9399b2"⟩,⟨"accent","#89b4fa"⟩,⟨"positive","#a6e3a1"⟩,
   ⟨"warning","#f9e2af"⟩,⟨"danger","#f38ba8"⟩]

def colorToken (name : String) : Option ThemeColorToken :=
  colorTokens.find? (fun token => token.name = name)

def invalidPropType (prop : String) (expected : List String) : Except UiSchemaError Unit :=
  .error (.invalidPropType prop expected)

/-- The values a string prop is restricted to. -/
def checkOneOf (prop : String) (allowed : List String) (json : Json) :
    Except UiSchemaError Unit :=
  match json.asStr with
  | some value =>
    if allowed.contains value then .ok () else invalidPropType prop ["|".intercalate allowed]
  | none => .ok ()

/-- The size and the items of an array prop. -/
def checkArray (prop expected : String) (limit : ℕ) (item : Json → Bool) (json : Json) :
    Except UiSchemaError Unit :=
  match json.asArray with
  | some items =>
    if limit < items.length || !items.all item then invalidPropType prop [expected] else .ok ()
  | none => .ok ()

def checkColumns (json : Json) : Except UiSchemaError Unit :=
  match json.asU64 with
  | some columns =>
    if 1 ≤ columns ∧ columns ≤ 16 then .ok ()
    else invalidPropType "Grid.columns" ["integer from 1 through 16"]
  | none => .ok ()

/-- Whether a number, taken as a double, lies between two small integers; an integer keeps its place
between them when it is rounded to a double. -/
def isBetween (lo hi : ℕ) : Number → Bool
  | .posInt n => lo ≤ n.toNat ∧ n.toNat ≤ hi
  | .negInt n => (lo : ℤ) ≤ n.toInt ∧ n.toInt ≤ hi
  | .float x => Float.ofNat lo ≤ x ∧ x ≤ Float.ofNat hi

def checkBreakpoint (json : Json) : Except UiSchemaError Unit :=
  match json with
  | .number breakpoint =>
    if isBetween 240 1920 breakpoint then .ok ()
    else invalidPropType "Responsive.breakpoint" ["number from 240 through 1920"]
  | _ => .ok ()

def checkColorToken (spec : ComponentSpec) (json : Json) : Except UiSchemaError Unit :=
  match json.asStr with
  | some token =>
    if (colorToken token).isSome then .ok ()
    else invalidPropType s!"{spec.name}.colorToken" (colorTokens.map ThemeColorToken.name)
  | none => .ok ()

def isString : Json → Bool
  | .string _ => true
  | _ => false

def validateLiteral (spec : ComponentSpec) (prop : PropSchema) (json : Json) :
    Except UiSchemaError Unit := do
  if prop.types.any (fun t => t.accepts json) then .ok ()
  else invalidPropType s!"{spec.name}.{prop.name}" (prop.types.map JsonType.name)
  if spec.name = "Badge" ∧ prop.name = "tone" then
    checkOneOf "Badge.tone" ["neutral","info","success","warning","danger"] json
  else .ok ()
  if spec.name = "List" ∧ prop.name = "items" then
    checkArray "List.items" s!"string array with at most {maxListItems} items" maxListItems
      isString json
  else .ok ()
  if spec.name = "Sparkline" ∧ prop.name = "values" then
    checkArray "Sparkline.values" s!"number array with at most {maxChartPoints} points"
      maxChartPoints (fun item => item.asF64.isSome) json
  else .ok ()
  if spec.name = "Sparkline" ∧ prop.name = "tone" then
    checkOneOf "Sparkline.tone" ["info","success","warning","danger"] json
  else .ok ()
  if spec.name = "Grid" ∧ prop.name = "columns" then checkColumns json else .ok ()
  if spec.name = "Responsive" ∧ prop.name = "breakpoint" then checkBreakpoint json else .ok ()
  if prop.name = "colorToken" then checkColorToken spec json else .ok ()

end Floatile.UiSchema
