import Floatile.Renderer.Markup
import Floatile.UiSchema.Validate

/-! The generation of the source of a document: every component is expanded in document order, and
the state paths and events that it binds are registered. -/
namespace Floatile.Renderer

open Floatile.Lib
open Floatile.Lib.Checked (reject)
open Floatile.Core
open Floatile.UiSchema

inductive RendererError where
  | invalidIr (error : UiSchemaError)
  | budgetExceeded (detail : String)
  | unsupportedComponent (component detail : String)
  | bindingError (detail : String)
  | encodeError (detail : String)
  deriving DecidableEq, Repr

def RendererError.code : RendererError → String
  | .invalidIr _ => "RNDR_INVALID_IR"
  | .budgetExceeded _ => "RNDR_BUDGET_EXCEEDED"
  | .unsupportedComponent _ _ => "RNDR_UNSUPPORTED_COMPONENT"
  | .bindingError _ => "RNDR_BINDING_ERROR"
  | .encodeError _ => "RNDR_ENCODE_ERROR"

def bindingError {α : Type} (detail : String) : Except RendererError α :=
  .error (.bindingError detail)

/-- The parts of the JSON library that the renderer uses: the length of a serialised document and
the text of a value. -/
structure JsonLib where
  irBytes : UiDocument → Except String ℕ
  display : Json → String

/-- What has been generated so far. -/
structure Ctx where
  bindings : OrdMap String BindingSlot
  events : OrdMap String EventSlot
  nodes : ℕ
  callbackCounter : ℕ
  uiMinor : ℕ

def trimRoot : List Char → List Char
  | '$' :: '.' :: rest => trimRoot rest
  | cs => cs

/-- The name of a path: its fields with underscores between them. -/
def pathPropName (bind : String) : String :=
  let segments :=
    match PathSegments.parse bind with
    | .ok path => "_".intercalate path.segments
    | .error _ => String.ofList ((trimRoot bind.toList).map
        (fun c => if c = '.' ∨ c = ' ' ∨ c = '-' ∨ c = '[' then '_' else c))
  if segments.isEmpty then "state" else segments

/-- A state path is registered once; later uses must agree on the projection type. -/
def bindingSlot (bind : String) (valueType : BindingValueType) (ctx : Ctx) :
    Except RendererError (BindingSlot × Ctx) := do
  let _ ← (PathSegments.parse bind).mapError
    (fun e => RendererError.bindingError s!"{bind}: {e.display}")
  match ctx.bindings.get bind with
  | some slot => do
    reject (slot.valueType ≠ valueType) (.bindingError s!"{bind} 被用于不兼容的投影类型")
    .ok (slot,ctx)
  | none => do
    reject (maxBindings ≤ ctx.bindings.entries.length)
      (.budgetExceeded s!"绑定数超过 renderer 上限 {maxBindings}")
    let slot : BindingSlot := ⟨bind,"prop_" ++ pathPropName bind,valueType⟩
    .ok (slot,{ ctx with bindings := ctx.bindings.insert bind slot })

/-- An emitted event is registered once, with the next callback. -/
def eventCallback (comp : Component) (ctx : Ctx) (inputEvent : String) :
    Except RendererError (EventSlot × Ctx) :=
  match comp.events.get inputEvent with
  | none => bindingError s!"组件 {comp.kind} 未声明输入事件 `{inputEvent}`"
  | some emitted =>
    match ctx.events.get emitted.emit with
    | some slot => .ok (slot,ctx)
    | none =>
      let slot : EventSlot := ⟨emitted.emit,"emit_" ++ toString ctx.callbackCounter⟩
      .ok (slot,{ ctx with
        events := ctx.events.insert slot.event slot
        callbackCounter := ctx.callbackCounter + 1 })

/-- At least four upper case digits. -/
def hexText (n : ℕ) : String :=
  let digits := (Nat.toDigits 16 n).map Char.toUpper
  String.ofList (List.replicate (4 - digits.length) '0' ++ digits)

def encodeChar (c : Char) : Except RendererError (List Char) :=
  if c = '"' then .ok ['\\','"']
  else if c = '\\' then .ok ['\\','\\']
  else if c = '\n' then .ok ['\\','n']
  else if c = '\r' then .ok ['\\','r']
  else if c = '\t' then .ok ['\\','t']
  else if Text.isControl c then
    .error (.encodeError s!"字符串含控件字符 U+{hexText c.toNat},拒绝嵌入 Slint 文本")
  else .ok [c]

def encodeString (s : String) : Except RendererError Piece := do
  let encoded ← s.toList.mapM encodeChar
  .ok (.quoted (String.ofList ('"' :: encoded.flatten ++ ['"'])))

def colorLiteral (s : String) : Except RendererError Piece :=
  let s := Text.trim s
  if Text.startsWith s "#" ∧ (Text.byteLen s = 4 ∨ Text.byteLen s = 7 ∨ Text.byteLen s = 9) ∧
      (s.toList.drop 1).all Text.isAsciiHexDigit then .ok (.color s)
  else .error (.encodeError s!"颜色 `{s}` 不是受限 #RRGGBB[AA] 字面量")

section Library

variable (lib : JsonLib)

def valueToString : Json → Except RendererError String
  | .string s => .ok s
  | .null => .ok ""
  | other => .error (.encodeError s!"prop 字面量不支持非字符串值 {lib.display other}")

/-- The text of a prop: a property of the root, the item of a loop or a literal. -/
def renderStringProp (comp : Component) (prop : String) (ctx : Ctx) :
    Except RendererError (List Piece × Ctx) :=
  match comp.props.get prop with
  | some (.binding (.state bind)) => do
    let (slot,ctx) ← bindingSlot bind .string ctx
    .ok ([.host "root.",.prop slot],ctx)
  | some (.binding (.item item)) => .ok ([.raw item],ctx)
  | some (.literal value) => do
    let text ← valueToString lib value
    let literal ← encodeString text
    .ok ([literal],ctx)
  | none => bindingError s!"{comp.kind} 缺少 {prop} prop"

def literalF64 (comp : Component) (prop : String) : Option Float :=
  match comp.props.get prop with
  | some (.literal value) => value.asF64
  | _ => none

def literalStr (comp : Component) (prop : String) : Option String :=
  match comp.props.get prop with
  | some (.literal value) => value.asStr
  | _ => none

def textColor (comp : Component) : Except RendererError (List Piece) :=
  match literalStr comp "colorToken" with
  | some token =>
    match colorToken token with
    | some color => .ok [.host ("        color: " ++ color.value ++ ";\n")]
    | none => .error (.encodeError s!"未知宿主主题 token `{token}`")
  | none =>
    match literalStr comp "color" with
    | some color => do
      let literal ← colorLiteral color
      .ok [.host "        color: ",literal,.host ";\n"]
    | none => .ok []

def textStyleProps (comp : Component) : Except RendererError (List Piece) := do
  let color ← textColor comp
  match literalF64 comp "opacity" with
  | some opacity => .ok (color ++ [.host "        opacity: ",.number opacity,.host ";\n"])
  | none => .ok color

def renderText (comp : Component) (ctx : Ctx) : Except RendererError (List Piece × Ctx) := do
  let (text,ctx) ← renderStringProp lib comp "text" ctx
  let style ← textStyleProps comp
  .ok ([.host "    Text \x7b\n        text: "] ++ text ++ [.host ";\n"] ++ style ++
    [.host "    \x7d\n"],ctx)

def renderButton (comp : Component) (ctx : Ctx) : Except RendererError (List Piece × Ctx) := do
  let (label,ctx) ← renderStringProp lib comp "label" ctx
  let (callback,ctx) ← eventCallback comp ctx "activate"
  .ok ([.host "    TouchArea \x7b\n        accessible-role: button;\n        accessible-label: "] ++
    label ++ [.host (";\n        Rectangle \x7b\n            border-radius: 4px;\n" ++
      "            background: #2a2f3a;\n            Text \x7b\n                text: ")] ++
    label ++ [.host (";\n                color: white;\n" ++
      "                horizontal-alignment: center;\n" ++
      "                vertical-alignment: center;\n            \x7d\n        \x7d\n" ++
      "        clicked => \x7b root."),.callback callback,.host "(); \x7d\n    \x7d\n"],ctx)

/-- Before the minor version 6 a missing label is the kind of the component. -/
def renderAccessibilityLabel (comp : Component) (ctx : Ctx) :
    Except RendererError (List Piece × Ctx) :=
  if ctx.uiMinor < 6 ∧ (comp.props.get "accessibilityLabel").isNone then do
    let literal ← encodeString comp.kind
    .ok ([literal],ctx)
  else renderStringProp lib comp "accessibilityLabel" ctx

def toggleChecked (comp : Component) (ctx : Ctx) : Except RendererError (List Piece × Ctx) :=
  match comp.props.get "checked" with
  | some (.binding (.state bind)) => do
    let (slot,ctx) ← bindingSlot bind .boolean ctx
    .ok ([.host "root.",.prop slot],ctx)
  | some (.binding (.item item)) => .ok ([.raw item],ctx)
  | some (.literal value) =>
    match value.asBool with
    | some checked => .ok ([.host (toString checked)],ctx)
    | none => bindingError "Toggle checked 必须是布尔值"
  | none => bindingError "Toggle 缺少 checked prop"

def tied (checked : List Piece) : List Piece :=
  [.host "(if "] ++ checked ++ [.host " ? #3a7dff : #2a2f3a)"]

def renderToggle (comp : Component) (ctx : Ctx) : Except RendererError (List Piece × Ctx) := do
  let (checked,ctx) ← toggleChecked comp ctx
  let (label,ctx) ← renderAccessibilityLabel lib comp ctx
  let (callback,ctx) ← eventCallback comp ctx "toggle"
  .ok ([.host "    TouchArea \x7b\n        accessible-role: switch;\n        accessible-label: "] ++
    label ++ [.host ";\n        accessible-checked: "] ++ checked ++
    [.host (";\n        Rectangle \x7b\n            border-radius: 2px;\n" ++
      "            border-width: 1px;\n            border-color: #4a90e2;\n" ++
      "            background: ")] ++ tied checked ++
    [.host ";\n        \x7d\n        clicked => \x7b root.",.callback callback,
      .host "(); \x7d\n    \x7d\n"],ctx)

/-- The bounds of a number; `nan` stays. -/
def clampF64 (x min max : Float) : Float := if x < min then min else if max < x then max else x

def meterValue (comp : Component) (ctx : Ctx) : Except RendererError (List Piece × Ctx) :=
  match comp.props.get "value" with
  | some (.binding (.state bind)) => do
    let (slot,ctx) ← bindingSlot bind .number ctx
    .ok ([.host "(root.",.prop slot,.host " < 0 ? 0 : (root.",.prop slot,
      .host " > 100 ? 100 : root.",.prop slot,.host "))"],ctx)
  | some (.binding (.item _)) => bindingError "meter 不支持 ForEach item 绑定"
  | some (.literal value) =>
    match value.asF64 with
    | some f => .ok ([.number (clampF64 f 0 100)],ctx)
    | none => bindingError "meter value 必须是数字"
  | none => bindingError "meter 缺少 value prop"

def renderMeter (comp : Component) (ctx : Ctx) : Except RendererError (List Piece × Ctx) := do
  let (value,ctx) ← meterValue comp ctx
  let (label,ctx) ← renderAccessibilityLabel lib comp ctx
  .ok ([.host ("    Rectangle \x7b\n        accessible-role: progress-indicator;\n" ++
      "        accessible-label: ")] ++ label ++
    [.host ";\n        accessible-value: "] ++ value ++
    [.host (";\n        accessible-value-minimum: 0;\n        accessible-value-maximum: 100;\n" ++
      "        border-radius: 2px;\n        background: #2a2f3a;\n        width: 100%;\n" ++
      "        height: 8px;\n        Rectangle \x7b\n            border-radius: 2px;\n" ++
      "            background: #4a90e2;\n            width: parent.width * (")] ++ value ++
    [.host " / 100);\n            height: 8px;\n        \x7d\n    \x7d\n"],ctx)

def badgeTone (comp : Component) : Except RendererError String :=
  match comp.props.get "tone" with
  | none => .ok "neutral"
  | some (.literal value) =>
    match value.asStr with
    | some tone => .ok tone
    | none => bindingError "Badge tone 必须是字符串"
  | some (.binding _) => bindingError "Badge tone 不允许运行时绑定"

def badgeBackground (tone : String) : Except RendererError String :=
  if tone = "neutral" then .ok "#3b4351"
  else if tone = "info" then .ok "#245ea8"
  else if tone = "success" then .ok "#247a45"
  else if tone = "warning" then .ok "#8a6418"
  else if tone = "danger" then .ok "#9b3030"
  else .error (.encodeError s!"Badge tone `{tone}` 不在允许集合")

def renderBadge (comp : Component) (ctx : Ctx) : Except RendererError (List Piece × Ctx) := do
  let (label,ctx) ← renderStringProp lib comp "label" ctx
  let tone ← badgeTone comp
  let background ← badgeBackground tone
  .ok ([.host ("    Rectangle \x7b\n        border-radius: 8px;\n        background: " ++
      background ++ ";\n        height: 20px;\n        Text \x7b\n            text: ")] ++ label ++
    [.host (";\n            color: white;\n            horizontal-alignment: center;\n" ++
      "            vertical-alignment: center;\n        \x7d\n    \x7d\n")],ctx)

def sparklineLabel (comp : Component) (ctx : Ctx) : Except RendererError (List Piece × Ctx) :=
  match comp.props.get "label" with
  | some (.binding (.state bind)) => do
    let (slot,ctx) ← bindingSlot bind .string ctx
    .ok ([.host "root.",.prop slot],ctx)
  | some (.literal value) =>
    match value.asStr with
    | some label => do
      let literal ← encodeString label
      .ok ([literal],ctx)
    | none => bindingError "Sparkline.label 必须是 string"
  | _ => bindingError "Sparkline 缺少 label prop"

def sparklineColor (comp : Component) : Except RendererError String :=
  match comp.props.get "tone" with
  | none => .ok "#2f6feb"
  | some (.literal value) =>
    match value.asStr with
    | none => .ok "#2f6feb"
    | some tone =>
      if tone = "success" then .ok "#247a45"
      else if tone = "warning" then .ok "#a86600"
      else if tone = "danger" then .ok "#a33a3a"
      else if tone = "info" then .ok "#2f6feb"
      else bindingError s!"Sparkline.tone 不支持 `{tone}`"
  | some (.binding _) => bindingError "Sparkline.tone 不允许绑定"

def sparklineBar (color : String) (value : Json) : Except RendererError (List Piece) :=
  match value.asF64 with
  | some value => .ok [.host "        Rectangle \x7b width: 4px; height: parent.height * ",
      .number (clampF64 value 0 100),.host (" / 100; background: " ++ color ++ "; \x7d\n")]
  | none => bindingError "Sparkline.values 必须是 number array"

def sparklineBars (comp : Component) (color : String) (ctx : Ctx) :
    Except RendererError (List Piece × Ctx) :=
  match comp.props.get "values" with
  | some (.binding (.state bind)) => do
    let (slot,ctx) ← bindingSlot bind .numberList ctx
    .ok ([.host "        for value in root.",.prop slot,
      .host (": Rectangle \x7b\n            width: 4px;\n            height: parent.height * " ++
        "((value < 0 ? 0 : (value > 100 ? 100 : value)) / 100);\n            background: " ++
        color ++ ";\n        \x7d\n")],ctx)
  | some (.literal value) =>
    match value.asArray with
    | some values => do
      let bars ← values.mapM (sparklineBar color)
      .ok (bars.flatten,ctx)
    | none => bindingError "Sparkline.values 必须是 number array"
  | _ => bindingError "Sparkline.values 缺少受支持的值"

def renderSparkline (comp : Component) (ctx : Ctx) : Except RendererError (List Piece × Ctx) := do
  let (label,ctx) ← sparklineLabel comp ctx
  let color ← sparklineColor comp
  let (bars,ctx) ← sparklineBars comp color ctx
  .ok ([.host ("Rectangle \x7b\n    height: 48px;\n    accessible-role: image;\n" ++
      "    accessible-label: ")] ++ label ++
    [.host ";\n    HorizontalLayout \x7b\n        spacing: 2px;\n        alignment: end;\n"] ++ bars ++
    [.host "    \x7d\n\x7d\n"],ctx)

def listItem (item : Json) : Except RendererError (List Piece) :=
  match item.asStr with
  | some text => do
    let literal ← encodeString text
    .ok [.host "    Text \x7b text: ",literal,.host "; \x7d\n"]
  | none => bindingError "List.items 必须是字符串数组"

/-- The list whose items are a prop. -/
def renderListItems (comp : Component) (items : PropValue) (ctx : Ctx) :
    Except RendererError (List Piece × Ctx) := do
  reject (!comp.children.isEmpty) (.bindingError "List 使用 items 时不能同时声明静态 children")
  match items with
  | .binding (.state bind) => do
    let (slot,ctx) ← bindingSlot bind .stringList ctx
    .ok ([.host "VerticalLayout \x7b\n    for item in root.",.prop slot,
      .host ": Text \x7b text: item; \x7d\n\x7d\n"],ctx)
  | .binding (.item _) => bindingError "List.items 不支持 ForEach item 绑定"
  | .literal value =>
    match value.asArray with
    | some values => do
      let children ← values.mapM listItem
      .ok ([.host "VerticalLayout \x7b\n"] ++ children.flatten ++ [.host "\x7d\n"],ctx)
    | none => bindingError "List.items 必须是字符串数组"

def pxProp (comp : Component) (prop target : String) : List Piece :=
  match literalF64 comp prop with
  | some px => [.host ("    " ++ target ++ ": "),.number px,.host "px;\n"]
  | none => []

def renderLayoutProps (comp : Component) : List Piece :=
  pxProp comp "padding" "padding" ++ pxProp comp "gap" "spacing"

/-- The children with a line break after each. -/
def layoutChildren (children : List (List Markup)) : List Markup :=
  children.flatMap (fun child => child ++ [.text [.host "\n"]])

def layoutBlock (comp : Component) (layout : String) (children : List (List Markup)) : Markup :=
  .block comp ([.text ([.host (layout ++ " \x7b\n")] ++ renderLayoutProps comp)] ++
    layoutChildren children ++ [.text [.host "\x7d\n"]])

/-- The rows of a grid; the last one may be shorter. -/
def chunksFrom {α : Type} (columns : ℕ) (row : List α) : List α → List (List α)
  | [] => if row.isEmpty then [] else [row]
  | x :: xs =>
    if row.length + 1 = columns then (row ++ [x]) :: chunksFrom columns [] xs
    else chunksFrom columns (row ++ [x]) xs

def gridColumns (comp : Component) : ℕ :=
  match comp.props.get "columns" with
  | some (.literal value) => value.asU64.getD 1
  | _ => 1

def gridBlock (comp : Component) (children : List (List Markup)) : Markup :=
  .block comp ([.text ([.host "GridLayout \x7b\n"] ++ renderLayoutProps comp)] ++
    (chunksFrom (gridColumns comp) [] children).map (fun row => .row row.flatten) ++
    [.text [.host "\x7d\n"]])

/-- The narrow and the wide form of the same children. -/
def responsiveBlocks (comp : Component) (breakpoint : Float) (children : List (List Markup)) :
    List Markup :=
  [.guard (.below breakpoint),layoutBlock comp "VerticalLayout" children,
   .guard (.atLeast breakpoint),layoutBlock comp "HorizontalLayout" children]

def itemKey (comp : Component) : Except RendererError (List Piece) :=
  match comp.key with
  | some key => if key.isEmpty then bindingError "ForEach key 不能为空" else .ok [.raw key]
  | none => .ok [.host "item"]

def loopBlock (comp : Component) (key : List Piece) (slot : BindingSlot) (template : List Markup) :
    Markup :=
  .block comp ([.text ([.host "for item["] ++ key ++
    [.host "] in root.",.prop slot,.host ": \x7b\n"])] ++ template ++ [.text [.host "\x7d\n"]])

/-- The budgets that are checked at every node. -/
def enterNode (ctx : Ctx) (depth : ℕ) : Except RendererError Ctx := do
  reject (maxTreeDepth < depth)
    (.budgetExceeded s!"组件树深度 {depth} 超过 renderer 上限 {maxTreeDepth}")
  let ctx := { ctx with nodes := ctx.nodes + 1 }
  reject (maxNodes < ctx.nodes)
    (.budgetExceeded s!"组件节点数 {ctx.nodes} 超过 renderer 上限 {maxNodes}")
  reject (maxBindings < ctx.bindings.entries.length)
    (.budgetExceeded s!"绑定数 {ctx.bindings.entries.length} 超过 renderer 上限 {maxBindings}")
  .ok ctx

/-- A leaf as a node of the tree. -/
def asLeaf (comp : Component) (rendered : Except RendererError (List Piece × Ctx)) :
    Except RendererError (List Markup × Ctx) := do
  let (pieces,ctx) ← rendered
  .ok ([.leaf comp pieces],ctx)

/-- The components without nodes of their own below. -/
def renderLeaf (comp : Component) (ctx : Ctx) : Except RendererError (List Piece × Ctx) :=
  if comp.kind = "Sparkline" then renderSparkline comp ctx
  else if comp.kind = "Text" then renderText lib comp ctx
  else if comp.kind = "Button" then renderButton lib comp ctx
  else if comp.kind = "Toggle" then renderToggle lib comp ctx
  else if comp.kind = "Progress" then renderMeter lib comp ctx
  else if comp.kind = "Badge" then renderBadge lib comp ctx
  else if comp.kind = "Gauge" then renderMeter lib comp ctx
  else .error (.unsupportedComponent comp.kind "renderer 暂不映射该组件;请移除或等待后续切片")

section Below

-- the nodes below a component are rendered by an argument
variable (comp : Component) (children : Ctx → Except RendererError (List (List Markup) × Ctx))

def renderLayout (layout : String) (ctx : Ctx) : Except RendererError (List Markup × Ctx) := do
  let (inner,ctx) ← children ctx
  .ok ([layoutBlock comp layout inner],ctx)

def renderGrid (ctx : Ctx) : Except RendererError (List Markup × Ctx) := do
  let (inner,ctx) ← children ctx
  .ok ([gridBlock comp inner],ctx)

def renderResponsive (ctx : Ctx) : Except RendererError (List Markup × Ctx) :=
  match literalF64 comp "breakpoint" with
  | none => bindingError "Responsive 缺少 breakpoint"
  | some breakpoint => do
    let (inner,ctx) ← children ctx
    .ok (responsiveBlocks comp breakpoint inner,ctx)

def renderList (ctx : Ctx) : Except RendererError (List Markup × Ctx) :=
  match comp.props.get "items" with
  | none => renderLayout comp children "VerticalLayout" ctx
  | some items => asLeaf comp (renderListItems comp items ctx)

variable (then_ else_ template : Ctx → Except RendererError (Option (List Markup) × Ctx))

def renderIf (ctx : Ctx) : Except RendererError (List Markup × Ctx) :=
  match comp.when_ with
  | some (.state bind) => do
    let (slot,ctx) ← bindingSlot bind .boolean ctx
    let (shown,ctx) ← then_ ctx
    match shown with
    | none => bindingError "If 缺少 then 分支"
    | some shown => do
      let (hidden,ctx) ← else_ ctx
      match hidden with
      | none => .ok (.guard (.isTrue slot) :: shown,ctx)
      | some hidden => .ok (.guard (.isTrue slot) :: shown ++ .guard (.isFalse slot) :: hidden,ctx)
  | _ => bindingError "If 缺少 when 布尔 State 绑定"

def renderForeach (ctx : Ctx) : Except RendererError (List Markup × Ctx) :=
  match comp.items with
  | some (.state bind) => do
    let (slot,ctx) ← bindingSlot bind .string ctx
    let (inner,ctx) ← template ctx
    match inner with
    | none => bindingError "ForEach 缺少 template"
    | some inner => do
      let key ← itemKey comp
      .ok ([loopBlock comp key slot inner],ctx)
  | _ => bindingError "ForEach 缺少 items 数组 State 绑定"

end Below

mutual

def renderNode (comp : Component) (ctx : Ctx) (depth : ℕ) :
    Except RendererError (List Markup × Ctx) :=
  match comp with
  | ⟨kind,_,children,_,_,then_,else_,_,_,template⟩ => do
    let ctx ← enterNode ctx depth
    let children := fun ctx => renderChildren children ctx (depth + 1)
    if kind = "Column" then renderLayout comp children "VerticalLayout" ctx
    else if kind = "Row" then renderLayout comp children "HorizontalLayout" ctx
    else if kind = "Stack" then renderLayout comp children "StackLayout" ctx
    else if kind = "Grid" then renderGrid comp children ctx
    else if kind = "Responsive" then renderResponsive comp children ctx
    else if kind = "List" then renderList comp children ctx
    else if kind = "If" then
      renderIf comp (fun ctx => renderBranch then_ ctx (depth + 1))
        (fun ctx => renderBranch else_ ctx (depth + 1)) ctx
    else if kind = "ForEach" then
      renderForeach comp (fun ctx => renderBranch template ctx (depth + 1)) ctx
    else asLeaf comp (renderLeaf lib comp ctx)

def renderChildren (children : List Component) (ctx : Ctx) (depth : ℕ) :
    Except RendererError (List (List Markup) × Ctx) :=
  match children with
  | [] => .ok ([],ctx)
  | child :: children => do
    let (first,ctx) ← renderNode child ctx depth
    let (rest,ctx) ← renderChildren children ctx depth
    .ok (first :: rest,ctx)

def renderBranch (branch : Option Component) (ctx : Ctx) (depth : ℕ) :
    Except RendererError (Option (List Markup) × Ctx) :=
  match branch with
  | none => .ok (none,ctx)
  | some comp => do
    let (rendered,ctx) ← renderNode comp ctx depth
    .ok (some rendered,ctx)

end

/-- The type of a projected property and its value before the first projection. -/
def slotType : BindingValueType → String × Piece
  | .string => ("string",.quoted "\"\"")
  | .boolean => ("bool",.host "false")
  | .number => ("float",.host "0")
  | .stringList => ("[string]",.host "[]")
  | .numberList => ("[float]",.host "[]")

def slotDeclaration (slot : BindingSlot) : List Piece :=
  [.host ("    in property <" ++ (slotType slot.valueType).1 ++ "> "),.prop slot,.host ": ",
    (slotType slot.valueType).2,.host ";\n"]

def callbackDeclaration (slot : EventSlot) : List Piece :=
  [.host "    callback ",.callback slot,.host ";\n"]

def wrapComponent (body : List Markup) (bindings : List BindingSlot) (callbacks : List EventSlot) :
    List Markup :=
  [.text ([.host "// 由 floatile-renderer 生成;宿主控制,勿手编。\n",
      .host "export component ClockPluginUI inherits Rectangle \x7b\n"] ++
    bindings.flatMap slotDeclaration ++ callbacks.flatMap callbackDeclaration ++
    [.host "    background: transparent;\n"])] ++ body ++ [.text [.host "\x7d\n"]]

structure RenderedComponent where
  markup : List Markup
  bindings : List BindingSlot
  events : List EventSlot

def RenderedComponent.source (r : RenderedComponent) : String := textOf r.markup

/-- The minor version as the renderer reads it. -/
def minorOf (uiApiVersion : String) : ℕ :=
  ((Text.splitChar uiApiVersion '.')[1]?.bind Text.parseU64).getD 0

def startCtx (doc : UiDocument) : Ctx := ⟨OrdMap.empty,OrdMap.empty,0,0,minorOf doc.uiApiVersion⟩

/-- The document is validated again before it is expanded. -/
def renderComponent (doc : UiDocument) : Except RendererError RenderedComponent := do
  let _ ← (validateDocument lib.irBytes doc).mapError RendererError.invalidIr
  let (body,ctx) ← renderNode lib doc.root (startCtx doc) 0
  let bindings := ctx.bindings.entries.map Prod.snd
  let events := ctx.events.entries.map Prod.snd
  .ok ⟨wrapComponent body bindings events,bindings,events⟩

end Library

end Floatile.Renderer
