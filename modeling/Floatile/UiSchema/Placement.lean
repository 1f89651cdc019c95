import Floatile.UiSchema.Meets
import Floatile.UiSchema.Validate

/-! What a document promises about its whole component tree: every node below the root, through
children, branches and templates, together with the loop around it and its depth. -/
namespace Floatile.UiSchema

open Floatile.Lib
open Floatile.Core

/-- A node of a tree. The scope is the schema of the items of the innermost loop around it. -/
structure Placement where
  scope : Option JsonSchema
  depth : ℕ
  node : Component

/-- The schema of the items that a loop repeats over. -/
def loopItems (stateSchema : JsonSchema) (comp : Component) : Option JsonSchema :=
  match comp.items with
  | some (.state bind) =>
    match PathSegments.parse bind with
    | .ok path =>
      match resolve stateSchema path.segments with
      | .ok (.array _ items) => some items
      | _ => none
    | .error _ => none
  | _ => none

/-- Only the template of a ForEach has a loop of its own. -/
def templateScope (stateSchema : JsonSchema) (scope : Option JsonSchema) (comp : Component) :
    Option JsonSchema :=
  if comp.kind = "ForEach" then loopItems stateSchema comp else scope

mutual

/-- The nodes of a tree through all four links. -/
def placements (stateSchema : JsonSchema) (scope : Option JsonSchema) (depth : ℕ)
    (comp : Component) : List Placement :=
  match comp with
  | ⟨_,_,children,_,_,then_,else_,_,_,template⟩ =>
    ⟨scope,depth,comp⟩ ::
      (childPlacements stateSchema scope (depth + 1) children ++
        (branchPlacements stateSchema scope (depth + 1) then_ ++
          (branchPlacements stateSchema scope (depth + 1) else_ ++
            branchPlacements stateSchema (templateScope stateSchema scope comp) (depth + 1)
              template)))

def childPlacements (stateSchema : JsonSchema) (scope : Option JsonSchema) (depth : ℕ) :
    List Component → List Placement
  | [] => []
  | child :: children =>
    placements stateSchema scope depth child ++ childPlacements stateSchema scope depth children

def branchPlacements (stateSchema : JsonSchema) (scope : Option JsonSchema) (depth : ℕ) :
    Option Component → List Placement
  | none => []
  | some comp => placements stateSchema scope depth comp

end

mutual

/-- The nodes below a link that the kind of a node above them does not use: the template of an If
and the branches of a ForEach. -/
def strays (stateSchema : JsonSchema) (scope : Option JsonSchema) (depth : ℕ)
    (comp : Component) : List Placement :=
  match comp with
  | ⟨kind,_,children,_,_,then_,else_,_,_,template⟩ =>
    if kind = "If" then
      branchStrays stateSchema scope (depth + 1) then_ ++
        (branchStrays stateSchema scope (depth + 1) else_ ++
          branchPlacements stateSchema (templateScope stateSchema scope comp) (depth + 1) template)
    else if kind = "ForEach" then
      branchPlacements stateSchema scope (depth + 1) then_ ++
        (branchPlacements stateSchema scope (depth + 1) else_ ++
          branchStrays stateSchema (templateScope stateSchema scope comp) (depth + 1) template)
    else childStrays stateSchema scope (depth + 1) children

def childStrays (stateSchema : JsonSchema) (scope : Option JsonSchema) (depth : ℕ) :
    List Component → List Placement
  | [] => []
  | child :: children =>
    strays stateSchema scope depth child ++ childStrays stateSchema scope depth children

def branchStrays (stateSchema : JsonSchema) (scope : Option JsonSchema) (depth : ℕ) :
    Option Component → List Placement
  | none => []
  | some comp => strays stateSchema scope depth comp

end

/-- The prop may be bound to values of the schema. -/
structure Allows (kind : String) (prop : PropSchema) (target : JsonSchema) : Prop where
  binding : prop.allowBinding = true
  type : ∃ t ∈ prop.types, t.name = jsonType target
  list : kind = "List" → prop.name = "items" → isListSchema target = true
  chart : kind = "Sparkline" → prop.name = "values" → isChartSchema target = true

/-- The components that need an accessible label from minor 6 on. -/
def labelledKinds : List String := ["Toggle","Progress","Gauge"]

/-- A node fits the entry of the registry that it names. -/
structure Fits (stateSchema : JsonSchema) (uiMinor : ℕ) (p : Placement) (spec : ComponentSpec) :
    Prop where
  name : spec.name = p.node.kind
  introduced : spec.introducedMinor ≤ uiMinor
  required : ∀ prop ∈ spec.props, prop.optional = false → (p.node.props.get prop.name).isSome
  labelled : 6 ≤ uiMinor → p.node.kind ∈ labelledKinds →
    (p.node.props.get "accessibilityLabel").isSome
  bound : ∀ name binding, p.node.props.get name = some (.binding binding) →
    ∃ prop ∈ spec.props, prop.name = name ∧
      ∃ target, bindingTarget stateSchema p.scope binding = .ok target ∧
        Allows spec.name prop target

/-- A binding of a control field points to a schema of the type that the field needs. -/
def ControlBound (stateSchema : JsonSchema) (scope : Option JsonSchema) (field : Option Binding)
    (type : String) : Prop :=
  ∀ binding, field = some binding →
    ∃ target, bindingTarget stateSchema scope binding = .ok target ∧ jsonType target = type

structure Placement.Sound (env : ValidateEnv) (stateSchema : JsonSchema) (p : Placement) :
    Prop where
  depth_le : p.depth ≤ maxTreeDepth
  registered : ∃ spec ∈ components, Fits stateSchema env.uiMinor p spec
  when_bound : ControlBound stateSchema p.scope p.node.when_ "boolean"
  items_bound : ControlBound stateSchema p.scope p.node.items "array"
  emitted : ∀ input event, p.node.events.get input = some event →
    ∃ declared, env.docEvents.get event.emit = some declared ∧
      Meets declared.payload event.payload

/-- The bindings in the fields that the kind of the node does not use are sound. -/
def Placement.StrayBound (stateSchema : JsonSchema) (p : Placement) : Prop :=
  (p.node.kind = "If" → ControlBound stateSchema p.scope p.node.items "array") ∧
    (p.node.kind = "ForEach" → ControlBound stateSchema p.scope p.node.when_ "boolean")

/-- The control fields that the kind of the node does not use are empty. -/
def Component.unusedEmpty (comp : Component) : Bool :=
  if comp.kind = "If" then comp.items.isNone && comp.template.isNone
  else if comp.kind = "ForEach" then
    comp.when_.isNone && comp.then_.isNone && comp.else_.isNone
  else true

def PropValue.isBinding : PropValue → Bool
  | .binding _ => true
  | .literal _ => false

/-- What one node adds to the counts. -/
def Component.counts (comp : Component) : Counts :=
  ⟨1,comp.props.entries.countP (fun e => e.2.isBinding),if comp.kind = "Image" then 1 else 0⟩

def Counts.add (c d : Counts) : Counts :=
  ⟨c.nodes + d.nodes,c.bindings + d.bindings,c.assetRefs + d.assetRefs⟩

def tally : List Placement → Counts
  | [] => ⟨0,0,0⟩
  | p :: ps => p.node.counts.add (tally ps)

structure Counts.Within (c : Counts) : Prop where
  nodes : c.nodes ≤ maxNodes
  bindings : c.bindings ≤ maxBindings
  assetRefs : c.assetRefs ≤ maxAssetRefs

def UiDocument.placements (doc : UiDocument) : List Placement :=
  UiSchema.placements doc.state.schema none 1 doc.root

def UiDocument.strays (doc : UiDocument) : List Placement :=
  UiSchema.strays doc.state.schema none 1 doc.root

structure UiDocument.Sound (doc : UiDocument) : Prop where
  initial : Meets doc.state.schema doc.state.initial
  placed : ∃ uiMinor, checkApiVersion doc.uiApiVersion = .ok uiMinor ∧
    ∀ p ∈ doc.placements, p.Sound ⟨doc.events,uiMinor⟩ doc.state.schema
  counts : (tally doc.placements).Within

/-- What the unused control fields hold is sound and fits in the budgets of the whole tree. -/
structure UiDocument.StraysSound (doc : UiDocument) : Prop where
  placed : ∃ uiMinor, checkApiVersion doc.uiApiVersion = .ok uiMinor ∧
    ∀ p ∈ doc.strays, p.Sound ⟨doc.events,uiMinor⟩ doc.state.schema
  bound : ∀ p ∈ doc.placements, p.StrayBound doc.state.schema
  counts : (tally doc.placements).Within

def UiDocument.UnusedEmpty (doc : UiDocument) : Prop :=
  ∀ p ∈ doc.placements, p.node.unusedEmpty = true

end Floatile.UiSchema
