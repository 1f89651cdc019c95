import Floatile.UiSchema.Patch
import Floatile.UiSchema.StatePath
import Floatile.UiSchema.Validate

/-! How many items the ForEach components of a document instantiate. The validator bounds neither
the length of the arrays nor the products of nested ones. -/
namespace Floatile.UiSchema

open Floatile.Lib
open Floatile.Core

/-- The documented limit on ForEach items of an instance. -/
def maxForEachItems : ℕ := 256

section Count

variable (length : Option Binding → ℕ)

mutual

/-- The items instantiated by a tree, where an items binding has the given length. A nested
ForEach is instantiated for every item around it; both branches of an If count. -/
def expansions : Component → ℕ
  | ⟨kind,_,children,_,_,then_,else_,items,_,template⟩ =>
    if kind = "ForEach" then length items * (1 + expansionsBranch template)
    else if kind = "If" then expansionsBranch then_ + expansionsBranch else_
    else expansionsChildren children

def expansionsBranch : Option Component → ℕ
  | none => 0
  | some comp => expansions comp

def expansionsChildren : List Component → ℕ
  | [] => 0
  | child :: children => expansions child + expansionsChildren children

end

end Count

mutual

/-- The items bindings of the ForEach components of a tree. -/
def forEachItems : Component → List (Option Binding)
  | ⟨kind,_,children,_,_,then_,else_,items,_,template⟩ =>
    if kind = "ForEach" then items :: forEachItemsBranch template
    else if kind = "If" then forEachItemsBranch then_ ++ forEachItemsBranch else_
    else forEachItemsChildren children

def forEachItemsBranch : Option Component → List (Option Binding)
  | none => []
  | some comp => forEachItems comp

def forEachItemsChildren : List Component → List (Option Binding)
  | [] => []
  | child :: children => forEachItems child ++ forEachItemsChildren children

end

/-- The fields of the path that an items binding names. -/
def itemsPath : Option Binding → Option (List String)
  | some (.state bind) => (PathSegments.parse bind).toOption.map PathSegments.segments
  | _ => none

/-- The length of the array that a state has at an items binding. -/
def stateLength (state : Json) (items : Option Binding) : ℕ :=
  match (itemsPath items).bind (valueAt state) with
  | some (.array values) => values.length
  | _ => 0

/-- The length that the schema admits at an items binding. -/
def schemaLength (schema : JsonSchema) (items : Option Binding) : ℕ :=
  match (itemsPath items).bind (fun fields => (resolve schema fields).toOption) with
  | some (.array (some maxItems) _) => maxItems
  | _ => 0

/-- An items binding that points to an array schema with an explicit limit. -/
def HasMaxItems (schema : JsonSchema) (items : Option Binding) : Prop :=
  ∃ fields maxItems itemSchema, itemsPath items = some fields ∧
    resolve schema fields = .ok (.array (some maxItems) itemSchema)

mutual

theorem expansions_mono {f g : Option Binding → ℕ} (comp : Component)
    (h : ∀ items ∈ forEachItems comp, f items ≤ g items) : expansions f comp ≤ expansions g comp := by
  match comp with
  | ⟨kind,_,children,_,_,then_,else_,items,_,template⟩ =>
    rw [forEachItems] at h
    rw [expansions, expansions]
    split_ifs at h ⊢
    · obtain ⟨hitems,htemplate⟩ := List.forall_mem_cons.mp h
      have hinner := expansionsBranch_mono template htemplate
      exact Nat.mul_le_mul hitems (by omega)
    · obtain ⟨hthen,helse⟩ := List.forall_mem_append.mp h
      exact Nat.add_le_add (expansionsBranch_mono then_ hthen) (expansionsBranch_mono else_ helse)
    · exact expansionsChildren_mono children h

theorem expansionsBranch_mono {f g : Option Binding → ℕ} (branch : Option Component)
    (h : ∀ items ∈ forEachItemsBranch branch, f items ≤ g items) :
    expansionsBranch f branch ≤ expansionsBranch g branch := by
  match branch with
  | none => exact Nat.le_refl 0
  | some comp => exact expansions_mono comp h

theorem expansionsChildren_mono {f g : Option Binding → ℕ} (children : List Component)
    (h : ∀ items ∈ forEachItemsChildren children, f items ≤ g items) :
    expansionsChildren f children ≤ expansionsChildren g children := by
  match children with
  | [] => exact Nat.le_refl 0
  | child :: children =>
    obtain ⟨hchild,hrest⟩ := List.forall_mem_append.mp h
    exact Nat.add_le_add (expansions_mono child hchild) (expansionsChildren_mono children hrest)

end

/-- A conforming state keeps the limits of its schema. -/
theorem stateLength_le {schema : JsonSchema} {state : Json} {items : Option Binding}
    (hstate : Conforms schema state) (hitems : HasMaxItems schema items) :
    stateLength state items ≤ schemaLength schema items := by
  obtain ⟨fields,maxItems,itemSchema,hpath,hschema⟩ := hitems
  have hlimit : schemaLength schema items = maxItems := by
    simp [schemaLength, hpath, hschema]
  rw [hlimit, stateLength, hpath, Option.bind_some]
  cases hvalue : valueAt state fields with
  | none => exact Nat.zero_le _
  | some value =>
    cases value with
    | array values => exact (hstate.valueAt hschema hvalue).length_le
    | null | bool | number | string | object => exact Nat.zero_le _

mutual

/-- A state in which every array is as long as its schema admits; the arrays inside the items of
an array, which no path reaches, are empty. -/
def fullest : JsonSchema → Json
  | .string _ => .string ""
  | .boolean => .bool false
  | .number => .number (.posInt 0)
  | .integer => .number (.posInt 0)
  | .null => .null
  | .array maxItems items => .array (List.replicate (maxItems.getD 0) (smallest items))
  | .object _ properties _ => .object (fullestFields properties)

def fullestFields : List (String × JsonSchema) → List (String × Json)
  | [] => []
  | (key,schema) :: properties => (key,fullest schema) :: fullestFields properties

def smallest : JsonSchema → Json
  | .string _ => .string ""
  | .boolean => .bool false
  | .number => .number (.posInt 0)
  | .integer => .number (.posInt 0)
  | .null => .null
  | .array _ _ => .array []
  | .object _ properties _ => .object (smallestFields properties)

def smallestFields : List (String × JsonSchema) → List (String × Json)
  | [] => []
  | (key,schema) :: properties => (key,smallest schema) :: smallestFields properties

end

theorem fullestFields_eq (properties : List (String × JsonSchema)) :
    fullestFields properties = SortedMap.mapValues fullest properties := by
  induction properties with
  | nil => rfl
  | cons e properties ih =>
    obtain ⟨key,schema⟩ := e
    rw [fullestFields, ih]
    rfl

/-- The fullest state has every declared field. -/
theorem valueAt_fullest {schema sub : JsonSchema} {fields : List String}
    (h : resolve schema fields = .ok sub) : valueAt (fullest schema) fields = some (fullest sub) := by
  induction fields generalizing schema with
  | nil =>
    obtain rfl := Except.ok.inj h
    rfl
  | cons field fields ih =>
    cases schema with
    | object required properties additional =>
      rw [resolve] at h
      cases hsub : SortedMap.find field properties with
      | none =>
        rw [hsub] at h
        cases additional <;> cases h
      | some next =>
        rw [hsub] at h
        have hfield : (fullest (.object required properties additional)).asObject.bind
            (SortedMap.find field) = some (fullest next) := by
          rw [fullest, Json.asObject, Option.bind_some, fullestFields_eq,
            SortedMap.find_mapValues, hsub, Option.map_some]
        rw [valueAt, hfield]
        exact ih h
    | string | boolean | number | integer | null | array => cases h

theorem stateLength_fullest {schema : JsonSchema} {items : Option Binding}
    (h : HasMaxItems schema items) :
    stateLength (fullest schema) items = schemaLength schema items := by
  obtain ⟨fields,maxItems,itemSchema,hpath,hschema⟩ := h
  simp [stateLength, schemaLength, hpath, hschema, valueAt_fullest hschema, fullest]

section Bound

variable (toVec : Json → Option (List UInt8)) (doc : UiDocument)

/-- A state that the host takes: it conforms to the schema and is not too large. -/
def AcceptsState (state : Json) : Prop :=
  validateValue doc.state.schema state "$" 0 = .ok () ∧
    ∃ bytes, toVec state = some bytes ∧ bytes.length ≤ maxStateBytes

/-- No accepted state instantiates more items than documented, and every ForEach is bound to an
array with an explicit limit. -/
def ForEachBounded : Prop :=
  (∀ state, AcceptsState toVec doc state →
    expansions (stateLength state) doc.root ≤ maxForEachItems) ∧
  ∀ items ∈ forEachItems doc.root, HasMaxItems doc.state.schema items

/-- Every ForEach is bound to an array with an explicit limit, and the limits themselves, nested
ones multiplied, keep the documented one. -/
def Budgeted : Prop :=
  (∀ items ∈ forEachItems doc.root, HasMaxItems doc.state.schema items) ∧
    expansions (schemaLength doc.state.schema) doc.root ≤ maxForEachItems

/-- A document within the budget is bounded. Conversely a bounded document is within the budget
when the host takes the state that fills all arrays. -/
theorem forEachBounded_of_budgeted :
    (Budgeted doc → ForEachBounded toVec doc) ∧
    (AcceptsState toVec doc (fullest doc.state.schema) →
      (ForEachBounded toVec doc ↔ Budgeted doc)) := by
  have hsufficient : Budgeted doc → ForEachBounded toVec doc := by
    rintro ⟨hmax,hbudget⟩
    refine ⟨fun state hstate => ?_,hmax⟩
    have hconforms : Conforms doc.state.schema state := ⟨_,_,hstate.1⟩
    have hle := expansions_mono doc.root fun items hitems =>
      stateLength_le hconforms (hmax items hitems)
    exact hle.trans hbudget
  refine ⟨hsufficient,fun hfullest => ⟨?_,hsufficient⟩⟩
  rintro ⟨hbounded,hmax⟩
  have hle := expansions_mono doc.root fun items hitems =>
    (stateLength_fullest (hmax items hitems)).ge
  exact ⟨hmax,hle.trans (hbounded _ hfullest)⟩

end Bound

/-- A node with no more than a kind. -/
def plainComponent (kind : String) : Component where
  kind := kind
  props := OrdMap.empty
  children := []
  events := OrdMap.empty
  when_ := none
  then_ := none
  else_ := none
  items := none
  key := none
  template := none

def zoneText : Component :=
  { plainComponent "Text" with
    props := OrdMap.ofList [("text",.binding (.item "value"))] }

def forEachZone (template : Component) : Component :=
  { plainComponent "ForEach" with
    items := some (.state "$.zones")
    key := some "value"
    template := some template }

def zonesSchema (maxItems : ℕ) : JsonSchema :=
  .object [] [("zones",.array (some maxItems) (.string none))] false

/-- A document with a list of zones. -/
def zonesDocument (maxItems : ℕ) (root : Component) : UiDocument where
  uiApiVersion := "1.0.0"
  state := ⟨.object [("zones",.array [])],zonesSchema maxItems⟩
  events := OrdMap.empty
  root := root

/-- The length of the documents that show the zones once and for every zone, with a limit of two
digits. -/
def zonesBytes (doc : UiDocument) : Except String ℕ :=
  .ok (if expansions (fun _ => 1) doc.root = 1 then 349 else 420)

/-- The JSON library on a list of empty texts. -/
def writeZones : Json → Option (List UInt8)
  | .object [("zones",.array zones)] =>
    some (("\x7b\"zones\":[" ++ ",".intercalate (zones.map (fun _ => "\"\"")) ++
      "]\x7d").toList.map (fun c => c.val.toUInt8))
  | _ => none

/-- Each zone with a loop over the zones. -/
def zonesForEachZone : Component := forEachZone (forEachZone zoneText)

def fullZones : Json := .object [("zones",.array (List.replicate 16 (.string "")))]

/-- Fifteen zones, each with a loop over the zones again. -/
theorem nestedLoop_bounded :
    validateDocument zonesBytes (zonesDocument 15 zonesForEachZone) = .ok () ∧
    expansions (stateLength (fullest (zonesSchema 15))) zonesForEachZone = 240 ∧
    ForEachBounded writeZones (zonesDocument 15 zonesForEachZone) := by
  have hmax : HasMaxItems (zonesSchema 15) (some (.state "$.zones")) :=
    ⟨["zones"],15,.string none,by rfl,by rfl⟩
  have hbudgeted : Budgeted (zonesDocument 15 zonesForEachZone) := by
    refine ⟨?_,by decide⟩
    intro items hitems
    have hboth : items = some (.state "$.zones") := by
      simpa [zonesDocument, zonesForEachZone, forEachZone, zoneText, plainComponent, forEachItems,
        forEachItemsBranch, forEachItemsChildren] using hitems
    exact hboth ▸ hmax
  have hfullest : AcceptsState writeZones (zonesDocument 15 zonesForEachZone)
      (fullest (zonesSchema 15)) := ⟨by rfl,_,rfl,by decide⟩
  exact ⟨by rfl,by rfl,((forEachBounded_of_budgeted writeZones _).2 hfullest).mpr hbudgeted⟩

/-- Sixteen zones, each with a loop over the zones again. -/
theorem nestedLoop_unbounded :
    validateDocument zonesBytes (zonesDocument 16 zonesForEachZone) = .ok () ∧
    AcceptsState writeZones (zonesDocument 16 zonesForEachZone) fullZones ∧
    expansions (stateLength fullZones) zonesForEachZone = 272 ∧
    ¬ForEachBounded writeZones (zonesDocument 16 zonesForEachZone) := by
  have hcount : expansions (stateLength fullZones) zonesForEachZone = 272 := by
    rfl
  have hstate : AcceptsState writeZones (zonesDocument 16 zonesForEachZone) fullZones :=
    ⟨by rfl,_,rfl,by decide⟩
  refine ⟨by rfl,hstate,hcount,?_⟩
  rintro ⟨hbounded,-⟩
  have hle := hbounded fullZones hstate
  change expansions (stateLength fullZones) zonesForEachZone ≤ 256 at hle
  omega

end Floatile.UiSchema
