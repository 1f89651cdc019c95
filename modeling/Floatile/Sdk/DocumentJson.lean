import Floatile.UiSchema.DocumentSound
import Floatile.UiSchema.Wire

/-! The JSON document that the Rust SDK writes for a widget, and what the host reads from its value. -/
namespace Floatile.Sdk

open Floatile.Core
open Floatile.Lib
open Floatile.Lib.Checked (reject bind_eq_ok check_bind_eq_ok reject_eq_ok)
open Floatile.UiSchema
open Floatile.UiSchema.Wire

/-- The fields that are there, in key order. -/
def record : List (String × Option Json) → List (String × Json)
  | [] => []
  | (key,some value) :: fields => SortedMap.insert key value (record fields)
  | (_,none) :: fields => record fields

/-- A field that is left out when there is nothing in it. -/
def unlessEmpty {α : Type} (items : List α) (value : Json) : Option Json :=
  if items.isEmpty then none else some value

def writeUsize (n : ℕ) : Json := .number (.posInt (UInt64.ofNat n))

def writeMap {α : Type} (write : α → Json) (entries : List (String × α)) : Json :=
  .object (SortedMap.mapValues write entries)

mutual

def writeSchema : JsonSchema → Json
  | .string maxLength =>
    .object (record [("type",some (.string "string")),("max_length",maxLength.map writeUsize)])
  | .boolean => .object (record [("type",some (.string "boolean"))])
  | .number => .object (record [("type",some (.string "number"))])
  | .integer => .object (record [("type",some (.string "integer"))])
  | .null => .object (record [("type",some (.string "null"))])
  | .array maxItems items =>
    .object (record [("type",some (.string "array")),("max_items",maxItems.map writeUsize),
      ("items",some (writeSchema items))])
  | .object required properties additionalProperties =>
    .object (record [("type",some (.string "object")),
      ("required",some (.array (required.map Json.string))),
      ("properties",some (.object (writeProperties properties))),
      ("additional_properties",some (.bool additionalProperties))])

def writeProperties : List (String × JsonSchema) → List (String × Json)
  | [] => []
  | (key,schema) :: properties => (key,writeSchema schema) :: writeProperties properties

end

def writeBinding : Binding → Json
  | .state bind => .object (record [("bind",some (.string bind))])
  | .item item => .object (record [("item",some (.string item))])

def writePropValue : PropValue → Json
  | .binding binding => writeBinding binding
  | .literal value => value

def writeEmittedEvent (event : EmittedEvent) : Json :=
  .object (record [("emit",some (.string event.emit)),("payload",some event.payload)])

mutual

def writeComponent : Component → Json
  | ⟨kind,props,children,events,when_,then_,else_,items,key,template⟩ =>
    .object (record [("type",some (.string kind)),
      ("props",unlessEmpty props.entries (writeMap writePropValue props.entries)),
      ("children",unlessEmpty children (.array (writeChildren children))),
      ("events",unlessEmpty events.entries (writeMap writeEmittedEvent events.entries)),
      ("when",when_.map writeBinding),
      ("then",writeBranch then_),
      ("else_",writeBranch else_),
      ("items",items.map writeBinding),
      ("key",key.map Json.string),
      ("template",writeBranch template)])

def writeChildren : List Component → List Json
  | [] => []
  | child :: children => writeComponent child :: writeChildren children

def writeBranch : Option Component → Option Json
  | none => none
  | some comp => some (writeComponent comp)

end

def writeStateSchema (state : StateSchema) : Json :=
  .object (record [("initial",some state.initial),("schema",some (writeSchema state.schema))])

def writeEventSchema (event : EventSchema) : Json :=
  .object (record [("payload",some (writeSchema event.payload))])

def writeDocument (doc : UiDocument) : Json :=
  .object (record [("uiApiVersion",some (.string doc.uiApiVersion)),
    ("state",some (writeStateSchema doc.state)),
    ("events",some (writeMap writeEventSchema doc.events.entries)),
    ("root",some (writeComponent doc.root))])

mutual

/-- How many arrays and objects are open at the deepest place of a value. -/
def levels : Json → ℕ
  | .array items => itemsLevels items + 1
  | .object fields => fieldsLevels fields + 1
  | .null | .bool _ | .number _ | .string _ => 0

def itemsLevels : List Json → ℕ
  | [] => 0
  | item :: items => max (levels item) (itemsLevels items)

def fieldsLevels : List (String × Json) → ℕ
  | [] => 0
  | (_,sub) :: fields => max (levels sub) (fieldsLevels fields)

end

/-- A literal that looks like a binding comes back as one. -/
def reread : PropValue → PropValue
  | .binding binding => .binding binding
  | .literal value =>
    match readBinding value with
    | some binding => .binding binding
    | none => .literal value

mutual

def rereadComponent : Component → Component
  | ⟨kind,props,children,events,when_,then_,else_,items,key,template⟩ =>
    ⟨kind,props.mapValues reread,rereadChildren children,events,when_,rereadBranch then_,
      rereadBranch else_,items,key,rereadBranch template⟩

def rereadChildren : List Component → List Component
  | [] => []
  | child :: children => rereadComponent child :: rereadChildren children

def rereadBranch : Option Component → Option Component
  | none => none
  | some comp => some (rereadComponent comp)

end

def rereadDocument (doc : UiDocument) : UiDocument := { doc with root := rereadComponent doc.root }

/-- A literal that is not taken for a binding. -/
def PlainValue : PropValue → Prop
  | .binding _ => True
  | .literal value => readBinding value = none

mutual

/-- The limits of a schema are machine words. -/
def WordLimits : JsonSchema → Prop
  | .string maxLength => ∀ n ∈ maxLength, n < 2^64
  | .array maxItems items => (∀ n ∈ maxItems, n < 2^64) ∧ WordLimits items
  | .object _ properties _ => WordProperties properties
  | .boolean | .number | .integer | .null => True

def WordProperties : List (String × JsonSchema) → Prop
  | [] => True
  | (_,schema) :: properties => WordLimits schema ∧ WordProperties properties

end

structure WordDocument (doc : UiDocument) : Prop where
  state : WordLimits doc.state.schema
  events : ∀ e ∈ doc.events.entries, WordLimits e.2.payload

theorem writeProperties_eq (properties : List (String × JsonSchema)) :
    writeProperties properties = SortedMap.mapValues writeSchema properties := by
  induction properties with
  | nil => rfl
  | cons e properties ih =>
    obtain ⟨key,schema⟩ := e
    rw [writeProperties, ih]
    rfl

theorem writeChildren_eq (children : List Component) :
    writeChildren children = children.map writeComponent := by
  induction children with
  | nil => rfl
  | cons child children ih => rw [writeChildren, ih, List.map_cons]

theorem writeBranch_eq (branch : Option Component) :
    writeBranch branch = branch.map writeComponent := by
  cases branch <;> rfl

theorem rereadChildren_eq (children : List Component) :
    rereadChildren children = children.map rereadComponent := by
  induction children with
  | nil => rfl
  | cons child children ih => rw [rereadChildren, ih, List.map_cons]

theorem rereadBranch_eq (branch : Option Component) :
    rereadBranch branch = branch.map rereadComponent := by
  cases branch <;> rfl

/-- The first field of a name counts. -/
theorem find_record_cons (k key : String) (value : Option Json)
    (fields : List (String × Option Json)) :
    SortedMap.find k (record ((key,value) :: fields)) =
      if k = key then value.or (SortedMap.find k (record fields))
      else SortedMap.find k (record fields) := by
  cases value with
  | none => simp [record]
  | some value =>
    rw [record, SortedMap.find_insert]
    split_ifs <;> rfl

@[simp] theorem find_record_nil (k : String) : SortedMap.find k (record []) = none := rfl

theorem levels_item {item : Json} {items : List Json} (h : item ∈ items) :
    levels item < levels (.array items) := by
  rw [levels]
  induction items with
  | nil => cases h
  | cons head items ih =>
    rw [itemsLevels]
    rcases List.mem_cons.mp h with rfl | h
    · omega
    · have := ih h
      omega

theorem levels_entry {e : String × Json} {fields : List (String × Json)} (h : e ∈ fields) :
    levels e.2 < levels (.object fields) := by
  rw [levels]
  induction fields with
  | nil => cases h
  | cons head fields ih =>
    obtain ⟨key,sub⟩ := head
    rw [fieldsLevels]
    rcases List.mem_cons.mp h with rfl | h
    · dsimp only
      omega
    · have := ih h
      omega

theorem levels_field {k : String} {value : Json} {fields : List (String × Json)}
    (h : SortedMap.find k fields = some value) : levels value < levels (.object fields) :=
  levels_entry (SortedMap.mem_of_find h)

section Readers

variable {α γ : Type} {w : α → Json} {r : Json → Option γ} {f : α → γ}

theorem mapM_written (xs : List α) (h : ∀ x ∈ xs, r (w x) = some (f x)) :
    (xs.map w).mapM r = some (xs.map f) := by
  induction xs with
  | nil => rfl
  | cons x xs ih =>
    rw [List.forall_mem_cons] at h
    rw [List.map_cons, List.mapM_cons, h.1, ih h.2]
    rfl

theorem readMap_written (entries : List (String × α))
    (h : ∀ e ∈ entries, r (w e.2) = some (f e.2)) :
    readMap r (writeMap w entries) = some (SortedMap.mapValues f entries) := by
  change (entries.map fun e => (e.1,w e.2)).mapM _ = _
  induction entries with
  | nil => rfl
  | cons e entries ih =>
    rw [List.forall_mem_cons] at h
    rw [List.map_cons, List.mapM_cons, ih h.2, h.1]
    rfl

theorem defaulted_unlessEmpty_map (entries : List (String × α))
    (h : ∀ e ∈ entries, r (w e.2) = some (f e.2)) :
    defaulted (readMap r) [] (unlessEmpty entries (writeMap w entries)) =
      some (SortedMap.mapValues f entries) := by
  cases entries with
  | nil => rfl
  | cons e entries => exact readMap_written _ h

theorem defaulted_unlessEmpty_list {xs : List α} (h : ∀ x ∈ xs, r (w x) = some (f x)) :
    defaulted (readList r) [] (unlessEmpty xs (.array (xs.map w))) =
      some (xs.map f) := by
  cases xs with
  | nil => rfl
  | cons x xs => exact mapM_written _ h

theorem optional_written {o : Option α} (hnull : ∀ a ∈ o, w a ≠ .null)
    (h : ∀ a ∈ o, r (w a) = some (f a)) :
    optional r (o.map w) = some (o.map f) := by
  cases o with
  | none => rfl
  | some a =>
    have ha := h a rfl
    have hnull := hnull a rfl
    rw [Option.map_some, Option.map_some]
    cases hwritten : w a with
    | null => exact absurd hwritten hnull
    | bool | number | string | array | object =>
      rw [hwritten] at ha
      exact (congrArg (Option.map some) ha).trans rfl

end Readers

theorem asU64_writeUsize {n : ℕ} (h : n < 2^64) : (writeUsize n).asU64 = some n := by
  change some (UInt64.ofNat n).toNat = some n
  rw [UInt64.toNat_ofNat', Nat.mod_eq_of_lt h]

theorem optional_writeUsize {limit : Option ℕ} (h : ∀ n ∈ limit, n < 2^64) :
    Wire.optional Json.asU64 (limit.map writeUsize) = some limit := by
  have hread := optional_written (w := writeUsize) (r := Json.asU64) (f := id) (o := limit)
    (fun _ _ => nofun) fun n hn => asU64_writeUsize (h n hn)
  rwa [Option.map_id] at hread

theorem readBinding_writeBinding (binding : Binding) :
    readBinding (writeBinding binding) = some binding := by
  cases binding <;> rfl

theorem optional_writeBinding (binding : Option Binding) :
    Wire.optional readBinding (binding.map writeBinding) = some binding := by
  have hread := optional_written (w := writeBinding) (r := readBinding) (f := id) (o := binding)
    (fun b _ => by cases b <;> nofun) fun b _ => readBinding_writeBinding b
  rwa [Option.map_id] at hread

theorem optional_string (text : Option String) :
    Wire.optional Json.asStr (text.map Json.string) = some text := by
  cases text <;> rfl

theorem readPropValue_writePropValue (value : PropValue) :
    readPropValue (writePropValue value) = some (reread value) := by
  cases value with
  | binding binding => rw [writePropValue, readPropValue, readBinding_writeBinding, reread]
  | literal value =>
    rw [writePropValue, readPropValue, reread]
    cases readBinding value <;> rfl

theorem readList_strings (texts : List String) :
    readList Json.asStr (.array (texts.map Json.string)) = some texts := by
  have hread := mapM_written (f := id) (w := Json.string) (r := Json.asStr) texts
    fun _ _ => rfl
  rwa [List.map_id] at hread

section Schema

variable {fields : List (String × Json)} {fuel : ℕ}

theorem readSchema_string {maxLength : Option ℕ}
    (htype : SortedMap.find "type" fields = some (.string "string"))
    (hmax : Wire.optional Json.asU64 (SortedMap.find "max_length" fields) = some maxLength) :
    readSchema derived (fuel + 1) (.object fields) = some (.string maxLength) := by
  change (SortedMap.find "type" fields >>= Json.asStr) >>= _ = _
  rw [htype]
  change Wire.optional Json.asU64 (SortedMap.find "max_length" fields) >>= _ = _
  rw [hmax]
  rfl

theorem readSchema_array {maxItems : Option ℕ} {items : JsonSchema}
    (htype : SortedMap.find "type" fields = some (.string "array"))
    (hmax : Wire.optional Json.asU64 (SortedMap.find "max_items" fields) = some maxItems)
    (hitems : (SortedMap.find "items" fields).bind (readSchema derived fuel) = some items) :
    readSchema derived (fuel + 1) (.object fields) = some (.array maxItems items) := by
  change (SortedMap.find "type" fields >>= Json.asStr) >>= _ = _
  rw [htype]
  change Wire.optional Json.asU64 (SortedMap.find "max_items" fields) >>= _ = _
  rw [hmax]
  change (SortedMap.find "items" fields).bind (readSchema derived fuel) >>= _ = _
  rw [hitems]
  rfl

theorem readSchema_object {required : List String} {properties : List (String × JsonSchema)}
    {additionalProperties : Bool}
    (htype : SortedMap.find "type" fields = some (.string "object"))
    (hrequired : defaulted (readList Json.asStr) [] (SortedMap.find "required" fields) =
      some required)
    (hproperties : defaulted (readMap (readSchema derived fuel)) []
      (SortedMap.find "properties" fields) = some properties)
    (hadditional : defaulted Json.asBool true (SortedMap.find "additional_properties" fields) =
      some additionalProperties) :
    readSchema derived (fuel + 1) (.object fields) =
      some (.object required properties additionalProperties) := by
  change (SortedMap.find "type" fields >>= Json.asStr) >>= _ = _
  rw [htype]
  change defaulted (readList Json.asStr) [] (SortedMap.find "required" fields) >>= _ = _
  rw [hrequired]
  change defaulted (readMap (readSchema derived fuel)) [] (SortedMap.find "properties" fields) >>=
    _ = _
  rw [hproperties]
  change defaulted Json.asBool true (SortedMap.find "additional_properties" fields) >>= _ = _
  rw [hadditional]
  rfl

end Schema

theorem WordProperties.mem {properties : List (String × JsonSchema)}
    (h : WordProperties properties) {e : String × JsonSchema} (he : e ∈ properties) :
    WordLimits e.2 := by
  induction properties with
  | nil => cases he
  | cons head properties ih =>
    rw [WordProperties] at h
    rcases List.mem_cons.mp he with rfl | he
    · exact h.1
    · exact ih h.2 he

theorem mapValues_id {α : Type} (entries : List (String × α)) :
    SortedMap.mapValues id entries = entries := List.map_id entries

theorem levels_written {α : Type} {w : α → Json} {entries : List (String × α)} {e : String × α}
    (h : e ∈ entries) : levels (w e.2) < levels (writeMap w entries) :=
  levels_entry (List.mem_map_of_mem (f := fun e => (e.1,w e.2)) h)

theorem writeSchema_object (required : List String) (properties : List (String × JsonSchema))
    (additionalProperties : Bool) :
    writeSchema (.object required properties additionalProperties) =
      .object (record [("type",some (.string "object")),
        ("required",some (.array (required.map Json.string))),
        ("properties",some (writeMap writeSchema properties)),
        ("additional_properties",some (.bool additionalProperties))]) := by
  rw [writeSchema, writeProperties_eq]
  rfl

/-- Induction on the fuel; what stands below a schema is less nested. -/
theorem readSchema_writeSchema (fuel : ℕ) {schema : JsonSchema} (hword : WordLimits schema)
    (hlevels : levels (writeSchema schema) ≤ fuel) :
    readSchema derived fuel (writeSchema schema) = some schema := by
  induction fuel generalizing schema with
  | zero =>
    cases schema <;> rw [writeSchema, levels] at hlevels <;> omega
  | succ fuel ih =>
    cases schema with
    | boolean => rfl
    | number => rfl
    | integer => rfl
    | null => rfl
    | string maxLength =>
      rw [WordLimits] at hword
      rw [writeSchema]
      refine readSchema_string (by simp [find_record_cons]) ?_
      simpa [find_record_cons] using optional_writeUsize hword
    | array maxItems items =>
      rw [WordLimits] at hword
      rw [writeSchema] at hlevels ⊢
      have hfound : SortedMap.find "items" (record [("type",some (.string "array")),
          ("max_items",maxItems.map writeUsize),("items",some (writeSchema items))]) =
          some (writeSchema items) := by simp [find_record_cons]
      refine readSchema_array (by simp [find_record_cons]) ?_ ?_
      · simpa [find_record_cons] using optional_writeUsize hword.1
      · rw [hfound]
        have := levels_field hfound
        exact ih hword.2 (by omega)
    | object required properties additionalProperties =>
      rw [WordLimits] at hword
      rw [writeSchema_object] at hlevels ⊢
      have hfound : SortedMap.find "properties" (record [("type",some (.string "object")),
          ("required",some (.array (required.map Json.string))),
          ("properties",some (writeMap writeSchema properties)),
          ("additional_properties",some (.bool additionalProperties))]) =
          some (writeMap writeSchema properties) := by simp [find_record_cons]
      have hbelow := levels_field hfound
      have hread := readMap_written (w := writeSchema) (r := readSchema derived fuel) (f := id)
        properties fun e he => by
          have := levels_written (w := writeSchema) he
          exact ih (hword.mem he) (by omega)
      rw [mapValues_id] at hread
      refine readSchema_object (by simp [find_record_cons]) ?_ ?_ ?_
      · rw [find_record_cons, find_record_cons, if_neg (by decide), if_pos rfl]
        exact readList_strings required
      · rw [hfound]
        exact hread
      · simp only [find_record_cons]
        rfl

section Component

variable {fields : List (String × Json)} {fuel : ℕ}

theorem readComponent_fields {kind : String} {props : List (String × PropValue)}
    {children : List Component} {events : List (String × EmittedEvent)}
    {when_ items : Option Binding} {then_ else_ template : Option Component} {key : Option String}
    (htype : (SortedMap.find "type" fields).bind Json.asStr = some kind)
    (hprops : defaulted (readMap readPropValue) [] (SortedMap.find "props" fields) = some props)
    (hchildren : defaulted (readList (readComponent derived fuel)) []
      (SortedMap.find "children" fields) = some children)
    (hevents : defaulted (readMap readEmittedEvent) [] (SortedMap.find "events" fields) =
      some events)
    (hwhen : Wire.optional readBinding (SortedMap.find "when" fields) = some when_)
    (hthen : Wire.optional (readComponent derived fuel) (SortedMap.find "then" fields) =
      some then_)
    (helse : Wire.optional (readComponent derived fuel) (SortedMap.find "else_" fields) =
      some else_)
    (hitems : Wire.optional readBinding (SortedMap.find "items" fields) = some items)
    (hkey : Wire.optional Json.asStr (SortedMap.find "key" fields) = some key)
    (htemplate : Wire.optional (readComponent derived fuel)
      (SortedMap.find "template" fields) = some template) :
    readComponent derived (fuel + 1) (.object fields) =
      some ⟨kind,OrdMap.ofList props,children,OrdMap.ofList events,when_,then_,else_,items,key,
        template⟩ := by
  change (SortedMap.find "type" fields).bind Json.asStr >>= _ = _
  rw [htype]
  change defaulted (readMap readPropValue) [] (SortedMap.find "props" fields) >>= _ = _
  rw [hprops]
  change defaulted (readList (readComponent derived fuel)) [] (SortedMap.find "children" fields) >>=
    _ = _
  rw [hchildren]
  change defaulted (readMap readEmittedEvent) [] (SortedMap.find "events" fields) >>= _ = _
  rw [hevents]
  change Wire.optional readBinding (SortedMap.find "when" fields) >>= _ = _
  rw [hwhen]
  change Wire.optional (readComponent derived fuel) (SortedMap.find "then" fields) >>= _ = _
  rw [hthen]
  change Wire.optional (readComponent derived fuel) (SortedMap.find "else_" fields) >>= _ = _
  rw [helse]
  change Wire.optional readBinding (SortedMap.find "items" fields) >>= _ = _
  rw [hitems]
  change Wire.optional Json.asStr (SortedMap.find "key" fields) >>= _ = _
  rw [hkey]
  change Wire.optional (readComponent derived fuel) (SortedMap.find "template" fields) >>= _ = _
  rw [htemplate]
  rfl

end Component

/-- The fields of a component, by name. -/
def componentFields (comp : Component) : List (String × Option Json) :=
  [("type",some (.string comp.kind)),
    ("props",unlessEmpty comp.props.entries (writeMap writePropValue comp.props.entries)),
    ("children",unlessEmpty comp.children (.array (comp.children.map writeComponent))),
    ("events",unlessEmpty comp.events.entries (writeMap writeEmittedEvent comp.events.entries)),
    ("when",comp.when_.map writeBinding),
    ("then",comp.then_.map writeComponent),
    ("else_",comp.else_.map writeComponent),
    ("items",comp.items.map writeBinding),
    ("key",comp.key.map Json.string),
    ("template",comp.template.map writeComponent)]

theorem writeComponent_eq (comp : Component) :
    writeComponent comp = .object (record (componentFields comp)) := by
  obtain ⟨kind,props,children,events,when_,then_,else_,items,key,template⟩ := comp
  rw [writeComponent, writeChildren_eq, writeBranch_eq, writeBranch_eq, writeBranch_eq]
  rfl

theorem rereadComponent_eq (comp : Component) : rereadComponent comp =
    ⟨comp.kind,comp.props.mapValues reread,comp.children.map rereadComponent,comp.events,comp.when_,
      comp.then_.map rereadComponent,comp.else_.map rereadComponent,comp.items,comp.key,
      comp.template.map rereadComponent⟩ := by
  obtain ⟨kind,props,children,events,when_,then_,else_,items,key,template⟩ := comp
  rw [rereadComponent, rereadChildren_eq, rereadBranch_eq, rereadBranch_eq, rereadBranch_eq]

/-- Every field has a name of its own. -/
theorem find_component (comp : Component) (i : ℕ) {e : String × Option Json}
    (h : (componentFields comp)[i]? = some e) :
    SortedMap.find e.1 (record (componentFields comp)) = e.2 := by
  replace h := List.mem_of_getElem? h
  simp only [componentFields, List.mem_cons, List.not_mem_nil, or_false] at h
  rcases h with rfl | rfl | rfl | rfl | rfl | rfl | rfl | rfl | rfl | rfl <;>
    simp [componentFields, find_record_cons]

theorem levels_component (comp : Component) (i : ℕ) {key : String} {value : Json}
    (h : (componentFields comp)[i]? = some (key,some value)) :
    levels value < levels (writeComponent comp) := by
  rw [writeComponent_eq]
  exact levels_field (find_component comp i h)

theorem writeComponent_ne_null (comp : Component) : writeComponent comp ≠ .null := by
  rw [writeComponent_eq]
  nofun

/-- A branch is read back if the fuel is enough for what stands below its node. -/
theorem readBranch_written {fuel : ℕ} {comp : Component} (i : ℕ) {key : String}
    (branch : Option Component)
    (hlevels : levels (writeComponent comp) ≤ fuel + 1)
    (ih : ∀ comp : Component, levels (writeComponent comp) ≤ fuel →
      readComponent derived fuel (writeComponent comp) = some (rereadComponent comp))
    (h : (componentFields comp)[i]? = some (key,branch.map writeComponent)) :
    Wire.optional (readComponent derived fuel)
        (SortedMap.find key (record (componentFields comp))) =
      some (branch.map rereadComponent) := by
  rw [find_component comp i h]
  refine optional_written (fun below _ => writeComponent_ne_null below) ?_
  intro below hbelow
  rw [Option.mem_def.mp hbelow] at h
  have hfield := levels_component comp i h
  exact ih below (by omega)

/-- Induction on the fuel; every component below a node is less nested. -/
theorem readComponent_writeComponent (fuel : ℕ) (comp : Component)
    (hlevels : levels (writeComponent comp) ≤ fuel) :
    readComponent derived fuel (writeComponent comp) = some (rereadComponent comp) := by
  induction fuel generalizing comp with
  | zero =>
    rw [writeComponent_eq, levels] at hlevels
    omega
  | succ fuel ih =>
    rw [rereadComponent_eq]
    have hprops : defaulted (readMap readPropValue) []
        (SortedMap.find "props" (record (componentFields comp))) =
        some (SortedMap.mapValues reread comp.props.entries) := by
      rw [find_component comp 1 rfl]
      exact defaulted_unlessEmpty_map _ fun e _ => readPropValue_writePropValue e.2
    have hevents : defaulted (readMap readEmittedEvent) []
        (SortedMap.find "events" (record (componentFields comp))) = some comp.events.entries := by
      rw [find_component comp 3 rfl]
      have hmap := defaulted_unlessEmpty_map (w := writeEmittedEvent) (r := readEmittedEvent)
        (f := id) comp.events.entries fun e _ => rfl
      rwa [mapValues_id] at hmap
    have hchildren : defaulted (readList (readComponent derived fuel)) []
        (SortedMap.find "children" (record (componentFields comp))) =
        some (comp.children.map rereadComponent) := by
      rw [find_component comp 2 rfl]
      refine defaulted_unlessEmpty_list fun child hchild => ?_
      have hitem := levels_item (List.mem_map_of_mem (f := writeComponent) hchild)
      have hfield : levels (.array (comp.children.map writeComponent)) <
          levels (writeComponent comp) := by
        refine levels_component comp 2 (?_ : _ = some ("children",_))
        cases hempty : comp.children with
        | nil =>
          rw [hempty] at hchild
          cases hchild
        | cons first rest => simp [componentFields, hempty, unlessEmpty]
      exact ih child (by omega)
    have htype : (SortedMap.find "type" (record (componentFields comp))).bind Json.asStr =
        some comp.kind := by
      rw [find_component comp 0 rfl]
      rfl
    have hwhen : Wire.optional readBinding
        (SortedMap.find "when" (record (componentFields comp))) = some comp.when_ := by
      rw [find_component comp 4 rfl]
      exact optional_writeBinding _
    have hitems : Wire.optional readBinding
        (SortedMap.find "items" (record (componentFields comp))) = some comp.items := by
      rw [find_component comp 7 rfl]
      exact optional_writeBinding _
    have hkey : Wire.optional Json.asStr
        (SortedMap.find "key" (record (componentFields comp))) = some comp.key := by
      rw [find_component comp 8 rfl]
      exact optional_string _
    have hthen := readBranch_written 5 comp.then_ hlevels ih rfl
    have helse := readBranch_written 6 comp.else_ hlevels ih rfl
    have htemplate := readBranch_written 9 comp.template hlevels ih rfl
    rw [writeComponent_eq, readComponent_fields htype hprops hchildren hevents hwhen hthen helse
      hitems hkey htemplate, OrdMap.ofList_mapValues, OrdMap.ofList_entries, OrdMap.ofList_entries]

/-- The fields of a document, by name. -/
def documentFields (doc : UiDocument) : List (String × Option Json) :=
  [("uiApiVersion",some (.string doc.uiApiVersion)),
    ("state",some (writeStateSchema doc.state)),
    ("events",some (writeMap writeEventSchema doc.events.entries)),
    ("root",some (writeComponent doc.root))]

theorem find_document (doc : UiDocument) (i : ℕ) {e : String × Option Json}
    (h : (documentFields doc)[i]? = some e) :
    SortedMap.find e.1 (record (documentFields doc)) = e.2 := by
  replace h := List.mem_of_getElem? h
  simp only [documentFields, List.mem_cons, List.not_mem_nil, or_false] at h
  rcases h with rfl | rfl | rfl | rfl <;> simp [documentFields, find_record_cons]

theorem levels_document (doc : UiDocument) (i : ℕ) {key : String} {value : Json}
    (h : (documentFields doc)[i]? = some (key,some value)) :
    levels value < levels (writeDocument doc) :=
  levels_field (find_document doc i h)

theorem readStateSchema_writeStateSchema {state : StateSchema} (hword : WordLimits state.schema)
    (hlevels : levels (writeStateSchema state) ≤ recursionLimit) :
    readStateSchema derived (writeStateSchema state) = some state := by
  have hfound : SortedMap.find "schema" (record [("initial",some state.initial),
      ("schema",some (writeSchema state.schema))]) = some (writeSchema state.schema) := by
    simp [find_record_cons]
  have hinitial : SortedMap.find "initial" (record [("initial",some state.initial),
      ("schema",some (writeSchema state.schema))]) = some state.initial := by
    simp [find_record_cons]
  have hbelow := levels_field hfound
  rw [writeStateSchema] at hlevels ⊢
  have hschema := readSchema_writeSchema recursionLimit hword (by omega)
  simp only [readStateSchema, Json.asObject, Option.bind_eq_bind, Option.bind_some, hinitial,
    hfound, hschema]

theorem readEventSchema_writeEventSchema {event : EventSchema} (hword : WordLimits event.payload)
    (hlevels : levels (writeEventSchema event) ≤ recursionLimit) :
    readEventSchema derived (writeEventSchema event) = some event := by
  have hfound : SortedMap.find "payload" (record [("payload",some (writeSchema event.payload))]) =
      some (writeSchema event.payload) := by simp [find_record_cons]
  have hbelow := levels_field hfound
  rw [writeEventSchema] at hlevels ⊢
  have hschema := readSchema_writeSchema recursionLimit hword (by omega)
  simp only [readEventSchema, Json.asObject, Option.bind_eq_bind, Option.bind_some, hfound, hschema]

theorem readDocument_writeDocument {doc : UiDocument} (hword : WordDocument doc)
    (hlevels : levels (writeDocument doc) < recursionLimit) :
    readDocument derived (writeDocument doc) = some (rereadDocument doc) := by
  have hstate := levels_document doc 1 rfl
  have hevents := levels_document doc 2 rfl
  have hroot := levels_document doc 3 rfl
  have hread := readMap_written (w := writeEventSchema) (r := readEventSchema derived) (f := id)
    doc.events.entries fun e he => by
      have := levels_written (w := writeEventSchema) he
      exact readEventSchema_writeEventSchema (hword.events e he) (by omega)
  rw [mapValues_id] at hread
  have hversion := find_document doc 0 rfl
  have hstate' := readStateSchema_writeStateSchema hword.state (by omega)
  have hroot' := readComponent_writeComponent recursionLimit doc.root (by omega)
  have hfields : (writeDocument doc).asObject = some (record (documentFields doc)) := rfl
  simp only [readDocument, hfields, Option.bind_eq_bind, Option.bind_some, hversion,
    find_document doc 1 rfl, find_document doc 2 rfl, find_document doc 3 rfl, Json.asStr, hstate',
    hread, hroot', OrdMap.ofList_entries]
  rfl

/-- No prop takes an object. -/
theorem no_object_prop : ∀ spec ∈ components, ∀ prop ∈ spec.props, .object ∉ prop.types := by
  decide

theorem plain_of_literal {spec : ComponentSpec} {prop : PropSchema} {value : Json}
    (hspec : spec ∈ components) (hprop : prop ∈ spec.props)
    (h : validateLiteral spec prop value = .ok ()) : readBinding value = none := by
  obtain ⟨type,htype,haccepts⟩ := List.any_eq_true.mp (validateLiteral_eq_ok h).1
  cases value with
  | object fields =>
    cases type with
    | object => exact absurd htype (no_object_prop spec hspec prop hprop)
    | string | boolean | number | integer | array | null => cases haccepts
  | null | bool | number | string | array => rfl

theorem reread_eq_self_iff {value : PropValue} : reread value = value ↔ PlainValue value := by
  cases value with
  | binding binding => exact iff_of_true rfl trivial
  | literal value =>
    rw [reread, PlainValue]
    cases readBinding value with
    | none => exact iff_of_true rfl rfl
    | some binding => exact iff_of_false nofun nofun

theorem mapValues_eq_self_iff {α : Type} {f : α → α} {m : OrdMap String α} :
    m.mapValues f = m ↔ ∀ e ∈ m.entries, f e.2 = e.2 := by
  constructor
  · intro h e he
    have hentries : SortedMap.mapValues f m.entries = m.entries := congrArg OrdMap.entries h
    have hfound := SortedMap.find_mapValues f e.1 m.entries
    rw [hentries, SortedMap.find_of_mem m.ordered he] at hfound
    exact (Option.some.inj hfound).symm
  · intro h
    refine OrdMap.eq_of_entries_eq ?_
    refine (List.map_congr_left (g := id) fun e he => ?_).trans (List.map_id _)
    rw [h e he]
    rfl

theorem reread_twice (value : PropValue) : reread (reread value) = reread value := by
  rw [reread_eq_self_iff]
  cases value with
  | binding binding => trivial
  | literal value =>
    rw [reread]
    cases hvalue : readBinding value with
    | none => exact hvalue
    | some binding => trivial

mutual

theorem rereadComponent_twice (comp : Component) :
    rereadComponent (rereadComponent comp) = rereadComponent comp := by
  match comp with
  | ⟨kind,props,children,events,when_,then_,else_,items,key,template⟩ =>
    simp only [rereadComponent]
    rw [rereadChildren_twice, rereadBranch_twice, rereadBranch_twice, rereadBranch_twice,
      mapValues_eq_self_iff.mpr]
    intro e he
    obtain ⟨e,-,rfl⟩ := List.mem_map.mp he
    exact reread_twice e.2

theorem rereadChildren_twice (children : List Component) :
    rereadChildren (rereadChildren children) = rereadChildren children := by
  match children with
  | [] => rfl
  | child :: children =>
    simp only [rereadChildren]
    rw [rereadComponent_twice, rereadChildren_twice]

theorem rereadBranch_twice (branch : Option Component) :
    rereadBranch (rereadBranch branch) = rereadBranch branch := by
  match branch with
  | none => rfl
  | some comp =>
    simp only [rereadBranch]
    rw [rereadComponent_twice]

end

/-- The literals of a node are not taken for bindings. -/
def PlainNode (comp : Component) : Prop := ∀ e ∈ comp.props.entries, PlainValue e.2

section Unchanged

variable {env : ValidateEnv} {stateSchema : JsonSchema}

mutual

/-- Induction over the tree. -/
theorem rereadComponent_eq_self_iff {scope : Option JsonSchema} {depth : ℕ} {comp : Component} :
    rereadComponent comp = comp ↔
      ∀ p ∈ placements stateSchema scope depth comp, PlainNode p.node := by
  match comp with
  | ⟨kind,props,children,events,when_,then_,else_,items,key,template⟩ =>
    rw [placements, rereadComponent]
    simp only [Component.mk.injEq, true_and, List.forall_mem_cons,
      List.forall_mem_append, mapValues_eq_self_iff, reread_eq_self_iff]
    rw [rereadChildren_eq_self_iff, rereadBranch_eq_self_iff, rereadBranch_eq_self_iff,
      rereadBranch_eq_self_iff]
    rfl

theorem rereadChildren_eq_self_iff {scope : Option JsonSchema} {depth : ℕ}
    {children : List Component} : rereadChildren children = children ↔
      ∀ p ∈ childPlacements stateSchema scope depth children, PlainNode p.node := by
  match children with
  | [] => exact iff_of_true rfl nofun
  | child :: children =>
    rw [rereadChildren, childPlacements, List.forall_mem_append, List.cons.injEq,
      rereadComponent_eq_self_iff, rereadChildren_eq_self_iff]

theorem rereadBranch_eq_self_iff {scope : Option JsonSchema} {depth : ℕ}
    {branch : Option Component} : rereadBranch branch = branch ↔
      ∀ p ∈ branchPlacements stateSchema scope depth branch, PlainNode p.node := by
  match branch with
  | none => exact iff_of_true rfl nofun
  | some comp =>
    rw [rereadBranch, branchPlacements, Option.some.injEq]
    exact rereadComponent_eq_self_iff

end

theorem plainNode_of_element {spec : ComponentSpec} {itemSchema : Option JsonSchema}
    {comp : Component} {counts counts' : Counts} (hspec : spec ∈ components)
    (h : validateElement env spec stateSchema itemSchema comp counts = .ok counts') :
    PlainNode comp := by
  intro e he
  have hget := (OrdMap.mem_entries_iff _ e.1 e.2).mp he
  obtain ⟨c,c',hprop⟩ := validateElement_props h hget
  obtain ⟨name,value⟩ := e
  cases value with
  | binding binding => trivial
  | literal value =>
    obtain ⟨prop,hfound,hliteral,-⟩ := validateProp_literal hprop
    exact plain_of_literal hspec (List.mem_of_find?_eq_some hfound) hliteral

/-- Every node that is not astray is plain. -/
def PlainBut (stray placed : List Placement) : Prop := ∀ p ∈ placed, p ∈ stray ∨ PlainNode p.node

theorem PlainBut.all (stray : List Placement) : PlainBut stray stray := fun _ hp => Or.inl hp

theorem PlainBut.append {stray placed stray' placed' : List Placement} (h : PlainBut stray placed)
    (h' : PlainBut stray' placed') : PlainBut (stray ++ stray') (placed ++ placed') := by
  intro p hp
  rcases List.mem_append.mp hp with hp | hp
  · exact (h p hp).imp_left (List.mem_append_left _)
  · exact (h' p hp).imp_left (List.mem_append_right _)

theorem plainNode_of_isPlain {comp : Component} (h : isPlain comp = true) : PlainNode comp := by
  intro e he
  rw [(isPlain_iff.mp h).1] at he
  cases he

mutual

/-- Induction over the tree, along the validation. -/
theorem validateComponent_plain {itemSchema scope : Option JsonSchema} {depth level : ℕ}
    {counts counts' : Counts} {comp : Component}
    (h : validateComponent env stateSchema itemSchema depth counts comp = .ok counts') :
    PlainBut (strays stateSchema scope level comp) (placements stateSchema scope level comp) := by
  match comp with
  | ⟨kind,props,children,events,when_,then_,else_,items,key,template⟩ =>
    rw [validateComponent] at h
    obtain ⟨⟨spec,counts₁⟩,henter,h⟩ := bind_eq_ok.mp h
    obtain ⟨-,-,hspec,-⟩ := enterComponent_eq_ok henter
    obtain ⟨hmem,hname⟩ := find_eq_ok hspec
    obtain ⟨hspecIf,hspecLoop⟩ := kind_of_spec spec hmem
    rw [placements, strays]
    dsimp only at h
    cases hkind : spec.kind with
    | if_ =>
      rw [hkind, check_bind_eq_ok] at h
      obtain ⟨hif,h⟩ := h
      obtain ⟨counts₂,hthen,helse⟩ := bind_eq_ok.mp h
      have hplain := (validateIf_eq_ok hif).1
      obtain ⟨-,-,hchildren⟩ := isPlain_iff.mp hplain
      have hcompKind : kind = "If" := hname ▸ hspecIf.mp hkind
      subst hchildren hcompKind
      rw [if_pos rfl, childPlacements, List.nil_append]
      refine List.forall_mem_cons.mpr ⟨Or.inr (plainNode_of_isPlain hplain),?_⟩
      exact (validateBranch_plain hthen).append ((validateBranch_plain helse).append (.all _))
    | forEach =>
      rw [hkind] at h
      obtain ⟨found,hforEach,htemplate⟩ := bind_eq_ok.mp h
      have hplain := (validateForeach_eq_ok hforEach).1
      obtain ⟨-,-,hchildren⟩ := isPlain_iff.mp hplain
      have hcompKind : kind = "ForEach" := hname ▸ hspecLoop.mp hkind
      subst hchildren hcompKind
      rw [if_neg (by decide), if_pos rfl, childPlacements, List.nil_append]
      refine List.forall_mem_cons.mpr ⟨Or.inr (plainNode_of_isPlain hplain),?_⟩
      exact (PlainBut.all _).append ((PlainBut.all _).append (validateBranch_plain htemplate))
    | element =>
      rw [hkind] at h
      obtain ⟨counts₂,helement,h⟩ := bind_eq_ok.mp h
      obtain ⟨counts₃,hchildren,-⟩ := bind_eq_ok.mp h
      obtain ⟨⟨-,hthen,helse,-,htemplate⟩,-⟩ := validateElement_eq_ok helement
      subst hthen helse htemplate
      have hif : kind ≠ "If" := fun hif => by
        have hspecKind := hspecIf.mpr (hname.trans hif)
        rw [hkind] at hspecKind
        cases hspecKind
      have hloop : kind ≠ "ForEach" := fun hloop => by
        have hspecKind := hspecLoop.mpr (hname.trans hloop)
        rw [hkind] at hspecKind
        cases hspecKind
      rw [if_neg hif, if_neg hloop]
      simp only [branchPlacements, List.append_nil]
      exact List.forall_mem_cons.mpr ⟨Or.inr (plainNode_of_element hmem helement),
        validateChildren_plain hchildren⟩

theorem validateChildren_plain {itemSchema scope : Option JsonSchema} {depth level : ℕ}
    {counts counts' : Counts} {children : List Component}
    (h : validateChildren env stateSchema itemSchema depth counts children = .ok counts') :
    PlainBut (childStrays stateSchema scope level children)
      (childPlacements stateSchema scope level children) := by
  match children with
  | [] => exact .all _
  | child :: children =>
    obtain ⟨counts₁,hchild,hrest⟩ := bind_eq_ok.mp h
    rw [childPlacements, childStrays]
    exact (validateComponent_plain hchild).append (validateChildren_plain hrest)

theorem validateBranch_plain {itemSchema scope : Option JsonSchema} {depth level : ℕ}
    {counts counts' : Counts} {branch : Option Component}
    (h : validateBranch env stateSchema itemSchema depth counts branch = .ok counts') :
    PlainBut (branchStrays stateSchema scope level branch)
      (branchPlacements stateSchema scope level branch) := by
  match branch with
  | none => exact .all _
  | some comp => exact validateComponent_plain h

end

end Unchanged

end Floatile.Sdk
