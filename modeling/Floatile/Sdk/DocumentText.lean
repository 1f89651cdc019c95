import Floatile.Sdk.DocumentJson

/-! The text of a document on its way from the SDK to the host. The JSON library writes and reads it,
and may read a double as another one than it has written. -/
namespace Floatile.Sdk

open Floatile.Core
open Floatile.Lib
open Floatile.Lib.Checked (reject bind_eq_ok check_bind_eq_ok reject_eq_ok)
open Floatile.UiSchema
open Floatile.UiSchema.Wire

/-- The JSON library: the text that it writes for a document, the value that it reads from a text,
and the double that it reads where it has written one. -/
structure DocumentLib where
  toString : UiDocument → String
  fromSlice : String → Option Json
  readDouble : Float → Float

section Doubles

variable (f : Float → Float)

def reparseNumber : Number → Number
  | .posInt n => .posInt n
  | .negInt n => .negInt n
  | .float x => .float (f x)

mutual

/-- The value with all its doubles replaced. -/
def reparse : Json → Json
  | .number n => .number (reparseNumber f n)
  | .array items => .array (reparseItems items)
  | .object fields => .object (reparseFields fields)
  | .null => .null
  | .bool b => .bool b
  | .string s => .string s

def reparseItems : List Json → List Json
  | [] => []
  | item :: items => reparse item :: reparseItems items

def reparseFields : List (String × Json) → List (String × Json)
  | [] => []
  | (key,value) :: fields => (key,reparse value) :: reparseFields fields

end

def reparseProp : PropValue → PropValue
  | .binding binding => .binding binding
  | .literal value => .literal (reparse f value)

def reparseEvent (event : EmittedEvent) : EmittedEvent :=
  { event with payload := reparse f event.payload }

mutual

def reparseComponent : Component → Component
  | ⟨kind,props,children,events,when_,then_,else_,items,key,template⟩ =>
    ⟨kind,props.mapValues (reparseProp f),reparseChildren children,
      events.mapValues (reparseEvent f),when_,reparseBranch then_,reparseBranch else_,items,key,
      reparseBranch template⟩

def reparseChildren : List Component → List Component
  | [] => []
  | child :: children => reparseComponent child :: reparseChildren children

def reparseBranch : Option Component → Option Component
  | none => none
  | some comp => some (reparseComponent comp)

end

def reparseDocument (doc : UiDocument) : UiDocument :=
  { doc with
    state := { doc.state with initial := reparse f doc.state.initial }
    root := reparseComponent f doc.root }

end Doubles

/-- What the library is relied on for: it reads the text of a document as the value of the document
but for the doubles, and gives up where too much is open. -/
def DocumentLib.SpellsBack (lib : DocumentLib) (doc : UiDocument) : Prop :=
  lib.fromSlice (lib.toString doc) =
    if levels (writeDocument doc) < recursionLimit then
      some (reparse lib.readDouble (writeDocument doc))
    else none

section Host

variable (lib : DocumentLib)

def loadDocument (text : String) : Option UiDocument :=
  (lib.fromSlice text).bind (readDocument derived)

inductive ParseError where
  | irTooLarge (bytes : ℕ)
  | parse
  | invalidIr (error : UiSchemaError)

/-- What the host does with the document of a package before it renders it. -/
def parseDocument (irBytes : UiDocument → Except String ℕ) (text : String) :
    Except ParseError UiDocument := do
  reject (maxIrBytes < text.utf8ByteSize) (.irTooLarge text.utf8ByteSize)
  match loadDocument lib text with
  | none => .error .parse
  | some doc => do
    (validateDocument irBytes doc).mapError ParseError.invalidIr
    .ok doc

end Host

section Doubles

variable {f : Float → Float}

theorem reparseItems_eq (items : List Json) : reparseItems f items = items.map (reparse f) := by
  induction items with
  | nil => rfl
  | cons item items ih => rw [reparseItems, ih, List.map_cons]

theorem reparseFields_eq (fields : List (String × Json)) :
    reparseFields f fields = SortedMap.mapValues (reparse f) fields := by
  induction fields with
  | nil => rfl
  | cons e fields ih =>
    obtain ⟨key,value⟩ := e
    rw [reparseFields, ih]
    rfl

theorem reparse_object (fields : List (String × Json)) :
    reparse f (.object fields) = .object (SortedMap.mapValues (reparse f) fields) := by
  rw [reparse, reparseFields_eq]

theorem reparse_array (items : List Json) :
    reparse f (.array items) = .array (items.map (reparse f)) := by
  rw [reparse, reparseItems_eq]

mutual

/-- As much is open as before. -/
theorem levels_reparse (value : Json) : levels (reparse f value) = levels value := by
  match value with
  | .array items => rw [reparse, levels, levels, itemsLevels_reparse]
  | .object fields => rw [reparse, levels, levels, fieldsLevels_reparse]
  | .null | .bool b | .number n | .string s => rfl

theorem itemsLevels_reparse (items : List Json) :
    itemsLevels (reparseItems f items) = itemsLevels items := by
  match items with
  | [] => rfl
  | item :: items => rw [reparseItems, itemsLevels, itemsLevels, levels_reparse, itemsLevels_reparse]

theorem fieldsLevels_reparse (fields : List (String × Json)) :
    fieldsLevels (reparseFields f fields) = fieldsLevels fields := by
  match fields with
  | [] => rfl
  | (key,value) :: fields =>
    rw [reparseFields, fieldsLevels, fieldsLevels, levels_reparse, fieldsLevels_reparse]

end

theorem mapValues_record (fields : List (String × Option Json)) :
    SortedMap.mapValues (reparse f) (record fields) =
      record (fields.map fun e => (e.1,e.2.map (reparse f))) := by
  induction fields with
  | nil => rfl
  | cons e fields ih =>
    obtain ⟨key,value⟩ := e
    cases value with
    | none => exact ih
    | some value =>
      rw [record, ← SortedMap.insert_mapValues, ih]
      rfl

theorem reparse_record (fields : List (String × Option Json)) :
    reparse f (.object (record fields)) =
      .object (record (fields.map fun e => (e.1,e.2.map (reparse f)))) := by
  rw [reparse_object, mapValues_record]

theorem reparse_writeMap {α : Type} {w : α → Json} {g : α → α} (entries : List (String × α))
    (h : ∀ a, reparse f (w a) = w (g a)) :
    reparse f (writeMap w entries) = writeMap w (SortedMap.mapValues g entries) := by
  rw [writeMap, reparse_object, writeMap]
  simp only [SortedMap.mapValues, List.map_map]
  congr 1
  refine List.map_congr_left fun e _ => ?_
  exact congrArg (Prod.mk e.1) (h e.2)

theorem map_unlessEmpty {α : Type} {items items' : List α} {value value' : Json}
    (hitems : items'.isEmpty = items.isEmpty) (hvalue : reparse f value = value') :
    (unlessEmpty items value).map (reparse f) = unlessEmpty items' value' := by
  rw [unlessEmpty, unlessEmpty, hitems]
  split_ifs
  · rfl
  · exact congrArg some hvalue

theorem reparse_strings (texts : List String) :
    reparse f (.array (texts.map Json.string)) = .array (texts.map Json.string) := by
  rw [reparse_array, List.map_map]
  rfl

theorem map_writeUsize (limit : Option ℕ) :
    (limit.map writeUsize).map (reparse f) = limit.map writeUsize := by
  cases limit <;> rfl

mutual

/-- A schema has no doubles. -/
theorem reparse_writeSchema (schema : JsonSchema) :
    reparse f (writeSchema schema) = writeSchema schema := by
  match schema with
  | .boolean | .number | .integer | .null => rfl
  | .string maxLength =>
    rw [writeSchema, reparse_record]
    simp only [List.map_cons, List.map_nil, map_writeUsize, Option.map_some, reparse]
  | .array maxItems items =>
    rw [writeSchema, reparse_record]
    simp only [List.map_cons, List.map_nil, map_writeUsize, Option.map_some, reparse,
      reparse_writeSchema items]
  | .object required properties additionalProperties =>
    rw [writeSchema, reparse_record]
    simp only [List.map_cons, List.map_nil, Option.map_some, reparse_strings]
    rw [reparse, reparse, reparse, reparseFields_writeProperties properties]

theorem reparseFields_writeProperties (properties : List (String × JsonSchema)) :
    reparseFields f (writeProperties properties) = writeProperties properties := by
  match properties with
  | [] => rfl
  | (key,schema) :: properties =>
    rw [writeProperties, reparseFields, reparse_writeSchema schema,
      reparseFields_writeProperties properties]

end

theorem reparse_writeBinding (binding : Binding) :
    reparse f (writeBinding binding) = writeBinding binding := by
  cases binding <;> rfl

theorem map_writeBinding (binding : Option Binding) :
    (binding.map writeBinding).map (reparse f) = binding.map writeBinding := by
  cases binding with
  | none => rfl
  | some binding => exact congrArg some (reparse_writeBinding binding)

theorem reparse_writePropValue (value : PropValue) :
    reparse f (writePropValue value) = writePropValue (reparseProp f value) := by
  cases value with
  | binding binding => exact reparse_writeBinding binding
  | literal value => rfl

theorem reparse_writeEmittedEvent (event : EmittedEvent) :
    reparse f (writeEmittedEvent event) = writeEmittedEvent (reparseEvent f event) := rfl

theorem isEmpty_mapValues {α : Type} {g : α → α} (m : OrdMap String α) :
    (m.mapValues g).entries.isEmpty = m.entries.isEmpty :=
  List.isEmpty_map

mutual

/-- Induction over the tree. -/
theorem reparse_writeComponent (comp : Component) :
    reparse f (writeComponent comp) = writeComponent (reparseComponent f comp) := by
  match comp with
  | ⟨kind,props,children,events,when_,then_,else_,items,key,template⟩ =>
    have hprops := map_unlessEmpty (f := f) (isEmpty_mapValues (g := reparseProp f) props)
      (reparse_writeMap (w := writePropValue) props.entries reparse_writePropValue)
    have hevents := map_unlessEmpty (f := f) (isEmpty_mapValues (g := reparseEvent f) events)
      (reparse_writeMap (w := writeEmittedEvent) events.entries reparse_writeEmittedEvent)
    have hempty : (reparseChildren f children).isEmpty = children.isEmpty := by
      cases children <;> rfl
    have hchildren := map_unlessEmpty (f := f) hempty (reparse_writeChildren children)
    have hkey : (key.map Json.string).map (reparse f) = key.map Json.string := by
      cases key <;> rfl
    rw [writeComponent, reparse_record, reparseComponent, writeComponent]
    simp only [List.map_cons, List.map_nil, Option.map_some, hprops, hchildren, hevents,
      map_writeBinding, reparse_writeBranch then_, reparse_writeBranch else_,
      reparse_writeBranch template, hkey]
    rfl

theorem reparse_writeChildren (children : List Component) :
    reparse f (.array (writeChildren children)) =
      .array (writeChildren (reparseChildren f children)) := by
  match children with
  | [] => rfl
  | child :: children =>
    have hrest := Json.array.inj (reparse_writeChildren children)
    rw [writeChildren, reparse, reparseItems, reparse_writeComponent child, hrest]
    rfl

theorem reparse_writeBranch (branch : Option Component) :
    (writeBranch branch).map (reparse f) = writeBranch (reparseBranch f branch) := by
  match branch with
  | none => rfl
  | some comp => exact congrArg some (reparse_writeComponent comp)

end

theorem reparse_writeDocument (doc : UiDocument) :
    reparse f (writeDocument doc) = writeDocument (reparseDocument f doc) := by
  have hevents := reparse_writeMap (f := f) (w := writeEventSchema) (g := id) doc.events.entries
    fun event => by
      rw [writeEventSchema, reparse_record]
      simp only [List.map_cons, List.map_nil, Option.map_some, reparse_writeSchema]
      rfl
  rw [mapValues_id] at hevents
  have hstate : reparse f (writeStateSchema doc.state) =
      writeStateSchema (reparseDocument f doc).state := by
    rw [writeStateSchema, reparse_record]
    simp only [List.map_cons, List.map_nil, Option.map_some, reparse_writeSchema]
    rfl
  rw [writeDocument, reparse_record]
  simp only [List.map_cons, List.map_nil, Option.map_some, hevents, hstate, reparse_writeComponent]
  rfl

/-- Whether a value looks like a binding does not depend on doubles. -/
theorem readBinding_reparse (value : Json) : readBinding (reparse f value) = readBinding value := by
  cases value with
  | object fields =>
    rw [reparse_object, readBinding, readBinding, SortedMap.find_mapValues,
      SortedMap.find_mapValues]
    have hitem : ((SortedMap.find "item" fields).map (reparse f)).bind Json.asStr =
        (SortedMap.find "item" fields).bind Json.asStr := by
      cases SortedMap.find "item" fields with
      | none => rfl
      | some item => cases item <;> rfl
    rw [hitem]
    cases SortedMap.find "bind" fields with
    | none => rfl
    | some bind => cases bind <;> rfl
  | null | bool | number | string | array => rfl

theorem reread_reparseProp (value : PropValue) :
    reread (reparseProp f value) = reparseProp f (reread value) := by
  cases value with
  | binding binding => rfl
  | literal value =>
    rw [reparseProp, reread, reread, readBinding_reparse]
    cases readBinding value <;> rfl

mutual

theorem rereadComponent_reparse (comp : Component) :
    rereadComponent (reparseComponent f comp) = reparseComponent f (rereadComponent comp) := by
  match comp with
  | ⟨kind,props,children,events,when_,then_,else_,items,key,template⟩ =>
    have hprops : (props.mapValues (reparseProp f)).mapValues reread =
        (props.mapValues reread).mapValues (reparseProp f) := by
      refine OrdMap.eq_of_entries_eq ?_
      change (props.entries.map _).map _ = (props.entries.map _).map _
      rw [List.map_map, List.map_map]
      refine List.map_congr_left fun e _ => ?_
      exact congrArg (Prod.mk e.1) (reread_reparseProp e.2)
    simp only [reparseComponent, rereadComponent]
    rw [hprops, rereadChildren_reparse, rereadBranch_reparse, rereadBranch_reparse,
      rereadBranch_reparse]

theorem rereadChildren_reparse (children : List Component) :
    rereadChildren (reparseChildren f children) = reparseChildren f (rereadChildren children) := by
  match children with
  | [] => rfl
  | child :: children =>
    simp only [reparseChildren, rereadChildren]
    rw [rereadComponent_reparse, rereadChildren_reparse]

theorem rereadBranch_reparse (branch : Option Component) :
    rereadBranch (reparseBranch f branch) = reparseBranch f (rereadBranch branch) := by
  match branch with
  | none => rfl
  | some comp =>
    simp only [reparseBranch, rereadBranch]
    rw [rereadComponent_reparse]

end

end Doubles

variable {irBytes : UiDocument → Except String ℕ} {doc : UiDocument}

theorem rereadDocument_eq_self_iff : rereadDocument doc = doc ↔
    ∀ p ∈ doc.placements, PlainNode p.node := by
  rw [UiDocument.placements,← rereadComponent_eq_self_iff]
  obtain ⟨uiApiVersion,state,events,root⟩ := doc
  simp only [rereadDocument, UiDocument.mk.injEq, true_and]

theorem rereadDocument_twice (doc : UiDocument) :
    rereadDocument (rereadDocument doc) = rereadDocument doc := by
  rw [rereadDocument, rereadDocument]
  dsimp only
  rw [rereadComponent_twice]

theorem rereadDocument_reparse (f : Float → Float) (doc : UiDocument) :
    rereadDocument (reparseDocument f doc) = reparseDocument f (rereadDocument doc) := by
  rw [rereadDocument, reparseDocument, rereadDocument, reparseDocument]
  dsimp only
  rw [rereadComponent_reparse]

/-- A document comes back unchanged if its doubles do, and no literal looks like a binding. -/
theorem unchanged_iff (f : Float → Float) : rereadDocument (reparseDocument f doc) = doc ↔
    reparseDocument f doc = doc ∧ rereadDocument doc = doc := by
  constructor
  · intro h
    have hreread : rereadDocument doc = doc := by
      rw [← h, rereadDocument_twice]
    have hreparse : reparseDocument f doc = doc := by
      rw [rereadDocument_reparse, hreread] at h
      exact h
    exact ⟨hreparse,hreread⟩
  · rintro ⟨hreparse,hreread⟩
    rw [hreparse, hreread]

theorem size_of_accepted (haccepted : validateDocument irBytes doc = .ok ()) {bytes : ℕ}
    (hbytes : irBytes doc = .ok bytes) : bytes ≤ maxIrBytes := by
  obtain ⟨_,-,h⟩ := bind_eq_ok.mp haccepted
  obtain ⟨hsize,-⟩ := check_bind_eq_ok.mp h
  rw [checkIrSize, hbytes] at hsize
  obtain ⟨size,hsize',hle⟩ := bind_eq_ok.mp hsize
  obtain rfl := Except.ok.inj hsize'
  rwa [reject_eq_ok, Nat.not_lt] at hle

/-- An accepted document is unchanged exactly when its strays are plain. -/
theorem reread_of_accepted (haccepted : validateDocument irBytes doc = .ok ()) :
    rereadDocument doc = doc ↔ ∀ p ∈ doc.strays, PlainNode p.node := by
  obtain ⟨uiMinor,counts,-,-,hroot⟩ := validateDocument_eq_ok haccepted
  have hplain : PlainBut doc.strays doc.placements := validateComponent_plain hroot
  rw [rereadDocument_eq_self_iff]
  constructor
  · intro h p hp
    exact h p (strays_sublist.subset hp)
  · intro h p hp
    rcases hplain p hp with hstray | hplain
    · exact h p hstray
    · exact hplain

theorem loadDocument_toString {lib : DocumentLib} (hword : WordDocument doc)
    (htext : lib.SpellsBack doc) : loadDocument lib (lib.toString doc) =
      if levels (writeDocument doc) < recursionLimit then
        some (rereadDocument (reparseDocument lib.readDouble doc))
      else none := by
  rw [loadDocument, htext]
  split_ifs with hlevels
  · rw [Option.bind_some, reparse_writeDocument]
    refine readDocument_writeDocument ⟨hword.state,hword.events⟩ ?_
    rw [← reparse_writeDocument, levels_reparse]
    exact hlevels
  · rfl

theorem parseDocument_eq_ok_iff {lib : DocumentLib} {text : String}
    (hbytes : text.utf8ByteSize ≤ maxIrBytes) : parseDocument lib irBytes text = .ok doc ↔
      loadDocument lib text = some doc ∧ validateDocument irBytes doc = .ok () := by
  rw [parseDocument, check_bind_eq_ok, reject_eq_ok, Nat.not_lt, and_iff_right hbytes]
  cases loadDocument lib text with
  | none => exact iff_of_false nofun nofun
  | some found =>
    dsimp only
    rw [check_bind_eq_ok, Checked.mapError_eq_ok]
    constructor
    · rintro ⟨hvalid,hdoc⟩
      obtain rfl := Except.ok.inj hdoc
      exact ⟨rfl,hvalid⟩
    · rintro ⟨hdoc,hvalid⟩
      obtain rfl := Option.some.inj hdoc
      exact ⟨hvalid,rfl⟩

/-- What the host has after the SDK has written a document: the document with the literals that
look like bindings turned into bindings and with the doubles that the library has read, or nothing
where too much is open. An accepted document that fills no unused field reaches the renderer as it
was built, if its doubles do. -/
theorem published_document_kept (lib : DocumentLib) (hword : WordDocument doc)
    (htext : lib.SpellsBack doc) :
    loadDocument lib (lib.toString doc) =
      (if levels (writeDocument doc) < recursionLimit then
        some (rereadDocument (reparseDocument lib.readDouble doc)) else none) ∧
    (rereadDocument (reparseDocument lib.readDouble doc) = doc ↔
      reparseDocument lib.readDouble doc = doc ∧ ∀ p ∈ doc.placements, PlainNode p.node) ∧
    (∀ f, rereadDocument (reparseDocument f (rereadDocument (reparseDocument lib.readDouble doc))) =
      reparseDocument f (rereadDocument (reparseDocument lib.readDouble doc))) ∧
    ∀ irBytes, irBytes doc = .ok (lib.toString doc).utf8ByteSize →
      validateDocument irBytes doc = .ok () →
      (parseDocument lib irBytes (lib.toString doc) = .ok doc ↔
        levels (writeDocument doc) < recursionLimit ∧ reparseDocument lib.readDouble doc = doc ∧
          ∀ p ∈ doc.strays, PlainNode p.node) ∧
      (doc.UnusedEmpty → levels (writeDocument doc) < recursionLimit →
        reparseDocument lib.readDouble doc = doc →
        parseDocument lib irBytes (lib.toString doc) = .ok doc) := by
  have hloaded := loadDocument_toString hword htext
  refine ⟨hloaded,?_,fun f => ?_,?_⟩
  · rw [unchanged_iff, rereadDocument_eq_self_iff]
  · rw [rereadDocument_reparse, rereadDocument_twice]
  intro irBytes hbytes haccepted
  have hparsed : parseDocument lib irBytes (lib.toString doc) = .ok doc ↔
      levels (writeDocument doc) < recursionLimit ∧ reparseDocument lib.readDouble doc = doc ∧
        ∀ p ∈ doc.strays, PlainNode p.node := by
    rw [parseDocument_eq_ok_iff (size_of_accepted haccepted hbytes), and_iff_left haccepted,
      hloaded, ← reread_of_accepted haccepted]
    split_ifs with hlevels
    · rw [Option.some.injEq, and_iff_right hlevels, unchanged_iff]
    · exact iff_of_false not_false fun h => hlevels h.1
  refine ⟨hparsed,fun hunused hlevels hdoubles => hparsed.mpr ⟨hlevels,hdoubles,?_⟩⟩
  rw [UiDocument.strays, strays_eq_nil hunused]
  exact fun p hp => absurd hp List.not_mem_nil

/-- The text of the text that is shown while a switch of the state is on. -/
def switchText : String :=
  "\x7b\"uiApiVersion\":\"1.0.0\",\"state\":\x7b\"initial\":\x7b\"on\":true\x7d,\"schema\":" ++
  "\x7b\"type\":\"object\",\"required\":[],\"properties\":\x7b\"on\":\x7b\"type\":\"boolean\"\x7d\x7d," ++
  "\"additional_properties\":false\x7d\x7d,\"events\":\x7b\x7d,\"root\":\x7b\"type\":\"If\"," ++
  "\"when\":\x7b\"bind\":\"$.on\"\x7d,\"then\":\x7b\"type\":\"Text\",\"props\":" ++
  "\x7b\"text\":\"ok\"\x7d\x7d\x7d\x7d"

def switchLib : DocumentLib where
  toString _ := switchText
  fromSlice text := if text = switchText then some (writeDocument (switchDocument none)) else none
  readDouble x := x

theorem published_document_kept_switch :
    parseDocument switchLib switchBytes switchText = .ok (switchDocument none) := by
  have hword : WordDocument (switchDocument none) := ⟨⟨trivial,trivial⟩,nofun⟩
  have hlevels : levels (writeDocument (switchDocument none)) < recursionLimit := by decide
  have htext : switchLib.SpellsBack (switchDocument none) := by
    have hdoubles : reparse switchLib.readDouble (writeDocument (switchDocument none)) =
        writeDocument (switchDocument none) := rfl
    rw [DocumentLib.SpellsBack, if_pos hlevels, hdoubles]
    simp only [switchLib, if_true]
  have hunused : (switchDocument none).UnusedEmpty := by
    unfold UiDocument.UnusedEmpty
    decide
  obtain ⟨-,-,-,hkept⟩ := published_document_kept switchLib hword htext
  exact (hkept switchBytes (by decide +kernel) (by rfl)).2 hunused hlevels rfl

end Floatile.Sdk
