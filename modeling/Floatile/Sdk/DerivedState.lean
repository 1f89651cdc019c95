import Floatile.UiSchema.Ir
import Floatile.UiSchema.Meets
import Floatile.UiSchema.StateDepth
import Mathlib.Data.List.Nodup

/-! The `State` derive of the Rust SDK: the schema and the initial value that it generates for a
struct from the types of its fields, and the document that is built from both. -/
namespace Floatile.Sdk

open Floatile.Core
open Floatile.Lib
open Floatile.UiSchema

/-- An identifier. A raw one is printed with a prefix, which is not part of the name that the JSON
library writes. -/
structure Ident where
  name : String
  raw : Bool
  plain : '#' ∉ name.toList

def Ident.text (ident : Ident) : String :=
  if ident.raw then "r#" ++ ident.name else ident.name

/-- The types of fields, as the derive tells them apart; `state` stands for another struct that
derives `State`, by its name. -/
inductive FieldType where
  | string
  | bool
  | integer
  | float
  | vec (item : FieldType)
  | option (inner : FieldType)
  | state (name : String)
  deriving DecidableEq

def FieldType.isOptionType : FieldType → Bool
  | .option _ => true
  | _ => false

/-- A field; `skipNone` tells whether the JSON library is told to skip it when it is `None`. -/
structure StateField where
  ident : Ident
  type : FieldType
  skipNone : Bool := false

/-- A struct with named fields; two fields of a struct have different names. -/
structure StateStruct where
  fields : List StateField
  distinct : (fields.map (fun f => f.ident.name)).Nodup

/-- The structs of a program by name; a program that names a struct defines it. -/
abbrev Structs := String → StateStruct

/-- A map with one entry for each item, unless one of them has no value. -/
def collect {ξ α : Type} (key : ξ → String) (value : ξ → Option α) :
    List (String × α) → List ξ → Option (List (String × α))
  | m, [] => some m
  | m, x :: xs => do
    let a ← value x
    collect key value (SortedMap.insert (key x) a m) xs

section Derive

variable (structs : Structs)

/-- The schema of a type; `schemaOf` is that of the other structs. -/
def typeToSchema (schemaOf : String → Option JsonSchema) : FieldType → Option JsonSchema
  | .string => some (.string (some 64))
  | .bool => some .boolean
  | .integer => some .integer
  | .float => some .number
  | .vec item => (typeToSchema schemaOf item).map (.array (some 16))
  | .option inner => typeToSchema schemaOf inner
  | .state name => schemaOf name

/-- `State::schema` of a struct. The call does not return if a struct mentions itself; `fuel`
bounds the depth of the calls. -/
def schema : ℕ → String → Option JsonSchema
  | 0, _ => none
  | fuel + 1, name => do
    let fields := (structs name).fields
    let properties ← collect (fun f => f.ident.text)
      (fun f => typeToSchema (schema fuel) f.type) [] fields
    some (.object ((fields.filter (fun f => !f.type.isOptionType)).map (fun f => f.ident.text))
      properties false)

/-- The default value of a type, as the JSON library writes it. -/
def typeToDefault (initialOf : String → Option Json) : FieldType → Option Json
  | .string => some (.string "")
  | .bool => some (.bool false)
  | .integer => some (.number (.posInt 0))
  | .float => some (.number (.float 0.0))
  | .vec _ => some (.array [])
  | .option _ => some .null
  | .state name => initialOf name

def StateField.written (f : StateField) : Bool := !(f.skipNone && f.type.isOptionType)

/-- `State::initial` of a struct, as the JSON library writes it. -/
def initial : ℕ → String → Option Json
  | 0, _ => none
  | fuel + 1, name => do
    let fields := (structs name).fields.filter StateField.written
    let values ← collect (fun f => f.ident.name)
      (fun f => typeToDefault (initial fuel) f.type) [] fields
    some (.object values)

def uiApiVersion : String := "1.6.0"

def intoDocument (root : Component) (schema : JsonSchema) (initial : Json)
    (events : OrdMap String EventSchema) : UiDocument :=
  ⟨uiApiVersion,⟨initial,schema⟩,events,root⟩

/-- The document of a widget with a struct as its state and `view` as its view. -/
def buildFtui (fuel : ℕ) (name : String) (view : Json → Component)
    (events : OrdMap String EventSchema) : Option UiDocument := do
  let state ← initial structs fuel name
  let schema ← schema structs fuel name
  some (intoDocument (view state) schema state events)

end Derive

theorem Ident.text_eq_name_iff {i j : Ident} :
    i.text = j.name ↔ i.raw = false ∧ i.name = j.name := by
  unfold Ident.text
  cases hraw : i.raw with
  | false => simp
  | true =>
    simp only [if_true, Bool.true_eq_false, false_and, iff_false]
    intro h
    apply j.plain
    rw [← h, String.toList_append]
    exact List.mem_append_left _ (by decide)

theorem Ident.name_eq_of_text_eq {i j : Ident} (h : i.text = j.text) : i.name = j.name := by
  cases hj : j.raw with
  | false =>
    have hname : i.text = j.name := by rw [h, Ident.text, hj]; rfl
    exact (Ident.text_eq_name_iff.mp hname).2
  | true =>
    cases hi : i.raw with
    | false =>
      have hname : j.text = i.name := by rw [← h, Ident.text, hi]; rfl
      exact (Ident.text_eq_name_iff.mp hname).2.symm
    | true =>
      rw [Ident.text, Ident.text, hi, hj, if_pos rfl, if_pos rfl, String.ext_iff,
        String.toList_append, String.toList_append] at h
      exact String.ext_iff.mpr (List.append_cancel_left h)

namespace StateStruct

variable (d : StateStruct)

theorem eq_of_name_eq {f g : StateField} (hf : f ∈ d.fields) (hg : g ∈ d.fields)
    (h : f.ident.name = g.ident.name) : f = g :=
  List.inj_on_of_nodup_map d.distinct hf hg h

theorem distinct_texts : (d.fields.map (fun f => f.ident.text)).Nodup := by
  refine List.Nodup.map_on ?_ (List.Nodup.of_map _ d.distinct)
  intro f hf g hg h
  exact d.eq_of_name_eq hf hg (Ident.name_eq_of_text_eq h)

theorem distinct_written :
    ((d.fields.filter StateField.written).map (fun f => f.ident.name)).Nodup :=
  d.distinct.sublist (List.filter_sublist.map _)

end StateStruct

section Collect

variable {ξ α : Type} {key : ξ → String} {value : ξ → Option α}

theorem collect_cons {m m' : List (String × α)} {x : ξ} {xs : List ξ} :
    collect key value m (x :: xs) = some m' ↔
      ∃ a, value x = some a ∧ collect key value (SortedMap.insert (key x) a m) xs = some m' := by
  rw [collect, Option.bind_eq_bind, Option.bind_eq_some_iff]

/-- The map has the value of every item under its key, and what it had under other keys. -/
theorem find_collect {m m' : List (String × α)} {xs : List ξ}
    (h : collect key value m xs = some m') (hkeys : (xs.map key).Nodup) :
    (∀ x ∈ xs, ∃ a, value x = some a ∧ SortedMap.find (key x) m' = some a) ∧
      ∀ k, (∀ x ∈ xs, key x ≠ k) → SortedMap.find k m' = SortedMap.find k m := by
  induction xs generalizing m with
  | nil =>
    obtain rfl := Option.some.inj h
    exact ⟨by simp,fun k _ => rfl⟩
  | cons x xs ih =>
    obtain ⟨a,ha,hrest⟩ := collect_cons.mp h
    obtain ⟨hnew,hkeys⟩ := List.nodup_cons.mp hkeys
    obtain ⟨hfound,hother⟩ := ih hrest hkeys
    have hself : SortedMap.find (key x) m' = some a := by
      rw [hother _ fun y hy heq => hnew (List.mem_map.mpr ⟨y,hy,heq⟩), SortedMap.find_insert,
        if_pos rfl]
    refine ⟨List.forall_mem_cons.mpr ⟨⟨a,ha,hself⟩,hfound⟩,fun k hk => ?_⟩
    obtain ⟨hx,hxs⟩ := List.forall_mem_cons.mp hk
    rw [hother k hxs, SortedMap.find_insert, if_neg (Ne.symm hx)]

theorem ordered_collect {m m' : List (String × α)} {xs : List ξ} (hm : SortedMap.Ordered m)
    (h : collect key value m xs = some m') : SortedMap.Ordered m' := by
  induction xs generalizing m with
  | nil =>
    obtain rfl := Option.some.inj h
    exact hm
  | cons x xs ih =>
    obtain ⟨a,-,hrest⟩ := collect_cons.mp h
    exact ih (SortedMap.ordered_insert _ _ hm) hrest

/-- From nothing, the entries are those of the items. -/
theorem find_collect_nil_iff {m : List (String × α)} {xs : List ξ}
    (h : collect key value [] xs = some m) (hkeys : (xs.map key).Nodup) {k : String} {a : α} :
    SortedMap.find k m = some a ↔ ∃ x ∈ xs, key x = k ∧ value x = some a := by
  obtain ⟨hfound,hother⟩ := find_collect h hkeys
  constructor
  · intro hk
    by_cases hnone : ∀ x ∈ xs, key x ≠ k
    · rw [hother k hnone] at hk
      cases hk
    · push Not at hnone
      obtain ⟨x,hx,rfl⟩ := hnone
      obtain ⟨b,hb,hfind⟩ := hfound x hx
      exact ⟨x,hx,rfl,hb.trans (hfind.symm.trans hk)⟩
  · rintro ⟨x,hx,rfl,ha⟩
    obtain ⟨b,hb,hfind⟩ := hfound x hx
    exact hfind.trans (hb.symm.trans ha)

theorem mem_collect_nil_iff {m : List (String × α)} {xs : List ξ}
    (h : collect key value [] xs = some m) (hkeys : (xs.map key).Nodup) {e : String × α} :
    e ∈ m ↔ ∃ x ∈ xs, key x = e.1 ∧ value x = some e.2 := by
  rw [← find_collect_nil_iff h hkeys]
  exact ⟨SortedMap.find_of_mem (ordered_collect List.Pairwise.nil h),SortedMap.mem_of_find⟩

theorem exists_collect_iff {m : List (String × α)} {xs : List ξ} :
    (∃ m', collect key value m xs = some m') ↔ ∀ x ∈ xs, ∃ a, value x = some a := by
  induction xs generalizing m with
  | nil => simp [collect]
  | cons x xs ih =>
    simp only [collect_cons, List.forall_mem_cons]
    constructor
    · rintro ⟨m',a,ha,hrest⟩
      exact ⟨⟨a,ha⟩,ih.mp ⟨m',hrest⟩⟩
    · rintro ⟨⟨a,ha⟩,hxs⟩
      obtain ⟨m',hrest⟩ := ih.mpr hxs
      exact ⟨m',a,ha,hrest⟩

end Collect

theorem validateFields_eq_ok_iff {properties : List (String × JsonSchema)}
    {fields : List (String × Json)} {path : String} {depth : ℕ} :
    validateFields properties false fields path depth = .ok () ↔
      ∀ e ∈ fields, ∀ sub, SortedMap.find e.1 properties = some sub →
        validateValue sub e.2 (subPath path e.1) depth = .ok () := by
  induction fields with
  | nil => simp [validateFields]
  | cons e fields ih =>
    obtain ⟨key,value⟩ := e
    rw [validateFields, List.forall_mem_cons, ← ih]
    cases SortedMap.find key properties with
    | some sub => simp [Checked.check_bind_eq_ok]
    | none => simp

theorem validateValue_closed_iff {required : List String}
    {properties : List (String × JsonSchema)} {fields : List (String × Json)} {path : String}
    {depth : ℕ} :
    validateValue (.object required properties false) (.object fields) path depth = .ok () ↔
      depth ≤ maxStateDepth ∧
      (∀ e ∈ fields, ∃ sub, SortedMap.find e.1 properties = some sub ∧
        validateValue sub e.2 (subPath path e.1) (depth + 1) = .ok ()) ∧
      ∀ name ∈ required, (SortedMap.find name fields).isSome := by
  rw [validateValue, Checked.check_bind_eq_ok, ensureDepth_eq_ok]
  refine and_congr_right fun _ => ?_
  dsimp only
  rw [if_neg Bool.false_ne_true]
  simp only [Checked.check_bind_eq_ok, checkUnknown_eq_ok_iff, checkRequired_eq_ok_iff,
    validateFields_eq_ok_iff]
  constructor
  · rintro ⟨hknown,hrequired,hvalues⟩
    refine ⟨fun e he => ?_,hrequired⟩
    obtain ⟨sub,hsub⟩ := Option.isSome_iff_exists.mp (hknown e he)
    exact ⟨sub,hsub,hvalues e he sub hsub⟩
  · rintro ⟨hfields,hrequired⟩
    refine ⟨fun e he => ?_,hrequired,fun e he sub hsub => ?_⟩
    · obtain ⟨sub,hsub,-⟩ := hfields e he
      exact Option.isSome_iff_exists.mpr ⟨sub,hsub⟩
    · obtain ⟨sub',hsub',hvalue⟩ := hfields e he
      obtain rfl := Option.some.inj (hsub.symm.trans hsub')
      exact hvalue

/-- The struct that a type mentions, if it mentions one. -/
def FieldType.mentioned : FieldType → Option String
  | .vec item => item.mentioned
  | .option inner => inner.mentioned
  | .state name => some name
  | _ => none

section Derived

variable (structs : Structs)

/-- A struct mentions another in the type of a field. -/
def Mentions (inner outer : String) : Prop :=
  ∃ f ∈ (structs outer).fields, f.type.mentioned = some inner

/-- The type of a field that is written: it is not optional, and its value fits into the given
number of levels; `plain` says so of another struct. -/
def PlainType (levels : ℕ) (plain : String → Prop) : FieldType → Prop
  | .option _ => False
  | .state inner => plain inner
  | _ => 0 < levels

/-- No field that is written is optional or has a raw name, in the struct itself and in the
structs nested in it, which fit into the given number of levels. -/
def Plain : ℕ → String → Prop
  | 0, _ => False
  | levels + 1, name => ∀ f ∈ (structs name).fields, f.written = true →
    f.ident.raw = false ∧ PlainType levels (Plain levels) f.type

/-- A document can be built and its initial state passes. -/
def Consistent (name : String) (view : Json → Component) (events : OrdMap String EventSchema) :
    Prop :=
  ∃ fuel doc, buildFtui structs fuel name view events = some doc ∧
    validateValue doc.state.schema doc.state.initial "$" 0 = .ok ()

variable {structs}

theorem schema_eq_some {fuel : ℕ} {name : String} {sch : JsonSchema}
    (h : schema structs fuel name = some sch) : ∃ fuel' required properties,
      fuel = fuel' + 1 ∧ sch = .object required properties false ∧
      required = ((structs name).fields.filter (fun f => !f.type.isOptionType)).map
        (fun f => f.ident.text) ∧
      collect (fun f => f.ident.text) (fun f => typeToSchema (schema structs fuel') f.type) []
        (structs name).fields = some properties := by
  cases fuel with
  | zero => cases h
  | succ fuel' =>
    rw [schema, Option.bind_eq_bind, Option.bind_eq_some_iff] at h
    obtain ⟨properties,hproperties,h⟩ := h
    exact ⟨fuel',_,properties,rfl,(Option.some.inj h).symm,rfl,hproperties⟩

theorem initial_eq_some {fuel : ℕ} {name : String} {state : Json}
    (h : initial structs fuel name = some state) : ∃ fuel' values,
      fuel = fuel' + 1 ∧ state = .object values ∧
      collect (fun f => f.ident.name) (fun f => typeToDefault (initial structs fuel') f.type) []
        ((structs name).fields.filter StateField.written) = some values := by
  cases fuel with
  | zero => cases h
  | succ fuel' =>
    rw [initial, Option.bind_eq_bind, Option.bind_eq_some_iff] at h
    obtain ⟨values,hvalues,h⟩ := h
    exact ⟨fuel',values,rfl,(Option.some.inj h).symm,hvalues⟩

/-- No type has the schema of `null`. -/
theorem typeToSchema_ne_null {fuel : ℕ} {type : FieldType} {sch : JsonSchema}
    (h : typeToSchema (schema structs fuel) type = some sch) : sch ≠ .null := by
  induction type generalizing sch with
  | string | bool | integer | float =>
    obtain rfl := Option.some.inj h
    simp
  | vec item =>
    obtain ⟨items,-,rfl⟩ := Option.map_eq_some_iff.mp h
    simp
  | option inner ih => exact ih h
  | state name =>
    obtain ⟨_,_,_,-,rfl,-⟩ := schema_eq_some h
    simp

/-- The default value of a type against its schema, given the same for structs. -/
theorem validate_default_iff {fuel fuel' levels depth : ℕ} {path : String} {type : FieldType}
    {sch : JsonSchema} {value : Json} (hlevels : depth + levels = maxStateDepth + 1)
    (hstruct : ∀ inner sch value, schema structs fuel inner = some sch →
      initial structs fuel' inner = some value →
      (validateValue sch value path depth = .ok () ↔ Plain structs levels inner))
    (hsch : typeToSchema (schema structs fuel) type = some sch)
    (hvalue : typeToDefault (initial structs fuel') type = some value) :
    validateValue sch value path depth = .ok () ↔
      PlainType levels (Plain structs levels) type := by
  have hdepth : depth ≤ maxStateDepth ↔ 0 < levels := by omega
  cases type with
  | string =>
    obtain rfl := Option.some.inj hsch
    obtain rfl := Option.some.inj hvalue
    simp [validateValue, Checked.check_bind_eq_ok, ensureDepth_eq_ok, checkMax, Text.charCount,
      PlainType, hdepth]
  | bool =>
    obtain rfl := Option.some.inj hsch
    obtain rfl := Option.some.inj hvalue
    simp [validateValue, Checked.check_bind_eq_ok, ensureDepth_eq_ok, PlainType, hdepth]
  | integer =>
    obtain rfl := Option.some.inj hsch
    obtain rfl := Option.some.inj hvalue
    simp [validateValue, Checked.check_bind_eq_ok, ensureDepth_eq_ok, Number.asU64, PlainType,
      hdepth]
  | float =>
    obtain rfl := Option.some.inj hsch
    obtain rfl := Option.some.inj hvalue
    simp [validateValue, Checked.check_bind_eq_ok, ensureDepth_eq_ok, PlainType, hdepth]
  | vec item =>
    obtain ⟨items,-,rfl⟩ := Option.map_eq_some_iff.mp hsch
    obtain rfl := Option.some.inj hvalue
    simp [validateValue, Checked.check_bind_eq_ok, ensureDepth_eq_ok, checkMax, validateItems,
      PlainType, hdepth]
  | option inner =>
    obtain rfl := Option.some.inj hvalue
    refine iff_of_false (fun h => ?_) id
    have hnull := typeToSchema_ne_null hsch
    cases sch <;> simp [validateValue, Checked.check_bind_eq_ok, typeMismatch] at h hnull
  | state inner => exact hstruct inner sch value hsch hvalue

/-- Induction on the calls: a struct's initial value is accepted exactly if it is plain. -/
theorem validate_initial_iff {fuel fuel' levels depth : ℕ} {path name : String} {sch : JsonSchema}
    {value : Json} (hlevels : depth + levels = maxStateDepth + 1)
    (hsch : schema structs fuel name = some sch)
    (hvalue : initial structs fuel' name = some value) :
    validateValue sch value path depth = .ok () ↔ Plain structs levels name := by
  induction fuel generalizing fuel' levels depth path name sch value with
  | zero => cases hsch
  | succ fuel ih =>
    obtain ⟨_,required,properties,hfuel,rfl,hrequired,hproperties⟩ := schema_eq_some hsch
    obtain rfl := Nat.succ.inj hfuel
    obtain ⟨fuel',values,rfl,rfl,hvalues⟩ := initial_eq_some hvalue
    have hproperty {key : String} {sub : JsonSchema} :=
      find_collect_nil_iff hproperties (structs name).distinct_texts (k := key) (a := sub)
    have hwritten {e : String × Json} :=
      mem_collect_nil_iff hvalues (structs name).distinct_written (e := e)
    rw [validateValue_closed_iff]
    cases levels with
    | zero =>
      refine iff_of_false (fun h => ?_) id
      omega
    | succ levels =>
      have hlevels' : depth + 1 + levels = maxStateDepth + 1 := by omega
      constructor
      · rintro ⟨-,haccepted,-⟩ f hf hwrite
        have hmem := List.mem_filter.mpr ⟨hf,hwrite⟩
        obtain ⟨v,hv,-⟩ := (find_collect hvalues (structs name).distinct_written).1 f hmem
        obtain ⟨sub,hsub,haccepted⟩ := haccepted (f.ident.name,v) (hwritten.mpr ⟨f,hmem,rfl,hv⟩)
        obtain ⟨g,hg,htext,hgsub⟩ := hproperty.mp hsub
        obtain ⟨hraw,hname⟩ := Ident.text_eq_name_iff.mp htext
        obtain rfl := (structs name).eq_of_name_eq hg hf hname
        exact ⟨hraw,(validate_default_iff hlevels' (fun _ _ _ hs hv => ih hlevels' hs hv) hgsub
          hv).mp haccepted⟩
      · intro hplain
        refine ⟨by omega,fun e he => ?_,fun n hn => ?_⟩
        · obtain ⟨f,hmem,hname,hv⟩ := hwritten.mp he
          obtain ⟨hf,hwrite⟩ := List.mem_filter.mp hmem
          obtain ⟨hraw,hfield⟩ := hplain f hf hwrite
          obtain ⟨sub,hsub,hfind⟩ := (find_collect hproperties
            (structs name).distinct_texts).1 f hf
          rw [Ident.text_eq_name_iff.mpr ⟨hraw,rfl⟩, hname] at hfind
          exact ⟨sub,hfind,(validate_default_iff hlevels' (fun _ _ _ hs hv => ih hlevels' hs hv)
            hsub hv).mpr hfield⟩
        · rw [hrequired, List.mem_map] at hn
          obtain ⟨f,hf,rfl⟩ := hn
          obtain ⟨hf,hoption⟩ := List.mem_filter.mp hf
          have hwrite : f.written = true := by
            rw [Bool.not_eq_true'] at hoption
            rw [StateField.written, hoption, Bool.and_false]
            rfl
          obtain ⟨hraw,-⟩ := hplain f hf hwrite
          obtain ⟨v,-,hfind⟩ := (find_collect hvalues (structs name).distinct_written).1 f
            (List.mem_filter.mpr ⟨hf,hwrite⟩)
          rw [Ident.text_eq_name_iff.mpr ⟨hraw,rfl⟩, hfind]
          rfl

/-- A bound for every item of a list is a bound for all of them. -/
theorem exists_common_bound {α : Type} {P : α → ℕ → Prop} {xs : List α}
    (h : ∀ x ∈ xs, ∃ bound, ∀ n, bound ≤ n → P x n) :
    ∃ bound, ∀ n, bound ≤ n → ∀ x ∈ xs, P x n := by
  induction xs with
  | nil => exact ⟨0,by simp⟩
  | cons x xs ih =>
    obtain ⟨hx,hxs⟩ := List.forall_mem_cons.mp h
    obtain ⟨bound,hbound⟩ := hx
    obtain ⟨bound',hbound'⟩ := ih hxs
    refine ⟨max bound bound',fun n hn => List.forall_mem_cons.mpr ⟨?_,?_⟩⟩
    · exact hbound n ((le_max_left _ _).trans hn)
    · exact hbound' n ((le_max_right _ _).trans hn)

theorem exists_typeToSchema_iff {fuel : ℕ} {type : FieldType} :
    (∃ sch, typeToSchema (schema structs fuel) type = some sch) ↔
      ∀ inner, type.mentioned = some inner → ∃ sch, schema structs fuel inner = some sch := by
  induction type with
  | string | bool | integer | float => simp [typeToSchema, FieldType.mentioned]
  | vec item ih => simp [typeToSchema, FieldType.mentioned, ← ih]
  | option inner ih => simpa [typeToSchema, FieldType.mentioned] using ih
  | state name => simp [typeToSchema, FieldType.mentioned]

/-- A struct has a schema only if the structs that it mentions have. -/
theorem acc_of_schema {fuel : ℕ} {name : String} {sch : JsonSchema}
    (h : schema structs fuel name = some sch) : Acc (Mentions structs) name := by
  induction fuel generalizing name sch with
  | zero => cases h
  | succ fuel ih =>
    obtain ⟨_,_,_,hfuel,-,-,hproperties⟩ := schema_eq_some h
    obtain rfl := Nat.succ.inj hfuel
    constructor
    rintro inner ⟨f,hf,hmentioned⟩
    obtain ⟨sub,hsub⟩ := exists_collect_iff.mp ⟨_,hproperties⟩ f hf
    obtain ⟨sch',hsch'⟩ := exists_typeToSchema_iff.mp ⟨sub,hsub⟩ inner hmentioned
    exact ih hsch'

/-- With enough fuel both calls return for a struct that does not contain itself. -/
theorem exists_schema_and_initial {name : String} (h : Acc (Mentions structs) name) :
    ∃ bound, ∀ fuel, bound ≤ fuel →
      (∃ sch, schema structs fuel name = some sch) ∧
      ∃ state, initial structs fuel name = some state := by
  induction h with
  | intro name _ ih =>
    have hfields : ∀ f ∈ (structs name).fields, ∃ bound, ∀ fuel, bound ≤ fuel →
        (∃ sub, typeToSchema (schema structs fuel) f.type = some sub) ∧
        ∃ v, typeToDefault (initial structs fuel) f.type = some v := by
      intro f hf
      cases hmentioned : f.type.mentioned with
      | none =>
        refine ⟨0,fun fuel _ => ⟨exists_typeToSchema_iff.mpr (by simp [hmentioned]),?_⟩⟩
        cases htype : f.type <;> simp_all [typeToDefault, FieldType.mentioned]
      | some inner =>
        obtain ⟨bound,hbound⟩ := ih inner ⟨f,hf,hmentioned⟩
        refine ⟨bound,fun fuel hfuel => ⟨exists_typeToSchema_iff.mpr ?_,?_⟩⟩
        · intro inner' hinner'
          obtain rfl := Option.some.inj (hmentioned.symm.trans hinner')
          exact (hbound fuel hfuel).1
        · cases htype : f.type with
          | state name' =>
            rw [htype] at hmentioned
            obtain rfl := Option.some.inj hmentioned
            exact (hbound fuel hfuel).2
          | string | bool | integer | float | vec | option => exact ⟨_,rfl⟩
    obtain ⟨bound,hbound⟩ := exists_common_bound hfields
    refine ⟨bound + 1,fun fuel hfuel => ?_⟩
    cases fuel with
    | zero => omega
    | succ fuel =>
      have hall := hbound fuel (Nat.le_of_succ_le_succ hfuel)
      constructor
      · obtain ⟨properties,hproperties⟩ := exists_collect_iff.mpr fun f hf => (hall f hf).1
        exact ⟨_,by rw [schema, hproperties]; rfl⟩
      · obtain ⟨values,hvalues⟩ := exists_collect_iff.mpr
          fun f hf => (hall f (List.mem_filter.mp hf).1).2
        exact ⟨_,by rw [initial, hvalues]; rfl⟩

theorem buildFtui_eq_some_iff {fuel : ℕ} {name : String} {view : Json → Component}
    {events : OrdMap String EventSchema} {doc : UiDocument} :
    buildFtui structs fuel name view events = some doc ↔ ∃ state sch,
      initial structs fuel name = some state ∧ schema structs fuel name = some sch ∧
      doc = intoDocument (view state) sch state events := by
  simp only [buildFtui, Option.bind_eq_bind, Option.bind_eq_some_iff, Option.some.injEq]
  constructor
  · rintro ⟨state,hstate,sch,hsch,rfl⟩
    exact ⟨state,sch,hstate,hsch,rfl⟩
  · rintro ⟨state,sch,hstate,hsch,rfl⟩
    exact ⟨state,hstate,sch,hsch,rfl⟩

theorem plain_of_consistent {name : String} {view : Json → Component}
    {events : OrdMap String EventSchema} (h : Consistent structs name view events) :
    Acc (Mentions structs) name ∧ Plain structs (maxStateDepth + 1) name := by
  obtain ⟨fuel,doc,hbuild,hvalid⟩ := h
  obtain ⟨state,sch,hstate,hsch,rfl⟩ := buildFtui_eq_some_iff.mp hbuild
  exact ⟨acc_of_schema hsch,(validate_initial_iff (Nat.zero_add _) hsch hstate).mp hvalid⟩

variable (structs) in
/-- The document of a struct is built with an initial state that its schema accepts, if and only
if the struct does not contain itself and is plain. -/
theorem derived_state_consistent_iff (name : String) (view : Json → Component)
    (events : OrdMap String EventSchema) : Consistent structs name view events ↔
      Acc (Mentions structs) name ∧ Plain structs (maxStateDepth + 1) name := by
  refine ⟨plain_of_consistent,?_⟩
  rintro ⟨hacc,hplain⟩
  obtain ⟨fuel,hreturns⟩ := exists_schema_and_initial hacc
  obtain ⟨⟨sch,hsch⟩,state,hstate⟩ := hreturns fuel (le_refl fuel)
  exact ⟨fuel,_,buildFtui_eq_some_iff.mpr ⟨state,sch,hstate,hsch,rfl⟩,
    (validate_initial_iff (Nat.zero_add _) hsch hstate).mpr hplain⟩

end Derived

/-- A state with an optional note. -/
def testState : StateStruct where
  fields := [⟨⟨"time",false,by decide⟩,.string,false⟩,⟨⟨"count",false,by decide⟩,.integer,false⟩,
    ⟨⟨"ratio",false,by decide⟩,.float,false⟩,⟨⟨"running",false,by decide⟩,.bool,false⟩,
    ⟨⟨"zones",false,by decide⟩,.vec .string,false⟩,
    ⟨⟨"note",false,by decide⟩,.option .string,false⟩]
  distinct := by decide

def emptyColumn : Component where
  kind := "Column"
  props := OrdMap.empty
  children := []
  events := OrdMap.empty
  when_ := none
  then_ := none
  else_ := none
  items := none
  key := none
  template := none

/-- Its initial value has a `null` where the schema wants a text. -/
theorem testState_refused :
    (∃ doc, buildFtui (fun _ => testState) 1 "TestState" (fun _ => emptyColumn) OrdMap.empty =
        some doc ∧ validateValue doc.state.schema doc.state.initial "$" 0 =
        .error (.invalidState "$.note: 类型不匹配，期望 string，实际 null")) ∧
    ¬Consistent (fun _ => testState) "TestState" (fun _ => emptyColumn) OrdMap.empty := by
  refine ⟨⟨_,rfl,rfl⟩,fun h => ?_⟩
  exact ((plain_of_consistent h).2 ⟨⟨"note",false,by decide⟩,.option .string,false⟩ (by
    simp [testState]) rfl).2

end Floatile.Sdk
