import Floatile.Core.Instance
import Floatile.UiSchema.Patch
import Floatile.Core.Install

/-! The form of the control panel: the configuration of an instance as texts, one for each
property of its schema, and the configuration that is read back from them. -/
namespace Floatile.Shell.ConfigForm

open Floatile.Core
open Floatile.Lib
open Floatile.UiSchema (Sorted SortedFields)

/-- JSON texts and the texts of doubles are read and written by external functions. -/
structure TextLib where
  toString : Json → Option String
  fromStr : String → Option Json
  parseF64 : String → Option Float

inductive ConfigFieldKind where
  | string
  | integer
  | number
  | boolean
  | json
  | rootJson
  deriving DecidableEq

structure ConfigField where
  key : String
  label : String
  kind : ConfigFieldKind
  value : String
  required : Bool
  present : Bool
  deriving DecidableEq

inductive ControlError where
  | invalidField (key : String)
  | config (error : InstanceModelError)
  deriving DecidableEq

section Schema

/-- The value under a key of an object. -/
def getKey (value : Json) (key : String) : Option Json :=
  value.asObject.bind (SortedMap.find key)

/-- Replaces a tilde with a digit after it. -/
def replaceTilde (digit c : Char) : List Char → List Char
  | [] => []
  | [x] => [x]
  | x :: y :: rest =>
    if x = '~' ∧ y = digit then c :: replaceTilde digit c rest
    else x :: replaceTilde digit c (y :: rest)

def pointerToken (segment : String) : String :=
  String.ofList (replaceTilde '0' '~' (replaceTilde '1' '/' segment.toList))

/-- The index that a token is, without a sign or leading zeros. -/
def parseIndex (token : String) : Option ℕ :=
  if Text.startsWith token "+" || (Text.startsWith token "0" && Text.byteLen token ≠ 1) then none
  else Text.parseU64 token

def pointerStep (value : Json) (token : String) : Option Json :=
  match value with
  | .object fields => SortedMap.find token fields
  | .array items => (parseIndex token).bind (fun i => items[i]?)
  | .null | .bool _ | .number _ | .string _ => none

/-- A JSON pointer: the empty text, or segments that each follow a slash. -/
def pointer (value : Json) (text : String) : Option Json :=
  if text.isEmpty then some value
  else if Text.startsWith text "/" then
    (((Text.splitChar text '/').drop 1).map pointerToken).foldlM pointerStep value
  else none

/-- A reference into the same document is followed once. -/
def resolveSchema (root schema : Json) : Json :=
  match (getKey schema "$ref").bind Json.asStr with
  | none => schema
  | some reference =>
    match Text.stripPrefix reference "#" with
    | none => schema
    | some path => (pointer root path).getD schema

def fieldKind (schema : Json) : ConfigFieldKind :=
  match (getKey schema "type").bind Json.asStr with
  | some "string" => .string
  | some "integer" => .integer
  | some "number" => .number
  | some "boolean" => .boolean
  | _ => .json

def compositionKeywords : List String :=
  ["allOf","anyOf","oneOf","if","then","else","patternProperties"]

/-- The properties that have a field each, unless the whole configuration is one text. -/
def shownProperties (schema : Json) (config : Option InstanceConfig) :
    Option (List (String × Json)) :=
  match (getKey schema "properties").bind Json.asObject with
  | none => none
  | some properties =>
    let hasComposition := compositionKeywords.any (fun keyword => (getKey schema keyword).isSome)
    let hasUnrepresentedValues := config.any (fun config =>
      config.fields.any (fun e => (SortedMap.find e.1 properties).isNone))
    if hasComposition || hasUnrepresentedValues then none else some properties

def requiredKeys (schema : Json) : List String :=
  (((getKey schema "required").bind Json.asArray).getD []).filterMap Json.asStr

end Schema

variable (lib : TextLib) (configLib : ConfigLib)

def fieldValue (kind : ConfigFieldKind) (value : Json) : String :=
  match kind, value with
  | .string, .string text => text
  | _, _ => (lib.toString value).getD ""

def rootConfigField (config : Option InstanceConfig) : List ConfigField :=
  [{ key := ""
     label := "完整配置"
     kind := .rootJson
     value := config.elim "\x7b\x7d" (fun config => fieldValue lib .rootJson config.toValue)
     required := true
     present := true }]

/-- The field of one property. A property that is not set shows its default. -/
def formField (schema : Json) (config : Option InstanceConfig) (entry : String × Json) :
    ConfigField :=
  let (key,property) := entry
  let fieldSchema := resolveSchema schema property
  let kind := fieldKind fieldSchema
  let existing := config.bind (fun config => SortedMap.find key config.fields)
  let default := getKey fieldSchema "default"
  let required := (requiredKeys schema).contains key
  { key := key
    label := ((getKey fieldSchema "title").bind Json.asStr).getD key
    kind := kind
    value := (existing.or default).elim "" (fieldValue lib kind)
    required := required
    present := existing.isSome || default.isSome || required }

/-- The fields come by increasing key, as the properties do. -/
def formFields (schema : Option Json) (config : Option InstanceConfig) : List ConfigField :=
  match schema with
  | none => []
  | some schema =>
    match shownProperties schema config with
    | none => rootConfigField lib config
    | some properties => properties.map (formField lib schema config)

/-- The number that a 64-bit integer becomes. -/
def numberOfI64 (n : ℤ) : Number :=
  if 0 ≤ n then .posInt (UInt64.ofNat n.toNat) else .negInt (Int64.ofInt n)

def numberOfF64 (x : Float) : Option Number := if x.isFinite then some (.float x) else none

def parseBool (text : String) : Option Bool :=
  if text = "true" then some true else if text = "false" then some false else none

/-- The value that a text stands for in a field of a kind. -/
def readValue (kind : ConfigFieldKind) (text : String) : Option Json :=
  match kind with
  | .string => some (.string text)
  | .integer => (Text.parseI64 text).map (fun n => .number (numberOfI64 n))
  | .number => ((lib.parseF64 text).bind numberOfF64).map .number
  | .boolean => (parseBool text).map .bool
  | .json | .rootJson => lib.fromStr text

def readField (key : String) (kind : ConfigFieldKind) (text : String) :
    Except ControlError Json :=
  match readValue lib kind text with
  | some value => .ok value
  | none => .error (.invalidField key)

def readEntry (field : ConfigField) : Except ControlError (String × Json) := do
  let value ← readField lib field.key field.kind field.value
  .ok (field.key,value)

def configFromFields (fields : List ConfigField) : Except ControlError InstanceConfig := do
  match fields.find? (fun field => field.kind = .rootJson) with
  | some root =>
    let value ← readField lib "<root>" .rootJson root.value
    (InstanceConfig.new configLib value).mapError .config
  | none =>
    let shown := fields.filter (fun field => field.present || field.required)
    let entries ← shown.mapM (readEntry lib)
    (InstanceConfig.new configLib (.object (SortedMap.ofList entries))).mapError .config

section RoundTrip

/-- The value is read back from its JSON text. -/
def TextSurvives (value : Json) : Prop := lib.fromStr ((lib.toString value).getD "") = some value

/-- The values that a field of a kind keeps: the typed ones in one representation each. -/
def Survives (kind : ConfigFieldKind) (value : Json) : Prop :=
  match kind with
  | .string => ∃ text, value = .string text
  | .integer => ∃ n, (-2^63 ≤ n ∧ n < 2^63) ∧ value = .number (numberOfI64 n)
  | .number => ∃ x : Float, x.isFinite = true ∧ value = .number (.float x)
  | .boolean => ∃ b, value = .bool b
  | .json | .rootJson => TextSurvives lib value

/-- A value that is set survives its field, and no default stands in for one that is not. -/
def Kept (schema : Json) (config : InstanceConfig) (entry : String × Json) : Prop :=
  let fieldSchema := resolveSchema schema entry.2
  match SortedMap.find entry.1 config.fields with
  | some value => Survives lib (fieldKind fieldSchema) value
  | none => getKey fieldSchema "default" = none ∧ entry.1 ∉ requiredKeys schema

/-- Without a schema there is nothing to set; the whole configuration or each of its values is
kept. -/
def Presentable (schema : Option Json) (config : InstanceConfig) : Prop :=
  match schema with
  | none => config.fields = []
  | some schema =>
    match shownProperties schema (some config) with
    | none => TextSurvives lib config.toValue
    | some properties => ∀ entry ∈ properties, Kept lib schema config entry

/-- How the library writes integers and truth values, and the doubles of a configuration. -/
structure Writes (config : InstanceConfig) : Prop where
  integer : ∀ n : ℤ, -2^63 ≤ n → n < 2^63 →
    lib.toString (.number (numberOfI64 n)) = some (ToString.toString n)
  boolean : ∀ b, lib.toString (.bool b) = some (if b then "true" else "false")
  double : ∀ entry ∈ config.fields, ∀ x : Float, x.isFinite = true →
    entry.2 = .number (.float x) →
    ∃ text, lib.toString entry.2 = some text ∧ lib.parseF64 text = some x

variable {lib configLib} {schema : Json} {config : InstanceConfig}

theorem readValue_fieldValue (hwrites : Writes lib config) {entry : String × Json}
    (hentry : entry ∈ config.fields) (kind : ConfigFieldKind) :
    readValue lib kind (fieldValue lib kind entry.2) = some entry.2 ↔
      Survives lib kind entry.2 := by
  cases kind with
  | string =>
    simp only [readValue, Option.some.injEq, Survives]
    constructor
    · exact fun h => ⟨_,h.symm⟩
    · rintro ⟨text,h⟩
      rw [h]
      rfl
  | integer =>
    simp only [readValue, Option.map_eq_some_iff, Survives, Text.parseI64,
      Option.filter_eq_some_iff, decide_eq_true_eq]
    constructor
    · rintro ⟨n,⟨-,hrange⟩,h⟩
      exact ⟨n,hrange,h.symm⟩
    · rintro ⟨n,hrange,h⟩
      have htext : fieldValue lib .integer entry.2 = ToString.toString n := by
        rw [h, fieldValue, hwrites.integer n hrange.1 hrange.2]
        · rfl
        · simp
      have hparse := Text.parseI64_toString hrange.1 hrange.2
      rw [Text.parseI64, Option.filter_eq_some_iff, ← htext] at hparse
      exact ⟨n,⟨hparse.1,hrange⟩,h.symm⟩
  | number =>
    simp only [readValue, Option.map_eq_some_iff, Option.bind_eq_some_iff, numberOfF64,
      Option.ite_none_right_eq_some, Option.some.injEq, Survives]
    constructor
    · rintro ⟨number,⟨x,-,hfinite,rfl⟩,h⟩
      exact ⟨x,hfinite,h.symm⟩
    · rintro ⟨x,hfinite,h⟩
      obtain ⟨text,htext,hparse⟩ := hwrites.double entry hentry x hfinite h
      have hvalue : fieldValue lib .number entry.2 = text := by
        rw [h] at htext ⊢
        rw [fieldValue, htext]
        · rfl
        · simp
      exact ⟨.float x,⟨x,hvalue ▸ hparse,hfinite,rfl⟩,h.symm⟩
  | boolean =>
    simp only [readValue, Option.map_eq_some_iff, Survives]
    constructor
    · rintro ⟨b,-,h⟩
      exact ⟨b,h.symm⟩
    · rintro ⟨b,h⟩
      have htext : fieldValue lib .boolean entry.2 = if b then "true" else "false" := by
        rw [h, fieldValue, hwrites.boolean b]
        · rfl
        · simp
      refine ⟨b,?_,h.symm⟩
      rw [htext]
      cases b <;> rfl
  | json => simp [readValue, Survives, TextSurvives, fieldValue]
  | rootJson => simp [readValue, Survives, TextSurvives, fieldValue]

theorem readEntry_eq_ok {field : ConfigField} {entry : String × Json} :
    readEntry lib field = .ok entry ↔
      entry.1 = field.key ∧ readValue lib field.kind field.value = some entry.2 := by
  obtain ⟨key,value⟩ := entry
  simp only [readEntry, readField]
  cases readValue lib field.kind field.value with
  | none => simp
  | some value' => simp [eq_comm]

/-- A configuration is made of exactly the fields it is made from. -/
theorem new_eq_ok_iff (hconfig : InstanceConfig.new configLib config.toValue = .ok config)
    {value : Json} : (InstanceConfig.new configLib value).mapError ControlError.config =
      .ok config ↔ value = config.toValue := by
  rw [Checked.mapError_eq_ok]
  constructor
  · intro h
    cases value with
    | object fields =>
      simp only [InstanceConfig.new, Json.asObject, Checked.bind_eq_ok] at h
      obtain ⟨_,-,_,-,h⟩ := h
      split_ifs at h
      rw [← Except.ok.inj h]
      rfl
    | _ => cases h
  · rintro rfl
    exact hconfig

/-- A property is shown as a field if it is set, has a default or is required. -/
def Shows (schema : Json) (config : InstanceConfig) (entry : String × Json) : Prop :=
  (SortedMap.find entry.1 config.fields).isSome ∨
    (getKey (resolveSchema schema entry.2) "default").isSome ∨ entry.1 ∈ requiredKeys schema

theorem present_formField (entry : String × Json) :
    ((formField lib schema (some config) entry).present ||
      (formField lib schema (some config) entry).required) = true ↔
      Shows schema config entry := by
  simp only [formField, Shows, Option.bind_some, Bool.or_eq_true, List.contains_iff_mem]
  tauto

theorem kind_formField (entry : String × Json) :
    (formField lib schema (some config) entry).kind ≠ .rootJson := by
  simp only [formField, fieldKind]
  split <;> simp

/-- The texts of the properties that are set are those of their values. -/
theorem value_formField {entry : String × Json} {value : Json}
    (h : SortedMap.find entry.1 config.fields = some value) :
    (formField lib schema (some config) entry).value =
      fieldValue lib (fieldKind (resolveSchema schema entry.2)) value := by
  simp [formField, h]

theorem keys_of_mapM {fields : List ConfigField} {entries : List (String × Json)}
    (h : fields.mapM (readEntry lib) = .ok entries) :
    entries.map Prod.fst = fields.map ConfigField.key := by
  have hall := (Checked.mapM_eq_ok_iff _ _ _).mp h
  clear h
  induction hall with
  | nil => rfl
  | cons hentry _ ih => rw [List.map_cons, List.map_cons, ih, (readEntry_eq_ok.mp hentry).1]

/-- The fields that are read back. -/
def shownFields (lib : TextLib) (schema : Json) (config : InstanceConfig)
    (properties : List (String × Json)) : List ConfigField :=
  (properties.map (formField lib schema (some config))).filter
    (fun field => field.present || field.required)

theorem mem_shownFields {properties : List (String × Json)} {field : ConfigField} :
    field ∈ shownFields lib schema config properties ↔
      ∃ entry ∈ properties, Shows schema config entry ∧
        formField lib schema (some config) entry = field := by
  simp only [shownFields, List.mem_filter, List.mem_map]
  constructor
  · rintro ⟨⟨entry,hentry,rfl⟩,hpresent⟩
    exact ⟨entry,hentry,(present_formField entry).mp hpresent,rfl⟩
  · rintro ⟨entry,hentry,hshows,rfl⟩
    exact ⟨⟨entry,hentry,rfl⟩,(present_formField entry).mpr hshows⟩

theorem ordered_of_mapM {properties entries : List (String × Json)}
    (hproperties : SortedMap.Ordered properties)
    (h : (shownFields lib schema config properties).mapM (readEntry lib) = .ok entries) :
    SortedMap.Ordered entries := by
  have hkeys : ((properties.map (formField lib schema (some config))).map
      ConfigField.key).Pairwise (fun j k => j < k) := by
    rw [List.map_map]
    exact List.pairwise_map.mpr hproperties
  have hshown := (List.pairwise_map.mp hkeys).sublist
    (List.filter_sublist (p := fun field => field.present || field.required))
  exact List.pairwise_map.mp (keys_of_mapM h ▸ List.pairwise_map.mpr hshown)

/-- What becomes of the field of a property that is shown. -/
theorem readEntry_formField (hwrites : Writes lib config) {entry : String × Json} {value : Json}
    (hfind : SortedMap.find entry.1 config.fields = some value) :
    readEntry lib (formField lib schema (some config) entry) = .ok (entry.1,value) ↔
      Survives lib (fieldKind (resolveSchema schema entry.2)) value := by
  rw [readEntry_eq_ok, value_formField hfind]
  exact (and_iff_right rfl).trans
    (readValue_fieldValue hwrites (SortedMap.mem_of_find hfind) _)

theorem kept_of_set {entry : String × Json} {value : Json}
    (hfind : SortedMap.find entry.1 config.fields = some value) :
    Kept lib schema config entry ↔
      Survives lib (fieldKind (resolveSchema schema entry.2)) value := by
  simp [Kept, hfind]

theorem kept_of_unset {entry : String × Json}
    (hfind : SortedMap.find entry.1 config.fields = none) :
    Kept lib schema config entry ↔ ¬Shows schema config entry := by
  simp [Kept, Shows, hfind]

/-- The values that are set are read back if they survive and nothing else is shown. -/
theorem mapM_shownFields (hwrites : Writes lib config)
    (hconfig : SortedMap.Ordered config.fields) {properties : List (String × Json)}
    (hproperties : SortedMap.Ordered properties)
    (hrepresented : ∀ e ∈ config.fields, (SortedMap.find e.1 properties).isSome) :
    (shownFields lib schema config properties).mapM (readEntry lib) = .ok config.fields ↔
      ∀ entry ∈ properties, Kept lib schema config entry := by
  constructor
  · intro hread entry hentry
    have hshown : Shows schema config entry → ∃ e ∈ config.fields,
        readEntry lib (formField lib schema (some config) entry) = .ok e :=
      fun h => Checked.exists_mem_of_mapM hread (mem_shownFields.mpr ⟨entry,hentry,h,rfl⟩)
    cases hfind : SortedMap.find entry.1 config.fields with
    | some value =>
      obtain ⟨e,he,hentry⟩ := hshown (Or.inl (by simp [hfind]))
      have hkey : e.1 = entry.1 := (readEntry_eq_ok.mp hentry).1
      have hsame : e.2 = value :=
        Option.some.inj ((SortedMap.find_of_mem hconfig he).symm.trans (hkey ▸ hfind))
      rw [kept_of_set hfind, ← readEntry_formField hwrites hfind, hentry, ← hkey, ← hsame]
    | none =>
      refine (kept_of_unset hfind).mpr fun h => ?_
      obtain ⟨e,he,hentry⟩ := hshown h
      have hkey : e.1 = entry.1 := (readEntry_eq_ok.mp hentry).1
      have hsome := SortedMap.find_isSome_of_mem he
      rw [hkey, hfind] at hsome
      cases hsome
  · intro hall
    -- every shown field is read back as a field of the configuration
    have hread : ∀ field ∈ shownFields lib schema config properties,
        ∃ e ∈ config.fields, readEntry lib field = .ok e := by
      intro field hfield
      obtain ⟨entry,hentry,hshows,rfl⟩ := mem_shownFields.mp hfield
      have hentry := hall entry hentry
      cases hfind : SortedMap.find entry.1 config.fields with
      | some value =>
        exact ⟨(entry.1,value),SortedMap.mem_of_find hfind,
          (readEntry_formField hwrites hfind).mpr ((kept_of_set hfind).mp hentry)⟩
      | none => exact absurd hshows ((kept_of_unset hfind).mp hentry)
    have hok := Checked.mapM_eq_ok_of_forall (fun field hfield =>
      (hread field hfield).imp fun _ h => h.2)
    set entries := (shownFields lib schema config properties).filterMap
      (fun field => (readEntry lib field).toOption) with hentries
    have hordered := ordered_of_mapM hproperties hok
    have hsub : ∀ e ∈ entries, e ∈ config.fields := by
      intro e he
      obtain ⟨field,hfield,hfieldRead⟩ := Checked.exists_of_mem_mapM hok he
      obtain ⟨e',he',hfieldRead'⟩ := hread field hfield
      rwa [Except.ok.inj (hfieldRead.symm.trans hfieldRead')]
    have hsup : ∀ e ∈ config.fields, e ∈ entries := by
      intro e he
      obtain ⟨property,hproperty⟩ := Option.isSome_iff_exists.mp (hrepresented e he)
      have hfind := SortedMap.find_of_mem hconfig he
      have hshown : formField lib schema (some config) (e.1,property) ∈
          shownFields lib schema config properties := mem_shownFields.mpr
        ⟨_,SortedMap.mem_of_find hproperty,Or.inl (by simp [hfind]),rfl⟩
      obtain ⟨e',he',hfieldRead⟩ := Checked.exists_mem_of_mapM hok hshown
      have hkey : e'.1 = e.1 := (readEntry_eq_ok.mp hfieldRead).1
      have hsame := (SortedMap.find_of_mem hconfig (hsub e' he')).symm.trans (hkey ▸ hfind)
      rwa [← Prod.ext hkey (Option.some.inj hsame)]
    rw [hok, Except.ok.injEq]
    refine SortedMap.eq_of_find_eq hordered hconfig fun key => ?_
    cases hfind : SortedMap.find key config.fields with
    | some value => exact SortedMap.find_of_mem hordered (hsup _ (SortedMap.mem_of_find hfind))
    | none =>
      by_contra hne
      obtain ⟨value,hvalue⟩ := Option.ne_none_iff_exists'.mp hne
      have hsome := SortedMap.find_isSome_of_mem (hsub _ (SortedMap.mem_of_find hvalue))
      rw [hfind] at hsome
      cases hsome

/-- The properties of a sorted schema, all the values of the configuration among them. -/
theorem shownProperties_eq_some (hschema : Sorted schema) {properties : List (String × Json)}
    (h : shownProperties schema (some config) = some properties) :
    SortedMap.Ordered properties ∧
      ∀ e ∈ config.fields, (SortedMap.find e.1 properties).isSome := by
  unfold shownProperties at h
  split at h
  · cases h
  · rename_i found hfound
    obtain ⟨value,hvalue,hobject⟩ := Option.bind_eq_some_iff.mp hfound
    obtain ⟨fields,hfields,hfind⟩ := Option.bind_eq_some_iff.mp hvalue
    have hsorted : Sorted value := by
      have hinside := (Sorted.asObject hschema).2.find "properties"
      rwa [hfields, Option.getD_some, hfind, Option.getD_some] at hinside
    dsimp only at h
    split_ifs at h with hroot
    obtain rfl := Option.some.inj h
    simp only [Bool.or_eq_true, not_or, Option.any_some, List.any_eq_true, not_exists, not_and,
      Option.isNone_iff_eq_none] at hroot
    refine ⟨?_,fun e he => Option.isSome_iff_ne_none.mpr (hroot.2 e he)⟩
    have hordered := (Sorted.asObject hsorted).1
    rwa [hobject] at hordered

theorem configFromFields_root
    (hconfig : InstanceConfig.new configLib config.toValue = .ok config)
    (hshown : shownProperties schema (some config) = none) :
    configFromFields lib configLib (formFields lib (some schema) (some config)) = .ok config ↔
      TextSurvives lib config.toValue := by
  have hread : configFromFields lib configLib (rootConfigField lib (some config)) =
      (readField lib "<root>" .rootJson (fieldValue lib .rootJson config.toValue) >>=
        fun value => (InstanceConfig.new configLib value).mapError .config) := rfl
  have hvalue : readValue lib .rootJson (fieldValue lib .rootJson config.toValue) =
      lib.fromStr ((lib.toString config.toValue).getD "") := by
    simp [readValue, fieldValue]
  simp only [formFields, hshown, hread, readField, hvalue, TextSurvives]
  cases lib.fromStr ((lib.toString config.toValue).getD "") with
  | none => simp
  | some value => rw [Checked.ok_bind, new_eq_ok_iff hconfig, Option.some.injEq]

theorem configFromFields_shown
    (hconfig : InstanceConfig.new configLib config.toValue = .ok config)
    (hsorted : Sorted config.toValue) (hschema : Sorted schema) (hwrites : Writes lib config)
    {properties : List (String × Json)}
    (hshown : shownProperties schema (some config) = some properties) :
    configFromFields lib configLib (formFields lib (some schema) (some config)) = .ok config ↔
      ∀ entry ∈ properties, Kept lib schema config entry := by
  obtain ⟨hordered,hrepresented⟩ := shownProperties_eq_some hschema hshown
  have hroot : (properties.map (formField lib schema (some config))).find?
      (fun field => field.kind = .rootJson) = none := by
    refine List.find?_eq_none.mpr fun field hfield => ?_
    obtain ⟨entry,-,rfl⟩ := List.mem_map.mp hfield
    simpa using kind_formField entry
  refine Iff.trans ?_ (mapM_shownFields hwrites hsorted.1 hordered hrepresented)
  simp only [formFields, hshown, configFromFields, hroot, Checked.bind_eq_ok]
  constructor
  · rintro ⟨entries,hread,hnew⟩
    rw [SortedMap.ofList_of_ordered (ordered_of_mapM hordered hread),
      new_eq_ok_iff hconfig] at hnew
    exact Json.object.inj hnew ▸ hread
  · intro hread
    refine ⟨config.fields,hread,?_⟩
    rw [SortedMap.ofList_of_ordered hsorted.1, new_eq_ok_iff hconfig]
    rfl

/-- The form gives a configuration back, when it is read as it was built, if and only if all its
values survive their fields and no default takes the place of a property that is not set. -/
theorem form_round_trip_iff (lib : TextLib) (configLib : ConfigLib) (schema : Option Json)
    (config : InstanceConfig)
    (hconfig : InstanceConfig.new configLib config.toValue = .ok config)
    (hsorted : Sorted config.toValue) (hschema : ∀ s ∈ schema, Sorted s)
    (hwrites : Writes lib config) :
    configFromFields lib configLib (formFields lib schema (some config)) = .ok config ↔
      Presentable lib schema config := by
  cases schema with
  | none =>
    have hread : configFromFields lib configLib (formFields lib none (some config)) =
        (InstanceConfig.new configLib (.object [])).mapError .config := rfl
    rw [hread, new_eq_ok_iff hconfig]
    simp [InstanceConfig.toValue, Presentable, eq_comm]
  | some schema =>
    simp only [Presentable]
    cases hshown : shownProperties schema (some config) with
    | none => exact configFromFields_root hconfig hshown
    | some properties =>
      exact configFromFields_shown hconfig hsorted (hschema schema rfl) hwrites hshown

end RoundTrip

/-- A 64-bit integer is a number of that value. -/
theorem asI64_numberOfI64 {n : ℤ} (hlo : -2^63 ≤ n) (hhi : n < 2^63) :
    (numberOfI64 n).asI64 = some n := by
  unfold numberOfI64
  split_ifs with h
  · have hnat : (UInt64.ofNat n.toNat).toNat = n.toNat := by
      rw [UInt64.toNat_ofNat', Nat.mod_eq_of_lt (by omega)]
    simp only [Number.asI64, hnat]
    rw [if_pos (by omega), Int.toNat_of_nonneg h]
  · have hint : (Int64.ofInt n).toInt = n := Int64.toInt_ofInt_of_le hlo hhi
    simp only [Number.asI64, hint]

/-- A schema with one property of a type. -/
def scaleSchema (type : String) : Json :=
  .object [("properties",.object [("scale",.object [("type",.string type)])]),
    ("type",.string "object")]

def scaleConfig : InstanceConfig := ⟨[("scale",.number (.posInt 1))],by decide⟩

/-- JSON texts of integers and truth values. -/
def scaleTexts : TextLib where
  toString
    | .number n => n.asI64.map ToString.toString
    | .bool b => some (if b then "true" else "false")
    | _ => none
  fromStr text := (Text.parseI64 text).map (fun n => .number (numberOfI64 n))
  parseF64 text := (Text.parseI64 text).map Float.ofInt

/-- The libraries on the configuration, which the schema accepts with either type of number. -/
def scaleLib : ConfigLib where
  toVec
    | [("scale",.number (.posInt 1))] => .ok (utf8 "\x7b\"scale\":1\x7d")
    | _ => .error "unexpected field"
  fromSlice _ := none
  validatorFor _ := some (fun
    | .object [("scale",.number (.posInt _))] => []
    | _ => [""])

theorem writes_scaleTexts : Writes scaleTexts scaleConfig where
  integer n hlo hhi := by
    simp only [scaleTexts, asI64_numberOfI64 hlo hhi]
    rfl
  boolean b := rfl
  double := by simp [scaleConfig]

theorem sorted_scale (type : String) : Sorted (scaleSchema type) ∧ Sorted scaleConfig.toValue := by
  have hkeys : ("properties" : String) < "type" := by decide
  refine ⟨⟨List.pairwise_pair.mpr hkeys,?_⟩,?_⟩
  · simp [Sorted, SortedFields, SortedMap.Ordered]
  · simp [scaleConfig, InstanceConfig.toValue, Sorted, SortedFields, SortedMap.Ordered]

/-- As an integer the value is kept. -/
theorem form_round_trip_integer :
    configFromFields scaleTexts scaleLib
        (formFields scaleTexts (some (scaleSchema "integer")) (some scaleConfig)) =
      .ok scaleConfig := by
  refine (form_round_trip_iff scaleTexts scaleLib (some (scaleSchema "integer")) scaleConfig rfl
    (sorted_scale "integer").2 (fun s hs => Option.some.inj hs ▸ (sorted_scale "integer").1)
    writes_scaleTexts).mpr ?_
  have hkept : Kept scaleTexts (scaleSchema "integer") scaleConfig
      ("scale",.object [("type",.string "integer")]) := ⟨1,by decide,rfl⟩
  exact List.forall_mem_singleton.mpr hkept

/-- As a number the value comes back as another one, although the schema accepts it. -/
theorem form_changes_number :
    scaleConfig.validateSchema scaleLib (scaleSchema "number") = .ok () ∧
    InstanceConfig.new scaleLib scaleConfig.toValue = .ok scaleConfig ∧
    configFromFields scaleTexts scaleLib
        (formFields scaleTexts (some (scaleSchema "number")) (some scaleConfig)) ≠
      .ok scaleConfig := by
  refine ⟨rfl,rfl,?_⟩
  intro h
  have hall := (configFromFields_shown rfl (sorted_scale "number").2 (sorted_scale "number").1
    writes_scaleTexts rfl).mp h
  have hkept : Kept scaleTexts (scaleSchema "number") scaleConfig
      ("scale",.object [("type",.string "number")]) := List.forall_mem_singleton.mp hall
  obtain ⟨x,-,hx⟩ := hkept
  cases hx

end Floatile.Shell.ConfigForm
