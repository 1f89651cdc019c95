import Floatile.UiSchema.Wire

/-! What the code keeps of a document that is written with the documented names. -/
namespace Floatile.UiSchema.Wire

open Floatile.Lib
open Floatile.Core

mutual

/-- The schema without its limits on lengths and with open objects. -/
def unlimited : JsonSchema → JsonSchema
  | .string _ => .string none
  | .boolean => .boolean
  | .number => .number
  | .integer => .integer
  | .null => .null
  | .array _ items => .array none (unlimited items)
  | .object required properties _ => .object required (unlimitedFields properties) true

def unlimitedFields : List (String × JsonSchema) → List (String × JsonSchema)
  | [] => []
  | (key,schema) :: properties => (key,unlimited schema) :: unlimitedFields properties

end

theorem unlimitedFields_eq (properties : List (String × JsonSchema)) :
    unlimitedFields properties = SortedMap.mapValues unlimited properties := by
  induction properties with
  | nil => rfl
  | cons e properties ih =>
    obtain ⟨key,schema⟩ := e
    rw [unlimitedFields, ih]
    rfl

mutual

/-- The tree without the else branches of its If components. -/
def withoutElse : Component → Component
  | ⟨kind,props,children,events,when_,then_,_,items,key,template⟩ =>
    ⟨kind,props,withoutElseChildren children,events,when_,withoutElseBranch then_,none,items,key,
      withoutElseBranch template⟩

def withoutElseBranch : Option Component → Option Component
  | none => none
  | some comp => some (withoutElse comp)

def withoutElseChildren : List Component → List Component
  | [] => []
  | child :: children => withoutElse child :: withoutElseChildren children

end

theorem withoutElseBranch_eq (branch : Option Component) :
    withoutElseBranch branch = branch.map withoutElse := by
  cases branch <;> rfl

theorem withoutElseChildren_eq (children : List Component) :
    withoutElseChildren children = children.map withoutElse := by
  induction children with
  | nil => rfl
  | cons child children ih => rw [withoutElseChildren, ih, List.map_cons]

def unlimitedState (state : StateSchema) : StateSchema := ⟨state.initial,unlimited state.schema⟩

def unlimitedEvent (event : EventSchema) : EventSchema := ⟨unlimited event.payload⟩

/-- The document without limits and else branches. -/
def loosened (doc : UiDocument) : UiDocument where
  uiApiVersion := doc.uiApiVersion
  state := unlimitedState doc.state
  events := doc.events.mapValues unlimitedEvent
  root := withoutElse doc.root

/-- The field of an object has a property. -/
def under (key : String) (q : Json → Bool) (value : Json) : Bool :=
  (value.asObject.bind (SortedMap.find key)).any q

/-- Some field of an object, whatever its key, has a property. -/
def inEntries (q : Json → Bool) (value : Json) : Bool :=
  (value.asObject.getD []).any (fun e => q e.2)

def inItems (q : Json → Bool) (value : Json) : Bool := (value.asArray.getD []).any q

/-- An object has a key outside a list. -/
def hasOther (keys : List String) (value : Json) : Bool :=
  (value.asObject.getD []).any (fun e => !keys.contains e.1)

def kindOf (value : Json) : Option String :=
  (value.asObject.bind (SortedMap.find "type")).bind Json.asStr

/-- Some object that is read as a schema has a property. -/
def someSchema (p : Json → Bool) : ℕ → Json → Bool
  | 0,_ => false
  | depth + 1,value =>
    p value || (kindOf value == some "array" && under "items" (someSchema p depth) value) ||
      (kindOf value == some "object" &&
        under "properties" (inEntries (someSchema p depth)) value)

/-- Some object that is read as a component has a property; the keys are those of its branches. -/
def someComponent (p : ℕ → Json → Bool) (branches : List String) : ℕ → Json → Bool
  | 0,_ => false
  | depth + 1,value =>
    p depth value || under "children" (inItems (someComponent p branches depth)) value ||
      branches.any (fun key => under key (someComponent p branches depth) value)

def schemaKeys (kind : String) : List String :=
  if kind = "string" then ["type","maxLength"]
  else if kind = "array" then ["type","maxItems","items"]
  else if kind = "object" then ["type","required","properties","additionalProperties"]
  else ["type"]

def unknownInSchema (value : Json) : Bool :=
  hasOther (schemaKeys ((kindOf value).getD "")) value

def unknownInBinding (value : Json) : Bool :=
  match readBinding value with
  | some (.state _) => hasOther ["bind"] value
  | some (.item _) => hasOther ["item"] value
  | none => false

def componentKeys : List String :=
  ["type","props","children","events","when","then","else","items","key","template"]

def unknownInComponent (_ : ℕ) (value : Json) : Bool :=
  hasOther componentKeys value || under "props" (inEntries unknownInBinding) value ||
    under "events" (inEntries (hasOther ["emit","payload"])) value ||
    under "when" unknownInBinding value || under "items" unknownInBinding value

/-- Some object of the document has a key that the documentation does not define for it. -/
def hasUnknownKey (value : Json) : Bool :=
  let unknownSchema := under "schema" (someSchema unknownInSchema recursionLimit)
  let unknownPayload := under "payload" (someSchema unknownInSchema recursionLimit)
  hasOther ["uiApiVersion","state","events","root"] value ||
    under "state" (fun state => hasOther ["initial","schema"] state || unknownSchema state) value ||
    under "events" (inEntries (fun event => hasOther ["payload"] event || unknownPayload event))
      value ||
    under "root"
      (someComponent unknownInComponent ["then","else","template"] recursionLimit) value

/-- A schema has the code's spelling of a limit with a value of another type. -/
def misreadInSchema (value : Json) : Bool :=
  let field (key : String) := value.asObject.bind (SortedMap.find key)
  (kindOf value == some "string" && (optional Json.asU64 (field derived.maxLength)).isNone) ||
    (kindOf value == some "array" && (optional Json.asU64 (field derived.maxItems)).isNone) ||
    (kindOf value == some "object" &&
      (defaulted Json.asBool true (field derived.additionalProperties)).isNone)

/-- A component has the code's spelling of the else branch with no component. -/
def misreadInComponent (depth : ℕ) (value : Json) : Bool :=
  (optional (readComponent derived depth)
    (value.asObject.bind (SortedMap.find derived.else_))).isNone

/-- Somewhere the code's own spelling, which the documentation does not define, has a value of
another type than the code expects. -/
def hasMisread (value : Json) : Bool :=
  let misreadSchema := someSchema misreadInSchema recursionLimit
  under "state" (under "schema" misreadSchema) value ||
    under "events" (inEntries (under "payload" misreadSchema)) value ||
    under "root" (someComponent misreadInComponent ["then","template"] recursionLimit) value

section Follows

variable {α β γ δ : Type} {clean : Prop}

/-- Where the first reading succeeds the second does too, and on clean input its result is
determined. -/
def Follows (clean : Prop) (f : α → β) (first : Option α) (second : Option β) : Prop :=
  ∀ a, first = some a → ∃ b, second = some b ∧ (clean → b = f a)

theorem Follows.mono {clean' : Prop} {f : α → β} {first : Option α} {second : Option β}
    (h : Follows clean f first second) (himp : clean' → clean) : Follows clean' f first second := by
  intro a ha
  obtain ⟨b,hb,hclean⟩ := h a ha
  exact ⟨b,hb,fun hc => hclean (himp hc)⟩

theorem follows_none (f : α → β) (second : Option β) : Follows clean f none second := by
  intro a ha
  cases ha

theorem Follows.mapM {f : α → β} {first : γ → Option α} {second : γ → Option β} {xs : List γ}
    (h : ∀ x ∈ xs, Follows clean f (first x) (second x)) :
    Follows clean (List.map f) (xs.mapM first) (xs.mapM second) := by
  induction xs with
  | nil =>
    intro as has
    obtain rfl := Option.some.inj has
    exact ⟨[],rfl,fun _ => rfl⟩
  | cons x xs ih =>
    intro as has
    rw [List.forall_mem_cons] at h
    rw [List.mapM_cons] at has
    obtain ⟨a,ha,has⟩ := Option.bind_eq_some_iff.mp has
    obtain ⟨rest,hrest,has⟩ := Option.bind_eq_some_iff.mp has
    obtain rfl := Option.some.inj has
    obtain ⟨b,hb,hbclean⟩ := h.1 a ha
    obtain ⟨bs,hbs,hbsclean⟩ := ih h.2 rest hrest
    refine ⟨b :: bs,?_,fun hclean => ?_⟩
    · rw [List.mapM_cons, hb, hbs]
      rfl
    · rw [hbclean hclean, hbsclean hclean, List.map_cons]

theorem Follows.optional {f : α → β} {first : Json → Option α} {second : Json → Option β}
    {field : Option Json} (h : ∀ value, field = some value → Follows clean f (first value)
      (second value)) :
    Follows clean (Option.map f) (optional first field) (optional second field) := by
  intro a ha
  cases field with
  | none =>
    obtain rfl := Option.some.inj ha
    exact ⟨none,rfl,fun _ => rfl⟩
  | some value =>
    have hfollows := h value rfl
    cases value with
    | null =>
      obtain rfl := Option.some.inj ha
      exact ⟨none,rfl,fun _ => rfl⟩
    | bool | number | string | array | object =>
      obtain ⟨a',ha',rfl⟩ := Option.map_eq_some_iff.mp ha
      obtain ⟨b,hb,hclean⟩ := hfollows a' ha'
      refine ⟨some b,by simp [Wire.optional, hb],fun hc => ?_⟩
      rw [hclean hc, Option.map_some]

theorem Follows.defaulted {f : α → β} {first : Json → Option α} {second : Json → Option β}
    {default : α} {field : Option Json} (h : ∀ value, field = some value →
      Follows clean f (first value) (second value)) :
    Follows clean f (defaulted first default field) (defaulted second (f default) field) := by
  cases field with
  | none =>
    intro a ha
    obtain rfl := Option.some.inj ha
    exact ⟨f default,rfl,fun _ => rfl⟩
  | some value => exact h value rfl

theorem Follows.readList {f : α → β} {first : Json → Option α} {second : Json → Option β}
    {value : Json} (h : ∀ item ∈ value.asArray.getD [], Follows clean f (first item) (second item)) :
    Follows clean (List.map f) (readList first value) (readList second value) := by
  cases value with
  | array items => exact Follows.mapM h
  | null | bool | number | string | object => exact follows_none _ _

theorem Follows.readMap {f : α → β} {first : Json → Option α} {second : Json → Option β}
    {value : Json} (h : ∀ e ∈ value.asObject.getD [], Follows clean f (first e.2) (second e.2)) :
    Follows clean (SortedMap.mapValues f) (readMap first value) (readMap second value) := by
  cases value with
  | object fields =>
    refine Follows.mapM (f := fun e : String × α => (e.1,f e.2)) fun e he => ?_
    intro x hx
    obtain ⟨a,ha,rfl⟩ := Option.map_eq_some_iff.mp hx
    obtain ⟨b,hb,hclean⟩ := h e he a ha
    exact ⟨(e.1,b),by rw [hb, Option.map_some],fun hc => by rw [hclean hc]⟩
  | null | bool | number | string | array => exact follows_none _ _

end Follows

theorem under_eq_false {key : String} {q : Json → Bool} {fields : List (String × Json)} :
    under key q (.object fields) = false ↔
      ∀ value, SortedMap.find key fields = some value → q value = false := by
  cases h : SortedMap.find key fields <;> simp [under, Json.asObject, h]

theorem inEntries_eq_false {q : Json → Bool} {value : Json} :
    inEntries q value = false ↔ ∀ e ∈ value.asObject.getD [], q e.2 = false := by
  simp [inEntries]

theorem inItems_eq_false {q : Json → Bool} {value : Json} :
    inItems q value = false ↔ ∀ item ∈ value.asArray.getD [], q item = false := by
  simp [inItems]

/-- An object without other keys has no field under another key. -/
theorem find_eq_none_of_hasOther {keys : List String} {fields : List (String × Json)} {key : String}
    (h : hasOther keys (.object fields) = false) (hkey : key ∉ keys) :
    SortedMap.find key fields = none := by
  cases hfind : SortedMap.find key fields with
  | none => rfl
  | some value =>
    have hmem := SortedMap.mem_of_find hfind
    have hall : ∀ a b, (a,b) ∈ fields → a ∈ keys := by
      simpa [hasOther, Json.asObject] using h
    exact absurd (hall key value hmem) hkey

/-- The code reads the limits only under names that the documentation does not define. -/
theorem limit_follows {keys : List String} {first second : String} {read : Json → Option ℕ}
    {fields : List (String × Json)} (hsecond : second ∉ keys)
    (hread : (optional read (SortedMap.find second fields)).isNone = false) :
    Follows (hasOther keys (.object fields) = false) (fun _ => none)
      (optional read (SortedMap.find first fields))
      (optional read (SortedMap.find second fields)) := by
  intro limit _
  obtain ⟨limit',hlimit'⟩ := Option.isSome_iff_exists.mp (by simpa using hread)
  refine ⟨limit',hlimit',fun hclean => ?_⟩
  rw [find_eq_none_of_hasOther hclean hsecond] at hlimit'
  exact (Option.some.inj hlimit').symm

/-- The map of the properties, a missing one is empty. -/
theorem properties_follow {depth : ℕ} {fields : List (String × Json)} {clean : Prop}
    (h : ∀ value, SortedMap.find "properties" fields = some value →
      ∀ e ∈ value.asObject.getD [],
        Follows clean unlimited (readSchema documented depth e.2) (readSchema derived depth e.2)) :
    Follows clean unlimitedFields
      (defaulted (readMap (readSchema documented depth)) [] (SortedMap.find "properties" fields))
      (defaulted (readMap (readSchema derived depth)) [] (SortedMap.find "properties" fields)) := by
  have heq : unlimitedFields = SortedMap.mapValues unlimited := funext unlimitedFields_eq
  rw [heq]
  exact Follows.defaulted fun value hvalue => Follows.readMap (h value hvalue)

theorem schema_follows (depth : ℕ) (value : Json)
    (hread : someSchema misreadInSchema depth value = false) :
    Follows (someSchema unknownInSchema depth value = false) unlimited
      (readSchema documented depth value) (readSchema derived depth value) := by
  induction depth generalizing value with
  | zero => exact follows_none _ _
  | succ depth ih =>
    cases value with
    | null | bool | number | string | array => exact follows_none _ _
    | object fields =>
      intro schema h
      obtain ⟨kind,hkind,h⟩ := Option.bind_eq_some_iff.mp h
      have hkindOf : kindOf (.object fields) = some kind := hkind
      rw [readSchema, hkind, Option.bind_eq_bind, Option.bind_some]
      rw [someSchema, misreadInSchema, hkindOf] at hread
      rw [someSchema, unknownInSchema, hkindOf, Option.getD_some]
      simp only [Bool.or_eq_false_iff] at hread ⊢
      obtain ⟨⟨hmisread,hitems⟩,hproperties⟩ := hread
      split_ifs at h ⊢ with hstring hboolean hnumber hinteger hnull harray hobject
      · subst hstring
        obtain ⟨maxLength,hmax,hschema⟩ := Option.bind_eq_some_iff.mp h
        obtain rfl := Option.some.inj hschema
        have hlimit : (optional Json.asU64
            (SortedMap.find derived.maxLength fields)).isNone = false := by
          simpa [Json.asObject] using hmisread
        have hfollows : Follows (hasOther (schemaKeys "string") (.object fields) = false)
            (fun _ => none) (optional Json.asU64 (SortedMap.find documented.maxLength fields)) _ :=
          limit_follows (by decide) hlimit
        obtain ⟨limit,hlimit,hnone⟩ := hfollows maxLength hmax
        refine ⟨.string limit,by simp [hlimit],fun hclean => ?_⟩
        rw [hnone hclean.1.1, unlimited]
      · obtain rfl := Option.some.inj h
        exact ⟨_,rfl,fun _ => rfl⟩
      · obtain rfl := Option.some.inj h
        exact ⟨_,rfl,fun _ => rfl⟩
      · obtain rfl := Option.some.inj h
        exact ⟨_,rfl,fun _ => rfl⟩
      · obtain rfl := Option.some.inj h
        exact ⟨_,rfl,fun _ => rfl⟩
      · subst harray
        obtain ⟨maxItems,hmax,h⟩ := Option.bind_eq_some_iff.mp h
        obtain ⟨items,hitem,hschema⟩ := Option.bind_eq_some_iff.mp h
        obtain ⟨value,hvalue,hitem⟩ := Option.bind_eq_some_iff.mp hitem
        obtain rfl := Option.some.inj hschema
        have hlimit : (optional Json.asU64
            (SortedMap.find derived.maxItems fields)).isNone = false := by
          simpa [Json.asObject] using hmisread
        have hfollows : Follows (hasOther (schemaKeys "array") (.object fields) = false)
            (fun _ => none) (optional Json.asU64 (SortedMap.find documented.maxItems fields)) _ :=
          limit_follows (by decide) hlimit
        obtain ⟨limit,hlimit,hnone⟩ := hfollows maxItems hmax
        have hsub : someSchema misreadInSchema depth value = false :=
          under_eq_false.mp (by simpa using hitems) value hvalue
        obtain ⟨items',hitems',hsame⟩ := ih value hsub items hitem
        refine ⟨.array limit items',by simp [hlimit, hvalue, hitems'],?_⟩
        rintro ⟨⟨hkeys,hitemsClean⟩,-⟩
        have hclean : someSchema unknownInSchema depth value = false :=
          under_eq_false.mp (by simpa using hitemsClean) value hvalue
        rw [hnone hkeys, hsame hclean, unlimited]
      · subst hobject
        obtain ⟨required,hrequired,h⟩ := Option.bind_eq_some_iff.mp h
        obtain ⟨properties,hprops,h⟩ := Option.bind_eq_some_iff.mp h
        obtain ⟨additional,hadditional,hschema⟩ := Option.bind_eq_some_iff.mp h
        obtain rfl := Option.some.inj hschema
        have hsub := under_eq_false.mp (by simpa using hproperties)
        have hfollows := properties_follow fun value hvalue e he =>
          (ih e.2 (inEntries_eq_false.mp (hsub value hvalue) e he)).mono
            fun hclean : under "properties" (inEntries (someSchema unknownInSchema depth))
              (.object fields) = false =>
              inEntries_eq_false.mp (under_eq_false.mp hclean value hvalue) e he
        obtain ⟨properties',hproperties',hsame⟩ := hfollows properties hprops
        have hsome : (defaulted Json.asBool true
            (SortedMap.find derived.additionalProperties fields)).isSome := by
          simpa [Json.asObject] using hmisread
        obtain ⟨additional',hadditional'⟩ := Option.isSome_iff_exists.mp hsome
        refine ⟨.object required properties' additional',
          by simp [hrequired, hproperties', hadditional'],?_⟩
        rintro ⟨⟨hkeys,-⟩,hclean⟩
        rw [find_eq_none_of_hasOther hkeys (by decide)] at hadditional'
        obtain rfl := Option.some.inj hadditional'
        rw [hsame (by simpa using hclean), unlimited]

theorem children_follow {depth : ℕ} {fields : List (String × Json)} {clean : Prop}
    (h : ∀ value, SortedMap.find "children" fields = some value →
      ∀ item ∈ value.asArray.getD [],
        Follows clean withoutElse (readComponent documented depth item)
          (readComponent derived depth item)) :
    Follows clean withoutElseChildren
      (defaulted (readList (readComponent documented depth)) [] (SortedMap.find "children" fields))
      (defaulted (readList (readComponent derived depth)) []
        (SortedMap.find "children" fields)) := by
  have heq : withoutElseChildren = List.map withoutElse := funext withoutElseChildren_eq
  rw [heq]
  exact Follows.defaulted fun value hvalue => Follows.readList (h value hvalue)

theorem branch_follows {depth : ℕ} {field : Option Json} {clean : Prop}
    (h : ∀ value, field = some value →
      Follows clean withoutElse (readComponent documented depth value)
        (readComponent derived depth value)) :
    Follows clean withoutElseBranch (optional (readComponent documented depth) field)
      (optional (readComponent derived depth) field) := by
  have heq : withoutElseBranch = Option.map withoutElse := funext withoutElseBranch_eq
  rw [heq]
  exact Follows.optional h

theorem component_follows (depth : ℕ) (value : Json)
    (hread : someComponent misreadInComponent ["then","template"] depth value = false) :
    Follows (someComponent unknownInComponent ["then","else","template"] depth value = false)
      withoutElse (readComponent documented depth value) (readComponent derived depth value) := by
  induction depth generalizing value with
  | zero => exact follows_none _ _
  | succ depth ih =>
    cases value with
    | null | bool | number | string | array => exact follows_none _ _
    | object fields =>
      intro comp h
      obtain ⟨kind,hkind,h⟩ := Option.bind_eq_some_iff.mp h
      obtain ⟨props,hprops,h⟩ := Option.bind_eq_some_iff.mp h
      obtain ⟨children,hchildren,h⟩ := Option.bind_eq_some_iff.mp h
      obtain ⟨events,hevents,h⟩ := Option.bind_eq_some_iff.mp h
      obtain ⟨when_,hwhen,h⟩ := Option.bind_eq_some_iff.mp h
      obtain ⟨then_,hthen,h⟩ := Option.bind_eq_some_iff.mp h
      obtain ⟨else_,-,h⟩ := Option.bind_eq_some_iff.mp h
      obtain ⟨items,hitems,h⟩ := Option.bind_eq_some_iff.mp h
      obtain ⟨key,hkey,h⟩ := Option.bind_eq_some_iff.mp h
      obtain ⟨template,htemplate,h⟩ := Option.bind_eq_some_iff.mp h
      obtain rfl := Option.some.inj h
      rw [someComponent] at hread ⊢
      simp only [List.any_cons, List.any_nil, Bool.or_eq_false_iff, Bool.or_false] at hread ⊢
      obtain ⟨⟨hmisread,hsub⟩,hbranches⟩ := hread
      have hchild := children_follow fun value hvalue item hitem =>
        (ih item (inItems_eq_false.mp (under_eq_false.mp hsub value hvalue) item hitem)).mono
          fun hclean : under "children"
              (inItems (someComponent unknownInComponent ["then","else","template"] depth))
              (.object fields) = false =>
            inItems_eq_false.mp (under_eq_false.mp hclean value hvalue) item hitem
      have hbranch : ∀ name : String,
          under name (someComponent misreadInComponent ["then","template"] depth)
            (.object fields) = false →
          Follows (under name (someComponent unknownInComponent ["then","else","template"] depth)
            (.object fields) = false) withoutElseBranch
            (optional (readComponent documented depth) (SortedMap.find name fields))
            (optional (readComponent derived depth) (SortedMap.find name fields)) :=
        fun name hname => branch_follows fun value hvalue =>
          (ih value (under_eq_false.mp hname value hvalue)).mono
            fun hclean => under_eq_false.mp hclean value hvalue
      obtain ⟨children',hchildren',hchildrenSame⟩ := hchild children hchildren
      obtain ⟨then',hthen',hthenSame⟩ := hbranch "then" hbranches.1 then_ hthen
      obtain ⟨template',htemplate',htemplateSame⟩ :=
        hbranch "template" hbranches.2 template htemplate
      have hsome : (optional (readComponent derived depth)
          (SortedMap.find derived.else_ fields)).isSome := by
        simpa [misreadInComponent, Json.asObject] using hmisread
      obtain ⟨else',helse'⟩ := Option.isSome_iff_exists.mp hsome
      refine ⟨{
        kind := kind
        props := OrdMap.ofList props
        children := children'
        events := OrdMap.ofList events
        when_ := when_
        then_ := then'
        else_ := else'
        items := items
        key := key
        template := template' },?_,?_⟩
      · simp [readComponent, hkind, hprops, hchildren', hevents, hwhen, hthen', helse', hitems,
          hkey, htemplate']
      · rintro ⟨⟨hunknown,hchildrenClean⟩,hthenClean,-,htemplateClean⟩
        have hkeys : hasOther componentKeys (.object fields) = false := by
          rw [unknownInComponent] at hunknown
          simp only [Bool.or_eq_false_iff] at hunknown
          exact hunknown.1.1.1.1
        rw [find_eq_none_of_hasOther hkeys (by decide)] at helse'
        obtain rfl := Option.some.inj helse'
        rw [withoutElse, hchildrenSame hchildrenClean, hthenSame hthenClean,
          htemplateSame htemplateClean]

theorem under_eq_true {key : String} {q : Json → Bool} {fields : List (String × Json)}
    (h : under key q (.object fields) = true) :
    ∃ value, SortedMap.find key fields = some value ∧ q value = true :=
  (Option.any_eq_true _ _).mp h

theorem mapM_eq_none {α β : Type} {f : α → Option β} {xs : List α} {x : α} (hx : x ∈ xs)
    (h : f x = none) : xs.mapM f = none := by
  induction xs with
  | nil => cases hx
  | cons y ys ih =>
    rw [List.mapM_cons]
    rcases List.mem_cons.mp hx with rfl | hys
    · rw [h]
      rfl
    · rw [ih hys]
      cases f y <;> rfl

theorem readList_eq_none {α : Type} {read : Json → Option α} {q : Json → Bool} {value : Json}
    (hq : ∀ item, q item = true → read item = none) (h : inItems q value = true) :
    readList read value = none := by
  obtain ⟨item,hitem,hread⟩ := List.any_eq_true.mp h
  cases value with
  | array items => exact mapM_eq_none hitem (hq item hread)
  | null | bool | number | string | object => cases hitem

theorem readMap_eq_none {α : Type} {read : Json → Option α} {q : Json → Bool} {value : Json}
    (hq : ∀ item, q item = true → read item = none) (h : inEntries q value = true) :
    readMap read value = none := by
  obtain ⟨e,he,hread⟩ := List.any_eq_true.mp h
  cases value with
  | object fields => exact mapM_eq_none he (by rw [hq e.2 hread, Option.map_none])
  | null | bool | number | string | array => cases he

theorem schema_refused (depth : ℕ) (value : Json)
    (h : someSchema misreadInSchema depth value = true) : readSchema derived depth value = none := by
  induction depth generalizing value with
  | zero => rfl
  | succ depth ih =>
    cases value with
    | null | bool | number | string | array => rfl
    | object fields =>
      simp only [someSchema, misreadInSchema, Bool.or_eq_true, Bool.and_eq_true, beq_iff_eq,
        Option.isNone_iff_eq_none] at h
      rcases h with ((((⟨hkind,hnone⟩ | ⟨hkind,hnone⟩) | ⟨hkind,hnone⟩) | ⟨hkind,hsub⟩) | ⟨hkind,hsub⟩)
      · have hnone : optional Json.asU64 (SortedMap.find derived.maxLength fields) = none := hnone
        have hkind : (SortedMap.find "type" fields).bind Json.asStr = some "string" := hkind
        simp [readSchema, hkind, hnone]
      · have hnone : optional Json.asU64 (SortedMap.find derived.maxItems fields) = none := hnone
        have hkind : (SortedMap.find "type" fields).bind Json.asStr = some "array" := hkind
        simp [readSchema, hkind, hnone]
      · have hnone : defaulted Json.asBool true
            (SortedMap.find derived.additionalProperties fields) = none := hnone
        have hkind : (SortedMap.find "type" fields).bind Json.asStr = some "object" := hkind
        simp [readSchema, hkind, hnone]
      · obtain ⟨items,hitems,hmisread⟩ := under_eq_true hsub
        have hkind : (SortedMap.find "type" fields).bind Json.asStr = some "array" := hkind
        simp [readSchema, hkind, hitems, ih items hmisread]
      · obtain ⟨properties,hproperties,hmisread⟩ := under_eq_true hsub
        have hkind : (SortedMap.find "type" fields).bind Json.asStr = some "object" := hkind
        simp [readSchema, hkind, hproperties, defaulted, readMap_eq_none ih hmisread]

theorem optional_eq_none {α : Type} {read : Json → Option α} {value : Json}
    (hvalue : value ≠ .null) (h : read value = none) : optional read (some value) = none := by
  cases value with
  | null => exact absurd rfl hvalue
  | bool | number | string | array | object => simp [optional, h]

theorem someComponent_null (depth : ℕ) :
    someComponent misreadInComponent ["then","template"] depth .null = false := by
  cases depth <;> rfl

theorem component_refused (depth : ℕ) (value : Json)
    (h : someComponent misreadInComponent ["then","template"] depth value = true) :
    readComponent derived depth value = none := by
  induction depth generalizing value with
  | zero => rfl
  | succ depth ih =>
    cases value with
    | null | bool | number | string | array => rfl
    | object fields =>
      have hbranch : ∀ name, under name (someComponent misreadInComponent ["then","template"] depth)
          (.object fields) = true →
          optional (readComponent derived depth) (SortedMap.find name fields) = none := by
        intro name hname
        obtain ⟨value,hvalue,hmisread⟩ := under_eq_true hname
        rw [hvalue]
        have hvalue : value ≠ .null := by
          rintro rfl
          rw [someComponent_null] at hmisread
          cases hmisread
        exact optional_eq_none hvalue (ih value hmisread)
      simp only [someComponent, List.any_cons, List.any_nil, Bool.or_eq_true, Bool.or_false] at h
      rcases h with (hmisread | hsub) | (hthen | htemplate)
      · have hnone : optional (readComponent derived depth)
            (SortedMap.find derived.else_ fields) = none := Option.isNone_iff_eq_none.mp hmisread
        simp [readComponent, hnone]
      · obtain ⟨children,hchildren,hmisread⟩ := under_eq_true hsub
        simp [readComponent, hchildren, defaulted, readList_eq_none ih hmisread]
      · simp [readComponent, hbranch _ hthen]
      · simp [readComponent, hbranch _ htemplate]

theorem state_follows (value : Json)
    (hread : under "schema" (someSchema misreadInSchema recursionLimit) value = false) :
    Follows (under "schema" (someSchema unknownInSchema recursionLimit) value = false)
      unlimitedState (readStateSchema documented value) (readStateSchema derived value) := by
  cases value with
  | null | bool | number | string | array => exact follows_none _ _
  | object fields =>
    intro state h
    obtain ⟨initial,hinitial,h⟩ := Option.bind_eq_some_iff.mp h
    obtain ⟨schema,hschema,h⟩ := Option.bind_eq_some_iff.mp h
    obtain ⟨value,hvalue,hschema⟩ := Option.bind_eq_some_iff.mp hschema
    obtain rfl := Option.some.inj h
    obtain ⟨schema',hschema',hsame⟩ :=
      schema_follows _ value (under_eq_false.mp hread value hvalue) schema hschema
    refine ⟨⟨initial,schema'⟩,?_,fun hclean => ?_⟩
    · simp [readStateSchema, Json.asObject, hinitial, hvalue, hschema']
    · rw [hsame (under_eq_false.mp hclean value hvalue), unlimitedState]

theorem event_follows (value : Json)
    (hread : under "payload" (someSchema misreadInSchema recursionLimit) value = false) :
    Follows (under "payload" (someSchema unknownInSchema recursionLimit) value = false)
      unlimitedEvent (readEventSchema documented value) (readEventSchema derived value) := by
  cases value with
  | null | bool | number | string | array => exact follows_none _ _
  | object fields =>
    intro event h
    obtain ⟨payload,hpayload,h⟩ := Option.bind_eq_some_iff.mp h
    obtain ⟨value,hvalue,hpayload⟩ := Option.bind_eq_some_iff.mp hpayload
    obtain rfl := Option.some.inj h
    obtain ⟨payload',hpayload',hsame⟩ :=
      schema_follows _ value (under_eq_false.mp hread value hvalue) payload hpayload
    refine ⟨⟨payload'⟩,?_,fun hclean => ?_⟩
    · simp [readEventSchema, Json.asObject, hvalue, hpayload']
    · rw [hsame (under_eq_false.mp hclean value hvalue), unlimitedEvent]

theorem document_follows (value : Json) (hread : hasMisread value = false) :
    Follows (hasUnknownKey value = false) loosened (readDocument documented value)
      (readDocument derived value) := by
  cases value with
  | null | bool | number | string | array => exact follows_none _ _
  | object fields =>
    intro doc h
    obtain ⟨version,hversion,h⟩ := Option.bind_eq_some_iff.mp h
    obtain ⟨state,hstate,h⟩ := Option.bind_eq_some_iff.mp h
    obtain ⟨events,hevents,h⟩ := Option.bind_eq_some_iff.mp h
    obtain ⟨root,hroot,h⟩ := Option.bind_eq_some_iff.mp h
    obtain rfl := Option.some.inj h
    obtain ⟨stateValue,hstateValue,hstate⟩ := Option.bind_eq_some_iff.mp hstate
    obtain ⟨eventsValue,heventsValue,hevents⟩ := Option.bind_eq_some_iff.mp hevents
    obtain ⟨rootValue,hrootValue,hroot⟩ := Option.bind_eq_some_iff.mp hroot
    simp only [hasMisread, Bool.or_eq_false_iff, under_eq_false] at hread
    obtain ⟨⟨hmisState,hmisEvents⟩,hmisRoot⟩ := hread
    have hmisEvent := inEntries_eq_false.mp (hmisEvents eventsValue heventsValue)
    obtain ⟨state',hstate',hstateSame⟩ :=
      state_follows stateValue (hmisState stateValue hstateValue) state hstate
    obtain ⟨root',hroot',hrootSame⟩ :=
      component_follows _ rootValue (hmisRoot rootValue hrootValue) root hroot
    have hmap : Follows (inEntries (fun event => hasOther ["payload"] event ||
          under "payload" (someSchema unknownInSchema recursionLimit) event) eventsValue = false)
        (SortedMap.mapValues unlimitedEvent) (readMap (readEventSchema documented) eventsValue)
        (readMap (readEventSchema derived) eventsValue) := by
      refine Follows.readMap fun e he => (event_follows e.2 (hmisEvent e he)).mono fun hclean => ?_
      exact (Bool.or_eq_false_iff.mp (inEntries_eq_false.mp hclean e he)).2
    obtain ⟨events',hevents',heventsSame⟩ := hmap events hevents
    refine ⟨⟨version,state',OrdMap.ofList events',root'⟩,?_,fun hclean => ?_⟩
    · simp [readDocument, Json.asObject, hversion, hstateValue, hstate', heventsValue, hevents',
        hrootValue, hroot']
    · simp only [hasUnknownKey, Bool.or_eq_false_iff, under_eq_false] at hclean
      obtain ⟨⟨⟨-,hstateClean⟩,heventsClean⟩,hrootClean⟩ := hclean
      rw [hstateSame (hstateClean stateValue hstateValue).2,
        heventsSame (heventsClean eventsValue heventsValue),
        hrootSame (hrootClean rootValue hrootValue), loosened, OrdMap.ofList_mapValues]

theorem document_refused (value : Json) (h : hasMisread value = true) :
    readDocument derived value = none := by
  cases value with
  | null | bool | number | string | array => rfl
  | object fields =>
    simp only [hasMisread, Bool.or_eq_true] at h
    rcases h with (hstate | hevents) | hroot
    · obtain ⟨state,hfind,hmisread⟩ := under_eq_true hstate
      have hnone : readStateSchema derived state = none := by
        cases state with
        | null | bool | number | string | array => rfl
        | object stateFields =>
          obtain ⟨schema,hschema,hmisread⟩ := under_eq_true hmisread
          simp [readStateSchema, Json.asObject, hschema, schema_refused _ schema hmisread]
      simp [readDocument, Json.asObject, hfind, hnone]
    · obtain ⟨events,hfind,hmisread⟩ := under_eq_true hevents
      have hnone : ∀ event, under "payload" (someSchema misreadInSchema recursionLimit) event = true →
          readEventSchema derived event = none := by
        intro event hevent
        cases event with
        | null | bool | number | string | array => rfl
        | object eventFields =>
          obtain ⟨payload,hpayload,hmisread⟩ := under_eq_true hevent
          simp [readEventSchema, Json.asObject, hpayload, schema_refused _ payload hmisread]
      simp [readDocument, Json.asObject, hfind, readMap_eq_none hnone hmisread]
    · obtain ⟨root,hfind,hmisread⟩ := under_eq_true hroot
      simp [readDocument, Json.asObject, hfind, component_refused _ root hmisread]

theorem misreadInSchema_eq_false {value : Json} (h : unknownInSchema value = false) :
    misreadInSchema value = false := by
  cases value with
  | null | bool | number | string | array => rfl
  | object fields =>
    have hfind : ∀ kind key, kindOf (.object fields) = some kind → key ∉ schemaKeys kind →
        SortedMap.find key fields = none := by
      intro kind key hkind hkey
      rw [unknownInSchema, hkind] at h
      exact find_eq_none_of_hasOther h hkey
    simp only [misreadInSchema, Bool.or_eq_false_iff, Bool.and_eq_false_imp, beq_iff_eq,
      Json.asObject, Option.bind_some]
    refine ⟨⟨fun hkind => ?_,fun hkind => ?_⟩,fun hkind => ?_⟩
    · rw [hfind _ _ hkind (by decide), optional, Option.isNone_some]
    · rw [hfind _ _ hkind (by decide), optional, Option.isNone_some]
    · rw [hfind _ _ hkind (by decide), defaulted, Option.isNone_some]

theorem misreadInComponent_eq_false {depth : ℕ} {value : Json}
    (h : unknownInComponent depth value = false) : misreadInComponent depth value = false := by
  cases value with
  | null | bool | number | string | array => rfl
  | object fields =>
    simp only [unknownInComponent, Bool.or_eq_false_iff] at h
    have hfind : SortedMap.find derived.else_ fields = none :=
      find_eq_none_of_hasOther h.1.1.1.1 (by decide)
    rw [misreadInComponent, Json.asObject, Option.bind_some, hfind, optional, Option.isNone_some]

theorem under_mono {key : String} {p q : Json → Bool} {value : Json}
    (himp : ∀ sub, q sub = false → p sub = false) (h : under key q value = false) :
    under key p value = false := by
  rw [under, Option.any_eq_false] at h ⊢
  exact fun sub hsub => by simpa using himp sub (by simpa using h sub hsub)

theorem inEntries_mono {p q : Json → Bool} {value : Json}
    (himp : ∀ sub, q sub = false → p sub = false) (h : inEntries q value = false) :
    inEntries p value = false :=
  inEntries_eq_false.mpr fun e he => himp e.2 (inEntries_eq_false.mp h e he)

theorem inItems_mono {p q : Json → Bool} {value : Json}
    (himp : ∀ sub, q sub = false → p sub = false) (h : inItems q value = false) :
    inItems p value = false :=
  inItems_eq_false.mpr fun item hitem => himp item (inItems_eq_false.mp h item hitem)

theorem someSchema_mono {p q : Json → Bool} (himp : ∀ value, q value = false → p value = false)
    (depth : ℕ) (value : Json) (h : someSchema q depth value = false) :
    someSchema p depth value = false := by
  induction depth generalizing value with
  | zero => rfl
  | succ depth ih =>
    simp only [someSchema, Bool.or_eq_false_iff, Bool.and_eq_false_imp] at h ⊢
    obtain ⟨⟨hvalue,hitems⟩,hproperties⟩ := h
    exact ⟨⟨himp value hvalue,fun hkind => under_mono ih (hitems hkind)⟩,
      fun hkind => under_mono (fun _ => inEntries_mono ih) (hproperties hkind)⟩

theorem someComponent_mono {p q : ℕ → Json → Bool} {branches branches' : List String}
    (himp : ∀ depth value, q depth value = false → p depth value = false)
    (hbranches : branches ⊆ branches') (depth : ℕ) (value : Json)
    (h : someComponent q branches' depth value = false) :
    someComponent p branches depth value = false := by
  induction depth generalizing value with
  | zero => rfl
  | succ depth ih =>
    simp only [someComponent, Bool.or_eq_false_iff, List.any_eq_false, Bool.not_eq_true] at h ⊢
    obtain ⟨⟨hvalue,hchildren⟩,hrest⟩ := h
    exact ⟨⟨himp depth value hvalue,under_mono (fun _ => inItems_mono ih) hchildren⟩,
      fun key hkey => under_mono ih (hrest key (hbranches hkey))⟩

theorem hasMisread_eq_false {value : Json} (h : hasUnknownKey value = false) :
    hasMisread value = false := by
  simp only [hasUnknownKey, Bool.or_eq_false_iff] at h
  obtain ⟨⟨⟨-,hstate⟩,hevents⟩,hroot⟩ := h
  have hschema := someSchema_mono @misreadInSchema_eq_false recursionLimit
  simp only [hasMisread, Bool.or_eq_false_iff]
  refine ⟨⟨?_,?_⟩,?_⟩
  · exact under_mono
      (fun state hclean => under_mono hschema (Bool.or_eq_false_iff.mp hclean).2) hstate
  · exact under_mono (fun _ => inEntries_mono
      fun event hclean => under_mono hschema (Bool.or_eq_false_iff.mp hclean).2) hevents
  · exact under_mono
      (someComponent_mono @misreadInComponent_eq_false (by decide) recursionLimit) hroot

/-- The code's reading of a document keeps all that the documentation promises. -/
structure Kept (doc doc' : UiDocument) : Prop where
  limits : doc'.state.schema = doc.state.schema
  payloads : doc'.events = doc.events
  accepts : ∀ state, validateValue doc'.state.schema state "$" 0 = .ok () ↔
    validateValue doc.state.schema state "$" 0 = .ok ()
  branches : doc'.root = doc.root

/-- A document that means `doc` by the documentation is enforced as it is written. -/
def Enforced (value : Json) (doc : UiDocument) : Prop :=
  (hasUnknownKey value = false → ∃ doc', readDocument derived value = some doc' ∧ Kept doc doc') ∧
  (hasUnknownKey value = true → readDocument derived value = none)

/-- The code enforces the documents that state no limit and no else branch, and refuses an unknown
key only where it is one of its own spellings with a value of another type. -/
theorem enforced_iff {value : Json} {doc : UiDocument} (h : readDocument documented value = some doc) :
    Enforced value doc ↔
      (hasUnknownKey value = false ∧ loosened doc = doc) ∨ hasMisread value = true := by
  constructor
  · rintro ⟨hkept,hrefused⟩
    cases hmisread : hasMisread value with
    | true => exact Or.inr rfl
    | false =>
      left
      obtain ⟨doc',hdoc',hloosened⟩ := document_follows value hmisread doc h
      cases hunknown : hasUnknownKey value with
      | true =>
        rw [hrefused hunknown] at hdoc'
        cases hdoc'
      | false =>
        obtain ⟨doc'',hdoc'',hlimits,hpayloads,-,hbranches⟩ := hkept hunknown
        obtain rfl := Option.some.inj (hdoc'.symm.trans hdoc'')
        refine ⟨rfl,?_⟩
        rw [hloosened hunknown] at hlimits hpayloads hbranches
        cases doc
        simp only [loosened, unlimitedState] at hlimits hpayloads hbranches ⊢
        rw [hlimits, hpayloads, hbranches]
  · rintro (⟨hunknown,hloosened⟩ | hmisread)
    · obtain ⟨doc',hdoc',hsame⟩ := document_follows value (hasMisread_eq_false hunknown) doc h
      obtain rfl := (hsame hunknown).trans hloosened
      refine ⟨fun _ => ⟨doc',hdoc',rfl,rfl,fun _ => Iff.rfl,rfl⟩,fun hother => ?_⟩
      rw [hunknown] at hother
      cases hother
    · refine ⟨fun hunknown => ?_,fun _ => document_refused value hmisread⟩
      rw [hasMisread_eq_false hunknown] at hmisread
      cases hmisread

def textNode (text : String) : Json :=
  .object [("props",.object [("text",.string text)]),("type",.string "Text")]

def clockJson (schema root : Json) : Json :=
  .object [
    ("events",.object []),
    ("root",root),
    ("state",.object [("initial",.object []),("schema",schema)]),
    ("uiApiVersion",.string "1.0.0")]

theorem plainClock_enforced :
    ∃ doc, readDocument documented
        (clockJson (.object [("type",.string "object")]) (textNode "clock")) = some doc ∧
      Enforced (clockJson (.object [("type",.string "object")]) (textNode "clock")) doc :=
  ⟨_,rfl,(enforced_iff rfl).mpr (Or.inl ⟨by rfl,rfl⟩)⟩

/-- An object with one text of at most eight characters. -/
def clockSchema : Json :=
  .object [
    ("additionalProperties",.bool false),
    ("properties",.object [("time",.object [
      ("maxLength",.number (.posInt 8)),("type",.string "string")])]),
    ("type",.string "object")]

def clockIf : Json :=
  .object [
    ("else",textNode "Stopped"),
    ("then",textNode "Running"),
    ("type",.string "If"),
    ("when",.object [("bind",.string "$.running")])]

def longTime : Json := .object [("time",.string "twelve o'clock")]

/-- The limit and the else branch are lost, and an unknown key is accepted. -/
theorem clock_drifts :
    (∃ doc doc', readDocument documented (clockJson clockSchema clockIf) = some doc ∧
      readDocument derived (clockJson clockSchema clockIf) = some doc' ∧
      hasUnknownKey (clockJson clockSchema clockIf) = false ∧
      validateValue doc.state.schema longTime "$" 0 ≠ .ok () ∧
      validateValue doc'.state.schema longTime "$" 0 = .ok () ∧
      doc.root.else_.isSome ∧ doc'.root.else_ = none ∧
      ¬Enforced (clockJson clockSchema clockIf) doc) ∧
    hasUnknownKey (clockJson (.object [("type",.string "object"),("typo",.null)])
      (textNode "clock")) = true ∧
    (readDocument derived (clockJson (.object [("type",.string "object"),("typo",.null)])
      (textNode "clock"))).isSome := by
  refine ⟨⟨_,_,rfl,rfl,by rfl,?_,rfl,rfl,rfl,?_⟩,by rfl,rfl⟩
  · intro hvalid
    cases hvalid
  · rintro ⟨hkept,-⟩
    obtain ⟨doc',hdoc',-,-,-,hbranches⟩ := hkept (by rfl)
    obtain rfl := Option.some.inj hdoc'
    cases hbranches

end Floatile.UiSchema.Wire
