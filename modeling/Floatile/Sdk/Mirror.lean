import Floatile.Runtime.State

/-! The state mirror of the TypeScript SDK: a widget hands a patch to the host and, when the host
accepts it, spreads it over its own copy of the state. -/
namespace Floatile.Sdk

open Floatile.Lib
open Floatile.Lib.Transition
open Floatile.Core
open Floatile.UiSchema
open Floatile.Runtime

mutual

/-- A JSON value as `JSON.parse` reads it: every number is a double. -/
def asJs : Json → Json
  | .null => .null
  | .bool b => .bool b
  | .number n => .number (.float n.asF64)
  | .string s => .string s
  | .array items => .array (asJsItems items)
  | .object fields => .object (asJsFields fields)

def asJsItems : List Json → List Json
  | [] => []
  | item :: items => asJs item :: asJsItems items

def asJsFields : List (String × Json) → List (String × Json)
  | [] => []
  | (key,value) :: fields => (key,asJs value) :: asJsFields fields

end

def parseState (value : Json) : Option Json :=
  if value.isObject then some (asJs value) else none

/-- `{ ...state, ...patch }` -/
def spread (state patch : Json) : Json :=
  .object ((patch.asObject.getD []).foldl (fun fields e => SortedMap.insert e.1 e.2 fields)
    (state.asObject.getD []))

theorem asJsFields_eq (fields : List (String × Json)) :
    asJsFields fields = SortedMap.mapValues asJs fields := by
  induction fields with
  | nil => rfl
  | cons e fields ih =>
    obtain ⟨key,value⟩ := e
    rw [asJsFields, ih]
    rfl

@[simp] theorem isNull_asJs (v : Json) : (asJs v).isNull = v.isNull := by
  cases v <;> rfl

@[simp] theorem isObject_asJs (v : Json) : (asJs v).isObject = v.isObject := by
  cases v <;> rfl

theorem asObject_asJs (v : Json) :
    (asJs v).asObject.getD [] = asJsFields (v.asObject.getD []) := by
  cases v <;> rfl

/-- The value found under a key, or null, is read the same before and after. -/
theorem find_asJsFields (key : String) (fields : List (String × Json)) :
    (SortedMap.find key (asJsFields fields)).getD .null =
      asJs ((SortedMap.find key fields).getD .null) := by
  rw [asJsFields_eq, SortedMap.find_mapValues]
  cases SortedMap.find key fields <;> rfl

mutual

/-- Merging in the host's reading and reading the result is merging what was read. -/
theorem asJs_mergePatch (target patch : Json) :
    asJs (mergePatch target patch) = mergePatch (asJs target) (asJs patch) := by
  cases patch with
  | object fields =>
    rw [mergePatch, asJs, asJs, mergePatch, asObject_asJs,
      asJsFields_mergeFields (target.asObject.getD []) fields]
  | null | bool | number | string | array => rfl

theorem asJsFields_mergeFields (target fields : List (String × Json)) :
    asJsFields (mergeFields target fields) =
      mergeFields (asJsFields target) (asJsFields fields) := by
  match fields with
  | [] => rfl
  | (key,value) :: fields =>
    rw [mergeFields, asJsFields, mergeFields, isNull_asJs]
    split_ifs
    · rw [asJsFields_mergeFields, asJsFields_eq target, SortedMap.erase_mapValues, asJsFields_eq]
    · have hentry := asJs_mergePatch ((SortedMap.find key target).getD .null) value
      rw [asJsFields_mergeFields, find_asJsFields]
      dsimp only
      rw [← hentry, asJsFields_eq target, SortedMap.insert_mapValues, asJsFields_eq]

end

mutual

theorem sorted_asJs {v : Json} (h : Sorted v) : Sorted (asJs v) := by
  match v with
  | .object fields =>
    refine ⟨?_,sortedFields_asJsFields h.2⟩
    rw [asJsFields_eq]
    exact List.pairwise_map.mpr h.1
  | .array items => exact sortedItems_asJsItems h
  | .null | .bool _ | .number _ | .string _ => trivial

theorem sortedItems_asJsItems {items : List Json} (h : SortedItems items) :
    SortedItems (asJsItems items) := by
  match items with
  | [] => trivial
  | _ :: _ => exact ⟨sorted_asJs h.1,sortedItems_asJsItems h.2⟩

theorem sortedFields_asJsFields {fields : List (String × Json)} (h : SortedFields fields) :
    SortedFields (asJsFields fields) := by
  match fields with
  | [] => trivial
  | (_,_) :: _ => exact ⟨sorted_asJs h.1,sortedFields_asJsFields h.2⟩

end

mutual

/-- Merging `value` into `entry` leaves nothing of `entry`: the value is not an object, or it
names every key of the entry, holds no null, and the same is true of its fields. -/
def Replaces (entry : Json) : Json → Prop
  | .object fields =>
    (∀ e ∈ entry.asObject.getD [], (SortedMap.find e.1 fields).isSome) ∧
    ReplacesFields (entry.asObject.getD []) fields
  | _ => True

def ReplacesFields (target : List (String × Json)) : List (String × Json) → Prop
  | [] => True
  | (key,value) :: fields =>
    value.isNull = false ∧ Replaces ((SortedMap.find key target).getD .null) value ∧
    ReplacesFields target fields

end

mutual

theorem mergePatch_eq_right {entry value : Json} (he : Sorted entry) (hv : Sorted value) :
    mergePatch entry value = value ↔ Replaces entry value := by
  match value with
  | .object fields =>
    have hfields := replacesFields_iff he.asObject.2 hv.2
    have hmerged := find_mergeFields he.asObject.1 hv.1
    rw [mergePatch, Json.object.injEq, Replaces, hfields]
    constructor
    · intro hsame
      rw [hsame] at hmerged
      constructor
      · intro e hmem
        by_contra hnone
        have hkey := hmerged e.1
        rw [Option.not_isSome_iff_eq_none.mp hnone, SortedMap.find_of_mem he.asObject.1 hmem]
          at hkey
        cases hkey
      · intro e hmem
        have hkey := hmerged e.1
        rw [SortedMap.find_of_mem hv.1 hmem] at hkey
        by_cases hnull : e.2.isNull
        · simp [hnull] at hkey
        · simp only [hnull, Bool.false_eq_true, if_false, Option.some.injEq] at hkey
          exact ⟨by simpa using hnull,hkey.symm⟩
    · rintro ⟨hkeys,hvalues⟩
      refine SortedMap.eq_of_find_eq (ordered_mergeFields he.asObject.1 fields) hv.1 (fun k => ?_)
      rw [hmerged]
      cases hfind : SortedMap.find k fields with
      | none =>
        cases htarget : SortedMap.find k (entry.asObject.getD []) with
        | none => rfl
        | some v =>
          have hsome := hkeys (k,v) (SortedMap.mem_of_find htarget)
          rw [hfind] at hsome
          cases hsome
      | some v =>
        obtain ⟨hnull,hmerge⟩ := hvalues (k,v) (SortedMap.mem_of_find hfind)
        simp only [hnull, Bool.false_eq_true, if_false, hmerge]
  | .null | .bool _ | .number _ | .string _ | .array _ => exact iff_of_true rfl trivial

theorem replacesFields_iff {target fields : List (String × Json)} (ht : SortedFields target)
    (hf : SortedFields fields) :
    ReplacesFields target fields ↔ ∀ e ∈ fields, e.2.isNull = false ∧
      mergePatch ((SortedMap.find e.1 target).getD .null) e.2 = e.2 := by
  match fields with
  | [] => simp [ReplacesFields]
  | (key,value) :: fields =>
    rw [ReplacesFields, List.forall_mem_cons, replacesFields_iff ht hf.2,
      mergePatch_eq_right (ht.find key) hf.1, and_assoc]

end

theorem find_spread (target : List (String × Json)) {fields : List (String × Json)}
    (hf : SortedMap.Ordered fields) (k : String) :
    SortedMap.find k (fields.foldl (fun m e => SortedMap.insert e.1 e.2 m) target) =
      (SortedMap.find k fields).or (SortedMap.find k target) := by
  induction fields generalizing target with
  | nil => rfl
  | cons e fields ih =>
    obtain ⟨key,value⟩ := e
    obtain ⟨hhead,htail⟩ := List.pairwise_cons.mp hf
    rw [List.foldl_cons, ih _ htail, SortedMap.find_insert, SortedMap.find_cons]
    by_cases hk : key = k
    · subst hk
      rw [SortedMap.find_eq_none_of_lt hhead, if_pos rfl, if_pos rfl]
      rfl
    · rw [if_neg (Ne.symm hk), if_neg hk]

/-- The spread and the merge agree exactly on patches whose fields replace what was there. -/
theorem spread_eq_mergePatch_iff {state patch : Json} (hs : Sorted state) (hp : Sorted patch)
    (hobject : patch.isObject = true) :
    spread state patch = mergePatch state patch ↔
      ReplacesFields (state.asObject.getD []) (patch.asObject.getD []) := by
  cases patch with
  | object fields =>
    have hmerged := find_mergeFields hs.asObject.1 hp.1
    have hspread := find_spread (state.asObject.getD []) hp.1
    rw [spread, mergePatch, Json.object.injEq]
    change List.foldl _ _ fields = _ ↔ ReplacesFields (state.asObject.getD []) fields
    rw [replacesFields_iff hs.asObject.2 hp.2]
    constructor
    · intro hsame e hmem
      have hkey := (hspread e.1).symm.trans ((congrArg (SortedMap.find e.1) hsame).trans
        (hmerged e.1))
      rw [SortedMap.find_of_mem hp.1 hmem, Option.some_or] at hkey
      by_cases hnull : e.2.isNull
      · simp [hnull] at hkey
      · simp only [hnull, Bool.false_eq_true, if_false, Option.some.injEq] at hkey
        exact ⟨by simpa using hnull,hkey.symm⟩
    · intro hvalues
      refine SortedMap.eq_of_find_eq ?_ (ordered_mergeFields hs.asObject.1 fields) (fun k => ?_)
      · exact SortedMap.ordered_foldl_insert fields hs.asObject.1
      · rw [hspread, hmerged]
        cases hfind : SortedMap.find k fields with
        | none => rfl
        | some v =>
          obtain ⟨hnull,hmerge⟩ := hvalues (k,v) (SortedMap.mem_of_find hfind)
          simp only [hnull, Bool.false_eq_true, if_false, hmerge, Option.some_or]
  | _ => cases hobject

/-- A widget on the SDK and the host it runs on. -/
structure WidgetInstance where
  ui : UiSystem
  state : Json

section Codecs

variable (fromStr : String → Option Json) (toVec : Json → Option (List UInt8))
  (stringify : Json → String)

/-- A patch with the value that the host parses from its text: the two JSON libraries agree on it,
up to the host's finer numbers. -/
structure SdkPatch where
  value : Json
  parsed : Json
  reads : fromStr (stringify value) = some parsed
  same : asJs parsed = value
  sorted : Sorted parsed

inductive WidgetEvent where
  | update (patch : SdkPatch fromStr stringify) (now : ℕ)
  | drain
  | dropReceiver

variable {fromStr stringify}

/-- `ctx.state.update`: the call of the host throws its error, the assignment after it is not
reached then. -/
def WidgetInstance.update (w : WidgetInstance) (patch : SdkPatch fromStr stringify) (now : ℕ) :
    WidgetInstance :=
  let patchJson := stringify patch.value
  let ui := w.ui.next fromStr toVec (.update patchJson now)
  match (updateState fromStr toVec w.ui.host patchJson now).result with
  | .error _ => ⟨ui,w.state⟩
  | .ok _ => ⟨ui,spread w.state patch.value⟩

def WidgetInstance.next (w : WidgetInstance) : WidgetEvent fromStr stringify → WidgetInstance
  | .update patch now => w.update toVec patch now
  | .drain => { w with ui := w.ui.next fromStr toVec .drain }
  | .dropReceiver => { w with ui := w.ui.next fromStr toVec .dropReceiver }

/-- A new widget has read the initial state of its host. -/
def WidgetInstance.Initial (initial : Json) (w : WidgetInstance) : Prop :=
  UiSystem.Initial initial w.ui ∧ Sorted initial ∧ parseState initial = some w.state

variable (fromStr stringify) in
def widgetSystem (initial : Json) : System WidgetInstance (WidgetEvent fromStr stringify) :=
  System.ofFunction (WidgetInstance.Initial initial) (WidgetInstance.next toVec)

/-- The mirror reads as the state of the host. -/
def WidgetInstance.InSync (w : WidgetInstance) : Prop := w.state = asJs w.ui.host.ui.state

/-- After an update that the host accepts the mirror reads as its state, and after one that the
host rejects both are as they were. -/
def Mirrored (w : WidgetInstance) (patch : SdkPatch fromStr stringify) (now : ℕ) : Prop :=
  let w' := w.update toVec patch now
  match (updateState fromStr toVec w.ui.host (stringify patch.value) now).result with
  | .ok _ => w'.InSync
  | .error _ => w'.ui.host.ui.state = w.ui.host.ui.state ∧ w'.state = w.state

/-- A patch that passes the checks of the host replaces what it names, or changes nothing where the
user interface has no room for the update. -/
def SpreadSuffices (w : WidgetInstance) : WidgetEvent fromStr stringify → Prop
  | .update patch now =>
    ∀ next, Accepts fromStr toVec w.ui.host (stringify patch.value) now next →
      if w.ui.host.ui.tx.HasRoom then
        ReplacesFields (w.state.asObject.getD []) (patch.value.asObject.getD [])
      else mergePatch w.ui.host.ui.state patch.parsed = w.ui.host.ui.state
  | _ => True

/-- What the host accepts is the merge of the parsed patch, an object. -/
theorem SdkPatch.next_eq {host : InstanceHostState} {patch : SdkPatch fromStr stringify}
    {now : ℕ} {next : Json}
    (h : Accepts fromStr toVec host (stringify patch.value) now next) :
    next = mergePatch host.ui.state patch.parsed ∧ patch.value.isObject = true := by
  obtain ⟨-,-,-,parsed,_,hreads,hobject,hnext,-⟩ := h
  rw [patch.reads] at hreads
  obtain rfl := Option.some.inj hreads
  have hvalue : patch.value.isObject = true := by rw [← patch.same, isObject_asJs, hobject]
  exact ⟨hnext,hvalue⟩

/-- What holds of mirror and host along a run. -/
structure MirrorInvariant (w : WidgetInstance) : Prop where
  sync : w.InSync
  sorted : Sorted w.ui.host.ui.state

theorem ui_update (ui : UiSystem) (patchJson : String) (now : ℕ) :
    (ui.next fromStr toVec (.update patchJson now)).host =
      (updateState fromStr toVec ui.host patchJson now).host := by
  unfold UiSystem.next
  dsimp only
  split <;> rfl

theorem mirrored_iff {w : WidgetInstance} (h : MirrorInvariant w)
    (patch : SdkPatch fromStr stringify) (now : ℕ) :
    Mirrored toVec w patch now ↔ SpreadSuffices toVec w (.update patch now) := by
  have hstate : Sorted w.state := h.sync ▸ sorted_asJs h.sorted
  have hpatch : Sorted patch.value := patch.same ▸ sorted_asJs patch.sorted
  unfold Mirrored SpreadSuffices WidgetInstance.update
  dsimp only
  rcases updateState_effect fromStr toVec w.ui.host (stringify patch.value) now with
    ⟨e,hno,hresult,hkept,-,-⟩ | ⟨next,hacc,hroom,hresult,hnext,-,-⟩ |
    ⟨next,hacc,hroom,hresult,hnext,-,-⟩
  · simp only [hresult, ui_update, hkept, true_and, true_iff]
    exact fun next hacc => absurd hacc (hno next)
  · obtain ⟨hmerge,hobject⟩ := SdkPatch.next_eq toVec hacc
    simp only [hresult, WidgetInstance.InSync, ui_update, hnext, hmerge, asJs_mergePatch]
    rw [← h.sync, patch.same, spread_eq_mergePatch_iff hstate hpatch hobject]
    simp only [hroom, if_true]
    exact ⟨fun hreplaces _ _ => hreplaces,fun hall => hall next hacc⟩
  · obtain ⟨hmerge,-⟩ := SdkPatch.next_eq toVec hacc
    simp only [hresult, ui_update, hnext, hmerge, and_true, hroom, if_false]
    exact ⟨fun hsame _ _ => hsame,fun hall => hall next hacc⟩

theorem mirrorInvariant_next {w : WidgetInstance} (h : MirrorInvariant w)
    {e : WidgetEvent fromStr stringify} (he : SpreadSuffices toVec w e) :
    MirrorInvariant (w.next toVec e) := by
  cases e with
  | update patch now =>
    have hmirrored := (mirrored_iff toVec h patch now).mpr he
    unfold Mirrored at hmirrored
    constructor
    · have hsync := h.sync
      unfold WidgetInstance.InSync at hsync ⊢
      rw [WidgetInstance.next]
      dsimp only at hmirrored
      split at hmirrored
      · exact hmirrored
      · rw [hmirrored.1, hmirrored.2, hsync]
    · have hui : (w.update toVec patch now).ui.host =
          (updateState fromStr toVec w.ui.host (stringify patch.value) now).host := by
        unfold WidgetInstance.update
        dsimp only
        split <;> exact ui_update toVec w.ui _ now
      rw [WidgetInstance.next, hui]
      rcases updateState_effect fromStr toVec w.ui.host (stringify patch.value) now with
        ⟨-,-,-,hkept,-,-⟩ | ⟨next,hacc,-,-,hnext,-,-⟩ | ⟨next,hacc,-,-,hnext,-,-⟩
      · rw [hkept]
        exact h.sorted
      · rw [hnext, (SdkPatch.next_eq toVec hacc).1]
        exact h.sorted.mergePatch patch.sorted
      · rw [hnext, (SdkPatch.next_eq toVec hacc).1]
        exact h.sorted.mergePatch patch.sorted
  | drain =>
    have hkept : (w.ui.next fromStr toVec .drain).host.ui.state = w.ui.host.ui.state := by
      unfold UiSystem.next
      dsimp only
      split <;> rfl
    exact ⟨h.sync.trans (congrArg asJs hkept.symm),hkept ▸ h.sorted⟩
  | dropReceiver => exact ⟨h.sync,h.sorted⟩

/-- In a run in which every accepted patch replaces what it names, mirror and host agree, and the
next update keeps that exactly when its patch does, too. -/
theorem mirror_follows_host (initial : Json) (w : WidgetInstance)
    (h : (widgetSystem fromStr toVec stringify initial).ReachableWhen
      (SpreadSuffices toVec) w) :
    w.InSync ∧ ∀ (patch : SdkPatch fromStr stringify) now, Mirrored toVec w patch now ↔
      SpreadSuffices toVec w (.update patch now) := by
  have hinv : MirrorInvariant w := by
    refine h.invariant MirrorInvariant ?_ ?_
    · rintro w ⟨⟨hinitial,-⟩,hsorted,hstate⟩
      rw [parseState, Option.ite_none_right_eq_some] at hstate
      exact ⟨by rw [WidgetInstance.InSync, hinitial, Option.some.inj hstate.2],
        hinitial ▸ hsorted⟩
    · rintro w e w' hw he rfl
      exact mirrorInvariant_next toVec hw he
  exact ⟨hinv.sync,fun patch now => mirrored_iff toVec hinv patch now⟩

end Codecs

/-- The state of an alarm clock, and a patch that names one of its two settings. -/
def alarmState (late on : Bool) : Json :=
  .object [("alarm",.object [("late",.bool late),("on",.bool on)])]

def alarmOff : Json := .object [("alarm",.object [("on",.bool false)])]

/-- The JSON library on these values. -/
def alarmText (late on : Bool) : String :=
  s!"\x7b\"alarm\":\x7b\"late\":{late},\"on\":{on}\x7d\x7d"

def alarmOffText : String := "\x7b\"alarm\":\x7b\"on\":false\x7d\x7d"

def writeAlarm : Json → String
  | .object [("alarm",.object [("late",.bool late),("on",.bool on)])] => alarmText late on
  | .object [("alarm",.object [("on",.bool false)])] => alarmOffText
  | _ => "null"

def alarmBytes (state : Json) : Option (List UInt8) :=
  some ((writeAlarm state).toList.map (fun c => c.val.toUInt8))

def parseAlarm (s : String) : Option Json :=
  if s = alarmOffText then some alarmOff
  else if s = alarmText false false then some (alarmState false false)
  else none

theorem sorted_alarmState (late on : Bool) : Sorted (alarmState late on) := by
  have hlt : "late" < "on" := by decide
  have hkeys : SortedMap.Ordered [("late",Json.bool late),("on",Json.bool on)] :=
    List.pairwise_pair.mpr hlt
  exact ⟨List.pairwise_singleton _ _,⟨⟨hkeys,trivial,trivial,trivial⟩,trivial⟩⟩

theorem sorted_alarmOff : Sorted alarmOff := by
  simp [alarmOff, Sorted, SortedFields, SortedMap.Ordered]

def alarmPatch : SdkPatch parseAlarm writeAlarm :=
  ⟨alarmState false false,alarmState false false,by rfl,rfl,sorted_alarmState false false⟩

def alarmOffPatch : SdkPatch parseAlarm writeAlarm :=
  ⟨alarmOff,alarmOff,by rfl,rfl,sorted_alarmOff⟩

def alarmWidget : WidgetInstance where
  ui := { newInstance with host := { newInstance.host with
    ui := { newInstance.host.ui with state := alarmState true true } } }
  state := alarmState true true

theorem alarmWidget_initial : WidgetInstance.Initial (alarmState true true) alarmWidget :=
  ⟨⟨rfl,rfl,rfl,rfl,rfl,rfl⟩,sorted_alarmState true true,rfl⟩

theorem alarmWidget_mirrors :
    (alarmWidget.update alarmBytes alarmPatch 1).InSync := by
  have hreplaces : SpreadSuffices alarmBytes alarmWidget (.update alarmPatch 1) := by
    intro next hacc
    have hroom : alarmWidget.ui.host.ui.tx.HasRoom := by decide
    rw [if_pos hroom]
    simp [alarmWidget, alarmPatch, alarmState, ReplacesFields, Replaces, Json.asObject,
      Json.isNull]
  have hreach : (widgetSystem parseAlarm alarmBytes writeAlarm
      (alarmState true true)).ReachableWhen (SpreadSuffices alarmBytes) alarmWidget :=
    System.ReachableWhen.of_init alarmWidget_initial
  have hnext := hreach.next (i := .update alarmPatch 1) hreplaces rfl
  exact (mirror_follows_host alarmBytes (alarmState true true) _ hnext).1

/-- A patch that the host accepts and that names one of two nested settings: the host keeps the
other one, the mirror loses it. -/
theorem alarmWidget_drifts :
    (widgetSystem parseAlarm alarmBytes writeAlarm (alarmState true true)).Reachable alarmWidget ∧
    (updateState parseAlarm alarmBytes alarmWidget.ui.host alarmOffText 1).result = .ok () ∧
    (alarmWidget.update alarmBytes alarmOffPatch 1).ui.host.ui.state = alarmState true false ∧
    (alarmWidget.update alarmBytes alarmOffPatch 1).state = alarmOff ∧
    ¬(alarmWidget.update alarmBytes alarmOffPatch 1).InSync := by
  have hhost : (alarmWidget.update alarmBytes alarmOffPatch 1).ui.host.ui.state =
      alarmState true false := by rfl
  have hmirror : (alarmWidget.update alarmBytes alarmOffPatch 1).state = alarmOff := by rfl
  refine ⟨⟨alarmWidget,alarmWidget_initial,Relation.ReflTransGen.refl⟩,by rfl,hhost,hmirror,?_⟩
  rw [WidgetInstance.InSync, hhost, hmirror]
  simp [alarmOff, alarmState, asJs, asJsFields]

end Floatile.Sdk
