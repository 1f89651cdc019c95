import Floatile.Renderer.Tree

/-! What the emitters ask of the nodes that they expand, in the order in which they ask. -/
namespace Floatile.Renderer

open Floatile.Lib
open Floatile.Lib.Checked (bind_eq_ok)
open Floatile.Core
open Floatile.UiSchema

/-- An emitter for the node, a condition on the node alone, or a projection type for a path. -/
inductive Demand where
  | unmapped
  | holds (b : Bool)
  | path (bind : String) (valueType : BindingValueType)
  deriving DecidableEq

/-- Why a walk stops: a component has no emitter, or a demand is not met. -/
inductive Refusal where
  | unmapped
  | unmet
  deriving DecidableEq

/-- The projection types that the paths have so far. -/
abbrev Used := String → Option BindingValueType

def Demand.check (used : Used) : Demand → Except Refusal Used
  | .unmapped => .error .unmapped
  | .holds true => .ok used
  | .holds false => .error .unmet
  | .path bind valueType =>
    match used bind with
    | none => .ok (Function.update used bind (some valueType))
    | some old => if old = valueType then .ok used else .error .unmet

def scan (used : Used) (demands : List Demand) : Except Refusal Used :=
  demands.foldlM Demand.check used

/-- The demands in front of the first component without an emitter. -/
def beforeUnmapped (demands : List Demand) : List Demand :=
  demands.takeWhile (fun d => d ≠ .unmapped)

/-- No condition fails and no path has two types, up to the first component without an emitter. -/
structure Met (demands : List Demand) : Prop where
  holds : .holds false ∉ beforeUnmapped demands
  agree : ∀ bind valueType valueType', .path bind valueType ∈ beforeUnmapped demands →
    .path bind valueType' ∈ beforeUnmapped demands → valueType = valueType'

@[simp] theorem scan_nil (used : Used) : scan used [] = .ok used := rfl

theorem scan_cons (used : Used) (d : Demand) (ds : List Demand) :
    scan used (d :: ds) = d.check used >>= fun used => scan used ds := List.foldlM_cons

theorem scan_append (used : Used) (ds es : List Demand) :
    scan used (ds ++ es) = scan used ds >>= fun used => scan used es := List.foldlM_append

/-- The demands are met after a walk that has given some paths their types. -/
def MetFrom (used : Used) (demands : List Demand) : Prop :=
  .holds false ∉ beforeUnmapped demands ∧
  ∀ bind valueType valueType', .path bind valueType ∈ beforeUnmapped demands →
    (used bind = some valueType' ∨ .path bind valueType' ∈ beforeUnmapped demands) →
    valueType = valueType'

theorem metFrom_empty (demands : List Demand) : MetFrom (fun _ => none) demands ↔ Met demands := by
  constructor
  · rintro ⟨hholds,hagree⟩
    exact ⟨hholds,fun bind t t' ht ht' => hagree bind t t' ht (Or.inr ht')⟩
  · rintro ⟨hholds,hagree⟩
    refine ⟨hholds,fun bind t t' ht ht' => ?_⟩
    rcases ht' with hnone | ht'
    · cases hnone
    · exact hagree bind t t' ht ht'

theorem beforeUnmapped_cons {d : Demand} (h : d ≠ .unmapped) (ds : List Demand) :
    beforeUnmapped (d :: ds) = d :: beforeUnmapped ds := by
  simp [beforeUnmapped, h]

theorem metFrom_path (used : Used) (bind : String) (valueType : BindingValueType)
    (ds : List Demand) : MetFrom used (.path bind valueType :: ds) ↔
      (∀ old, used bind = some old → old = valueType) ∧
        MetFrom (Function.update used bind (some valueType)) ds := by
  rw [MetFrom, beforeUnmapped_cons (by simp)]
  constructor
  · rintro ⟨hholds,hagree⟩
    refine ⟨fun old hold => (hagree _ _ _ List.mem_cons_self (Or.inl hold)).symm,
      fun hmem => hholds (List.mem_cons_of_mem _ hmem),fun path t t' ht ht' => ?_⟩
    have htail := List.mem_cons_of_mem (Demand.path bind valueType) ht
    rcases ht' with ht' | ht'
    · by_cases hpath : path = bind
      · subst hpath
        rw [Function.update_self, Option.some.injEq] at ht'
        subst ht'
        exact hagree _ _ _ htail (Or.inr List.mem_cons_self)
      · rw [Function.update_of_ne hpath] at ht'
        exact hagree _ _ _ htail (Or.inl ht')
    · exact hagree _ _ _ htail (Or.inr (List.mem_cons_of_mem _ ht'))
  · rintro ⟨hold,hholds,hagree⟩
    have hsame : ∀ t, .path bind t ∈ beforeUnmapped ds → t = valueType := fun t ht =>
      hagree bind t valueType ht (Or.inl (Function.update_self _ _ _))
    refine ⟨by simpa using hholds,fun path t t' ht ht' => ?_⟩
    by_cases hpath : path = bind
    · subst hpath
      have heq : t = valueType := by
        rcases List.mem_cons.mp ht with ht | ht
        · exact (Demand.path.inj ht).2
        · exact hsame t ht
      have heq' : t' = valueType := by
        rcases ht' with ht' | ht'
        · exact hold t' ht'
        · rcases List.mem_cons.mp ht' with ht' | ht'
          · exact (Demand.path.inj ht').2
          · exact hsame t' ht'
      rw [heq, heq']
    · have hne : ∀ t, Demand.path path t ∈ .path bind valueType :: beforeUnmapped ds →
          .path path t ∈ beforeUnmapped ds := fun t ht =>
        (List.mem_cons.mp ht).resolve_left (fun h => hpath (Demand.path.inj h).1)
      refine hagree path t t' (hne t ht) (ht'.imp (fun h => ?_) (hne t'))
      rwa [Function.update_of_ne hpath]

/-- Induction over the demands, with the types that the walk has given. -/
theorem scan_ne_unmet_iff (used : Used) (demands : List Demand) :
    scan used demands ≠ .error .unmet ↔ MetFrom used demands := by
  induction demands generalizing used with
  | nil => simp [MetFrom, beforeUnmapped]
  | cons d ds ih =>
    cases d with
    | unmapped => simp [scan_cons, Demand.check, MetFrom, beforeUnmapped]
    | holds b =>
      rw [MetFrom, beforeUnmapped_cons (by simp), scan_cons]
      cases b with
      | true =>
        rw [Demand.check, Checked.ok_bind, ih]
        simp [MetFrom]
      | false => simp [Demand.check]
    | path bind valueType =>
      rw [metFrom_path, scan_cons]
      cases hused : used bind with
      | none =>
        simp only [Demand.check, hused, Checked.ok_bind]
        rw [ih]
        simp
      | some old =>
        simp only [Demand.check, hused]
        by_cases hold : old = valueType
        · subst hold
          rw [if_pos rfl, Checked.ok_bind, ih, ← hused, Function.update_eq_self]
          simp [hused]
        · rw [if_neg hold]
          simp [hold]

/-- The encoder of string literals takes all characters but most control characters. -/
def quotable (s : String) : Bool :=
  s.toList.all (fun c => !Text.isControl c || c = '\n' || c = '\r' || c = '\t')

/-- A text that may be bound to the state or to an item. -/
def stringDemands (comp : Component) (prop : String) : List Demand :=
  match comp.props.get prop with
  | some (.binding (.state bind)) => [.path bind .string]
  | some (.literal (.string s)) => [.holds (quotable s)]
  | _ => []

/-- A value that may be bound to the state, but not to an item. -/
def stateDemands (comp : Component) (prop : String) (valueType : BindingValueType) :
    List Demand :=
  match comp.props.get prop with
  | some (.binding (.state bind)) => [.path bind valueType]
  | some (.binding (.item _)) => [.holds false]
  | _ => []

def checkedDemands (comp : Component) : List Demand :=
  match comp.props.get "checked" with
  | some (.binding (.state bind)) => [.path bind .boolean]
  | _ => []

/-- The label of a Sparkline may not be bound to an item. -/
def labelDemands (comp : Component) : List Demand :=
  match comp.props.get "label" with
  | some (.binding (.item _)) => [.holds false]
  | _ => stringDemands comp "label"

def accessibilityDemands (uiMinor : ℕ) (comp : Component) : List Demand :=
  if uiMinor < 6 ∧ (comp.props.get "accessibilityLabel").isNone then []
  else stringDemands comp "accessibilityLabel"

def eventDemands (comp : Component) (inputEvent : String) : List Demand :=
  [.holds (comp.events.get inputEvent).isSome]

/-- A custom colour is a hexadecimal literal. -/
def colorForm (s : String) : Bool :=
  let s := Text.trim s
  Text.startsWith s "#" && (Text.byteLen s = 4 || Text.byteLen s = 7 || Text.byteLen s = 9) &&
    (s.toList.drop 1).all Text.isAsciiHexDigit

def colorDemands (comp : Component) : List Demand :=
  match literalStr comp "colorToken" with
  | some _ => []
  | none =>
    match literalStr comp "color" with
    | some color => [.holds (colorForm color)]
    | none => []

def itemsDemands (comp : Component) : List Demand :=
  match comp.props.get "items" with
  | some (.literal (.array items)) =>
    [.holds (items.all (fun item => (item.asStr.map quotable).getD false))]
  | _ => stateDemands comp "items" .stringList

def leafDemands (uiMinor : ℕ) (comp : Component) : List Demand :=
  if comp.kind = "Sparkline" then labelDemands comp ++ stateDemands comp "values" .numberList
  else if comp.kind = "Text" then stringDemands comp "text" ++ colorDemands comp
  else if comp.kind = "Button" then stringDemands comp "label" ++ eventDemands comp "activate"
  else if comp.kind = "Toggle" then
    checkedDemands comp ++ (accessibilityDemands uiMinor comp ++ eventDemands comp "toggle")
  else if comp.kind = "Progress" ∨ comp.kind = "Gauge" then
    stateDemands comp "value" .number ++ accessibilityDemands uiMinor comp
  else if comp.kind = "Badge" then stringDemands comp "label"
  else if comp.kind = "List" then itemsDemands comp
  else [.unmapped]

/-- The path of a control field. -/
def controlDemands (field : Option Binding) (valueType : BindingValueType) : List Demand :=
  match field with
  | some (.state bind) => [.path bind valueType]
  | _ => []

def keyDemands (key : Option String) : List Demand :=
  [.holds (key.all (fun key => !key.isEmpty))]

mutual

def demands (uiMinor : ℕ) (comp : Component) : List Demand :=
  match comp with
  | ⟨_,_,children,_,when_,then_,else_,items,key,template⟩ =>
    match shapeOf comp with
    | .leaf => leafDemands uiMinor comp
    | .container => childDemands uiMinor children
    | .branch =>
      controlDemands when_ .boolean ++ (branchDemands uiMinor then_ ++ branchDemands uiMinor else_)
    | .loop => controlDemands items .string ++ (branchDemands uiMinor template ++ keyDemands key)

def childDemands (uiMinor : ℕ) : List Component → List Demand
  | [] => []
  | child :: children => demands uiMinor child ++ childDemands uiMinor children

def branchDemands (uiMinor : ℕ) : Option Component → List Demand
  | none => []
  | some comp => demands uiMinor comp

end

section Shapes

variable {comp : Component} {uiMinor : ℕ}

theorem demands_leaf (h : shapeOf comp = .leaf) :
    demands uiMinor comp = leafDemands uiMinor comp := by
  cases comp
  rw [demands, h]

theorem demands_container (h : shapeOf comp = .container) :
    demands uiMinor comp = childDemands uiMinor comp.children := by
  cases comp
  rw [demands, h]

theorem demands_branch (h : shapeOf comp = .branch) :
    demands uiMinor comp = controlDemands comp.when_ .boolean ++
      (branchDemands uiMinor comp.then_ ++ branchDemands uiMinor comp.else_) := by
  cases comp
  rw [demands, h]

theorem demands_loop (h : shapeOf comp = .loop) :
    demands uiMinor comp = controlDemands comp.items .string ++
      (branchDemands uiMinor comp.template ++ keyDemands comp.key) := by
  cases comp
  rw [demands, h]

end Shapes

end Floatile.Renderer
