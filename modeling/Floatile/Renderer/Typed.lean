import Floatile.Renderer.Sound
import Floatile.UiSchema.NodeChecks
import Floatile.UiSchema.StatePath

/-! What the validation of a document has checked at every node, and so the schema that is found
below every bound path. -/
namespace Floatile.Renderer

open Floatile.Lib
open Floatile.Lib.Checked (bind_eq_ok check_bind_eq_ok reject_eq_ok)
open Floatile.Core
open Floatile.UiSchema

/-- The checks that a node has passed; the items of a loop around it have a schema. -/
inductive NodeChecked (env : ValidateEnv) (stateSchema : JsonSchema)
    (itemSchema : Option JsonSchema) (comp : Component) : Prop
  | if_ (hkind : comp.kind = "If") (hif : validateIf stateSchema comp = .ok ())
  | forEach (hkind : comp.kind = "ForEach") (items : JsonSchema)
      (hforEach : validateForeach stateSchema comp = .ok items)
  | element (spec : ComponentSpec) (counts counts₁ counts₂ counts₃ : Counts)
      (hspec : find comp.kind = .ok spec) (hkind : spec.kind = .element)
      (helement : validateElement env spec stateSchema itemSchema comp counts = .ok counts₁)
      (hevents : validateEvents env spec comp counts₂ = .ok counts₃)

theorem shapeOf_eq_branch_iff (comp : Component) : shapeOf comp = .branch ↔ comp.kind = "If" := by
  unfold shapeOf
  split_ifs with h <;> simp [h]

theorem shapeOf_eq_loop_iff (comp : Component) : shapeOf comp = .loop ↔ comp.kind = "ForEach" := by
  unfold shapeOf
  split_ifs with hif hloop hcontainer <;> simp_all

/-- A node is checked with the item schema of its tree, with none, or there is a loop. -/
def CheckedIn (env : ValidateEnv) (stateSchema : JsonSchema) (itemSchema : Option JsonSchema)
    (all : List Component) (node : Component) : Prop :=
  ∃ item, NodeChecked env stateSchema item node ∧
    (item = itemSchema ∨ item = none ∨ ∃ loop ∈ all, loop.kind = "ForEach")

theorem CheckedIn.mono {env : ValidateEnv} {stateSchema : JsonSchema}
    {itemSchema : Option JsonSchema} {all all' : List Component} {node : Component}
    (h : CheckedIn env stateSchema itemSchema all node) (hall : all ⊆ all') :
    CheckedIn env stateSchema itemSchema all' node := by
  obtain ⟨item,hchecked,hitem⟩ := h
  refine ⟨item,hchecked,hitem.imp_right (Or.imp_right ?_)⟩
  rintro ⟨loop,hloop,hkind⟩
  exact ⟨loop,hall hloop,hkind⟩

theorem CheckedIn.of_none {env : ValidateEnv} {stateSchema : JsonSchema}
    {itemSchema : Option JsonSchema} {all : List Component} {node : Component}
    (h : CheckedIn env stateSchema none all node) :
    CheckedIn env stateSchema itemSchema all node := by
  obtain ⟨item,hchecked,hitem | hitem⟩ := h
  · exact ⟨item,hchecked,Or.inr (Or.inl hitem)⟩
  · exact ⟨item,hchecked,Or.inr hitem⟩

variable {env : ValidateEnv} {stateSchema : JsonSchema}

mutual

theorem validateComponent_nodes {itemSchema : Option JsonSchema} {depth : ℕ}
    {counts counts' : Counts} {comp : Component}
    (h : validateComponent env stateSchema itemSchema depth counts comp = .ok counts') :
    ∀ node ∈ nodes comp, CheckedIn env stateSchema itemSchema (nodes comp) node := by
  match comp with
  | ⟨kind,props,children,events,when_,then_,else_,items,key,template⟩ =>
    rw [validateComponent] at h
    obtain ⟨⟨spec,counts₁⟩,henter,h⟩ := bind_eq_ok.mp h
    have hspec := (enterComponent_eq_ok henter).2.2.1
    obtain ⟨hmem,hname⟩ := find_eq_ok hspec
    obtain ⟨hspecIf,hspecLoop⟩ := kind_of_spec spec hmem
    dsimp only at h
    cases hkind : spec.kind with
    | if_ =>
      rw [hkind, check_bind_eq_ok] at h
      obtain ⟨hif,h⟩ := h
      obtain ⟨counts₂,hthen,helse⟩ := bind_eq_ok.mp h
      have hcompKind : kind = "If" := hname ▸ hspecIf.mp hkind
      have hshape : shapeOf
          ⟨kind,props,children,events,when_,then_,else_,items,key,template⟩ = .branch :=
        (shapeOf_eq_branch_iff _).mpr hcompKind
      rw [nodes_branch hshape]
      intro node hnode
      rcases List.mem_cons.mp hnode with rfl | hnode
      · exact ⟨itemSchema,.if_ hcompKind hif,Or.inl rfl⟩
      · rcases List.mem_append.mp hnode with hnode | hnode
        · exact ((validateBranch_nodes hthen node hnode).mono (by simp)).of_none
        · exact ((validateBranch_nodes helse node hnode).mono (by simp)).of_none
    | forEach =>
      rw [hkind] at h
      obtain ⟨found,hforEach,htemplate⟩ := bind_eq_ok.mp h
      have hcompKind : kind = "ForEach" := hname ▸ hspecLoop.mp hkind
      have hshape : shapeOf
          ⟨kind,props,children,events,when_,then_,else_,items,key,template⟩ = .loop :=
        (shapeOf_eq_loop_iff _).mpr hcompKind
      rw [nodes_loop hshape]
      intro node hnode
      rcases List.mem_cons.mp hnode with rfl | hnode
      · exact ⟨itemSchema,.forEach hcompKind found hforEach,Or.inl rfl⟩
      · obtain ⟨item,hchecked,-⟩ := validateBranch_nodes htemplate node hnode
        exact ⟨item,hchecked,Or.inr (Or.inr ⟨_,List.mem_cons_self,hcompKind⟩)⟩
    | element =>
      rw [hkind] at h
      obtain ⟨counts₂,helement,h⟩ := bind_eq_ok.mp h
      obtain ⟨counts₃,hchildren,hevents⟩ := bind_eq_ok.mp h
      have hself : CheckedIn env stateSchema itemSchema
          (nodes ⟨kind,props,children,events,when_,then_,else_,items,key,template⟩)
          ⟨kind,props,children,events,when_,then_,else_,items,key,template⟩ :=
        ⟨itemSchema,.element spec _ _ _ _ hspec hkind helement hevents,Or.inl rfl⟩
      cases hshape : shapeOf
          ⟨kind,props,children,events,when_,then_,else_,items,key,template⟩ with
      | leaf =>
        rw [nodes_leaf hshape] at hself ⊢
        intro node hnode
        obtain rfl := List.mem_singleton.mp hnode
        exact hself
      | container =>
        rw [nodes_container hshape] at hself ⊢
        intro node hnode
        rcases List.mem_cons.mp hnode with rfl | hnode
        · exact hself
        · exact (validateChildren_nodes hchildren node hnode).mono (by simp)
      | branch =>
        have hif := hspecIf.mpr (hname.trans ((shapeOf_eq_branch_iff _).mp hshape))
        rw [hkind] at hif
        cases hif
      | loop =>
        have hloop := hspecLoop.mpr (hname.trans ((shapeOf_eq_loop_iff _).mp hshape))
        rw [hkind] at hloop
        cases hloop

theorem validateChildren_nodes {itemSchema : Option JsonSchema} {depth : ℕ}
    {counts counts' : Counts} {children : List Component}
    (h : validateChildren env stateSchema itemSchema depth counts children = .ok counts') :
    ∀ node ∈ nodesChildren children,
      CheckedIn env stateSchema itemSchema (nodesChildren children) node := by
  match children with
  | [] =>
    intro node hnode
    cases hnode
  | child :: children =>
    obtain ⟨counts₁,hchild,hrest⟩ := bind_eq_ok.mp h
    intro node hnode
    rw [nodesChildren] at hnode ⊢
    rcases List.mem_append.mp hnode with hnode | hnode
    · exact (validateComponent_nodes hchild node hnode).mono (List.subset_append_left _ _)
    · exact (validateChildren_nodes hrest node hnode).mono (List.subset_append_right _ _)

theorem validateBranch_nodes {itemSchema : Option JsonSchema} {depth : ℕ}
    {counts counts' : Counts} {branch : Option Component}
    (h : validateBranch env stateSchema itemSchema depth counts branch = .ok counts') :
    ∀ node ∈ nodesBranch branch,
      CheckedIn env stateSchema itemSchema (nodesBranch branch) node := by
  match branch with
  | none =>
    intro node hnode
    cases hnode
  | some comp => exact validateComponent_nodes h

end

/-- The schemas whose values a slot can show. -/
def fits : BindingValueType → JsonSchema → Bool
  | .string,.string _ => true
  | .boolean,.boolean => true
  | .number,.number => true
  | .number,.integer => true
  | .stringList,schema => isListSchema schema
  | .numberList,schema => isChartSchema schema
  | _,_ => false

def jsonTypeOf : BindingValueType → JsonType
  | .string => .string
  | .boolean => .boolean
  | .number => .number
  | .stringList => .array
  | .numberList => .array

/-- The registry declares the props that a leaf projects with the types of their slots. -/
theorem slotProps_types : ∀ spec ∈ components, ∀ e ∈ slotProps spec.name,
    (spec.findProp e.1).map PropSchema.types = some [jsonTypeOf e.2] := by decide

/-- Lists are projected for two props only. -/
theorem slotProps_lists : ∀ spec ∈ components, ∀ e ∈ slotProps spec.name,
    (e.2 = .stringList → spec.name = "List" ∧ e.1 = "items") ∧
    (e.2 = .numberList → spec.name = "Sparkline" ∧ e.1 = "values") := by decide

theorem fits_of_jsonType {valueType : BindingValueType} {target : JsonSchema}
    (htype : jsonType target = (jsonTypeOf valueType).name)
    (hlist : valueType = .stringList → isListSchema target = true)
    (hchart : valueType = .numberList → isChartSchema target = true) :
    fits valueType target = true := by
  cases valueType with
  | stringList => exact hlist rfl
  | numberList => exact hchart rfl
  | string | boolean | number =>
    cases target <;> simp_all [jsonType, jsonTypeOf, JsonType.name, fits]

theorem validateBinding_fits {spec : ComponentSpec} {prop : PropSchema} {bind : String}
    {itemSchema : Option JsonSchema} {e : String × BindingValueType} (hspec : spec ∈ components)
    (he : e ∈ slotProps spec.name) (hprop : spec.findProp e.1 = some prop)
    (h : validateBinding (.state bind) prop stateSchema itemSchema spec.name e.1 = .ok ()) :
    ∃ path target, PathSegments.parse bind = .ok path ∧
      resolve stateSchema path.segments = .ok target ∧ fits e.2 target = true := by
  have htypes := slotProps_types spec hspec e he
  rw [hprop, Option.map_some, Option.some.injEq] at htypes
  obtain ⟨hlistProp,hchartProp⟩ := slotProps_lists spec hspec e he
  unfold validateBinding at h
  obtain ⟨target,htarget,h⟩ := bind_eq_ok.mp h
  obtain ⟨path,hparse,hresolve⟩ := bind_eq_ok.mp htarget
  simp only [check_bind_eq_ok, reject_eq_ok] at h
  obtain ⟨hlist,hchart,htype⟩ := h
  refine ⟨path,target,hparse,hresolve,fits_of_jsonType ?_ (fun hvalue => ?_) (fun hvalue => ?_)⟩
  · rw [htypes] at htype
    cases hvalue : e.2 with
    | number =>
      rw [hvalue] at htype
      cases target <;> simp_all [jsonType, jsonTypeOf, JsonType.name]
    | string | boolean | stringList | numberList =>
      rw [hvalue] at htype
      simp only [jsonTypeOf, List.any_cons, List.any_nil, Bool.or_false, Bool.not_eq_true',
        Bool.not_eq_false, decide_eq_true_eq, reduceCtorEq, false_and, or_false] at htype
      exact htype.symm
  · obtain ⟨hname,hitems⟩ := hlistProp hvalue
    by_contra hfalse
    exact hlist ⟨hname,hitems,Bool.eq_false_iff.mpr hfalse⟩
  · obtain ⟨hname,hvalues⟩ := hchartProp hvalue
    by_contra hfalse
    exact hchart ⟨hname,hvalues,Bool.eq_false_iff.mpr hfalse⟩

/-- A path is bound to a schema that fits its slot, unless it is the array of a loop. -/
def PathTyped (stateSchema : JsonSchema) (comp : Component)
    (e : String × BindingValueType) : Prop :=
  ∃ path target, PathSegments.parse e.1 = .ok path ∧
    resolve stateSchema path.segments = .ok target ∧
    (comp.kind ≠ "ForEach" → fits e.2 target = true) ∧
    (comp.kind = "ForEach" → e.2 = .string ∧ ∃ maxItems items, target = .array maxItems items)

theorem mem_controlPath {binding : Option Binding} {valueType : BindingValueType}
    {e : String × BindingValueType} (h : e ∈ controlPath binding valueType) :
    binding = some (.state e.1) ∧ e.2 = valueType := by
  unfold controlPath at h
  split at h
  · obtain rfl := List.mem_singleton.mp h
    exact ⟨rfl,rfl⟩
  · cases h

theorem mem_leafPaths {comp : Component} {e : String × BindingValueType} (h : e ∈ leafPaths comp) :
    ∃ prop, (prop,e.2) ∈ slotProps comp.kind ∧
      comp.props.get prop = some (.binding (.state e.1)) := by
  obtain ⟨⟨prop,valueType⟩,hprop,he⟩ := List.mem_flatMap.mp h
  unfold stateProp at he
  split at he
  · rename_i bind hget
    obtain rfl := List.mem_singleton.mp he
    exact ⟨prop,hprop,hget⟩
  · cases he

theorem NodeChecked.pathTyped {itemSchema : Option JsonSchema} {comp : Component}
    (h : NodeChecked env stateSchema itemSchema comp) {e : String × BindingValueType}
    (he : e ∈ ownPaths comp) : PathTyped stateSchema comp e := by
  unfold ownPaths at he
  cases h with
  | if_ hkind hif =>
    rw [(shapeOf_eq_branch_iff comp).mpr hkind] at he
    obtain ⟨hwhen,htype⟩ := mem_controlPath he
    obtain ⟨path,hparse,hresolve⟩ := validateIf_typed hif hwhen
    refine ⟨path,.boolean,hparse,hresolve,fun _ => ?_,fun hloop => ?_⟩
    · rw [htype]
      rfl
    · rw [hkind] at hloop
      exact absurd hloop (by decide)
  | forEach hkind items hforEach =>
    rw [(shapeOf_eq_loop_iff comp).mpr hkind] at he
    obtain ⟨hitems,htype⟩ := mem_controlPath he
    obtain ⟨path,maxItems,hparse,hresolve⟩ := validateForeach_typed hforEach hitems
    exact ⟨path,_,hparse,hresolve,fun hloop => absurd hkind hloop,fun _ => ⟨htype,_,_,rfl⟩⟩
  | element spec counts counts₁ counts₂ counts₃ hspec hkind helement hevents =>
    obtain ⟨hmem,hname⟩ := find_eq_ok hspec
    obtain ⟨hspecIf,hspecLoop⟩ := kind_of_spec spec hmem
    have hloop : comp.kind ≠ "ForEach" := by
      intro hcomp
      have hfor := hspecLoop.mpr (hname.trans hcomp)
      rw [hkind] at hfor
      cases hfor
    have hif : comp.kind ≠ "If" := by
      intro hcomp
      have hbranch := hspecIf.mpr (hname.trans hcomp)
      rw [hkind] at hbranch
      cases hbranch
    cases hshape : shapeOf comp with
    | leaf =>
      rw [hshape] at he
      obtain ⟨prop,hslot,hget⟩ := mem_leafPaths he
      obtain ⟨c,c',hvalid⟩ := validateElement_props helement hget
      obtain ⟨found,hfound,-,hbinding,-⟩ := validateProp_binding hvalid
      rw [← hname] at hslot hbinding
      obtain ⟨path,target,hparse,hresolve,hfits⟩ :=
        validateBinding_fits (e := (prop,e.2)) hmem hslot hfound hbinding
      exact ⟨path,target,hparse,hresolve,fun _ => hfits,fun hcomp => absurd hcomp hloop⟩
    | container =>
      rw [hshape] at he
      cases he
    | branch => exact absurd ((shapeOf_eq_branch_iff comp).mp hshape) hif
    | loop => exact absurd ((shapeOf_eq_loop_iff comp).mp hshape) hloop

/-- A loop binds the array that it repeats over. -/
theorem NodeChecked.loop_path {itemSchema : Option JsonSchema} {comp : Component}
    (h : NodeChecked env stateSchema itemSchema comp) (hkind : comp.kind = "ForEach") :
    ∃ bind, (bind,.string) ∈ ownPaths comp := by
  unfold ownPaths
  rw [(shapeOf_eq_loop_iff comp).mpr hkind]
  cases h with
  | if_ hif _ =>
    rw [hif] at hkind
    exact absurd hkind (by decide)
  | forEach _ items hforEach =>
    obtain ⟨-,h⟩ := check_bind_eq_ok.mp hforEach
    cases hitems : comp.items with
    | none =>
      rw [hitems] at h
      cases h
    | some binding =>
      rw [hitems] at h
      cases binding with
      | state bind => exact ⟨bind,List.mem_singleton_self _⟩
      | item item => cases h
  | element spec counts counts₁ counts₂ counts₃ hspec hspecKind _ _ =>
    obtain ⟨hmem,hname⟩ := find_eq_ok hspec
    have hloop := (kind_of_spec spec hmem).2.mpr (hname.trans hkind)
    rw [hspecKind] at hloop
    cases hloop

section Documents

variable {lib : JsonLib} {doc : UiDocument} {r : RenderedComponent} {body : List Markup} {ctx : Ctx}

/-- Every node of a rendered document has been checked. -/
theorem Rendering.checked (h : Rendering lib doc r body ctx) : ∃ uiMinor,
    ∀ node ∈ nodes doc.root,
      CheckedIn ⟨doc.events,uiMinor⟩ doc.state.schema none (nodes doc.root) node := by
  have hvalid := h.validated
  obtain ⟨uiMinor,-,hvalid⟩ := bind_eq_ok.mp hvalid
  simp only [check_bind_eq_ok] at hvalid
  obtain ⟨-,-,-,-,-,hvalid⟩ := hvalid
  obtain ⟨counts,hroot,-⟩ := bind_eq_ok.mp hvalid
  exact ⟨uiMinor,validateComponent_nodes hroot⟩

theorem Rendering.pathTyped (h : Rendering lib doc r body ctx) {e : String × BindingValueType}
    (he : e ∈ boundPaths doc.root) :
    ∃ node ∈ nodes doc.root, e ∈ ownPaths node ∧ PathTyped doc.state.schema node e := by
  obtain ⟨uiMinor,hchecked⟩ := h.checked
  obtain ⟨node,hnode,hown⟩ := List.mem_flatMap.mp he
  obtain ⟨item,hnodeChecked,-⟩ := hchecked node hnode
  exact ⟨node,hnode,hown,hnodeChecked.pathTyped hown⟩

end Documents

end Floatile.Renderer
