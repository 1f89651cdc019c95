import Floatile.Renderer.Sound
import Floatile.UiSchema.Expansion
import Mathlib.Data.List.Nodup

/-! The names that are generated for the state paths. A name joins the fields of its path, so two
paths have the same name when they differ in dots and underscores only. -/
namespace Floatile.Renderer

open Floatile.Lib
open Floatile.Lib.Checked (bind_eq_ok)
open Floatile.Core
open Floatile.UiSchema

/-- The text of a path with underscores for its dots; the root is the field `state`. -/
def flatPath (path : String) : List Char :=
  (if path = "$" then ['$','.','s','t','a','t','e'] else path.toList).map
    (fun c => if c = '.' then '_' else c)

theorem intercalate_splitOn_map {α : Type} [DecidableEq α] (a b : α) (xs : List α) :
    [b].intercalate (xs.splitOn a) = xs.map (fun c => if c = a then b else c) := by
  induction xs with
  | nil => rfl
  | cons x xs ih =>
    obtain ⟨first,rest,hsplit⟩ := List.exists_cons_of_ne_nil (List.splitOn_ne_nil a xs)
    rw [List.splitOn_cons_eq_if_modifyHead, List.map_cons, ← ih, hsplit]
    by_cases hx : x = a
    · rw [if_pos (by simp [hx]), if_pos hx]
      simp [List.intercalate]
    · rw [if_neg (by simp [hx]), if_neg hx]
      cases rest <;> simp [List.intercalate]

theorem parseField_eq_ok {path field segment : String}
    (h : parseField path field = .ok segment) : segment = field ∧ field ≠ "" := by
  unfold parseField at h
  split_ifs at h with hempty hchars
  · cases h
  · cases h
  · cases h
    exact ⟨rfl,fun heq => hempty (by rw [heq]; rfl)⟩

theorem mapM_parseField {path : String} {fields segments : List String}
    (h : fields.mapM (parseField path) = .ok segments) :
    segments = fields ∧ ∀ field ∈ fields, field ≠ "" := by
  rw [Checked.mapM_eq_ok_iff] at h
  induction h with
  | nil => simp
  | cons hfield _ ih =>
    obtain ⟨rfl,hne⟩ := parseField_eq_ok hfield
    obtain ⟨rfl,hrest⟩ := ih
    exact ⟨rfl,List.forall_mem_cons.mpr ⟨hne,hrest⟩⟩

/-- The name of a path is its flat text after the root. -/
theorem flatPath_eq {path : String} {segments : PathSegments}
    (h : PathSegments.parse path = .ok segments) :
    flatPath path = '$' :: '_' :: (pathPropName path).toList := by
  have hname := h
  unfold PathSegments.parse at h
  split at h
  · rename_i hlist
    have hroot : path = "$" := String.toList_inj.mp hlist
    subst hroot
    cases h
    rfl
  · rename_i rest hlist
    obtain ⟨fields,hfields,hsegments⟩ := bind_eq_ok.mp h
    cases hsegments
    obtain ⟨rfl,hne⟩ := mapM_parseField hfields
    have hroot : path ≠ "$" := by
      rintro rfl
      cases hlist
    have hjoin : ("_".intercalate (Text.splitChar (String.ofList rest) '.')).toList =
        rest.map (fun c => if c = '.' then '_' else c) := by
      rw [String.toList_intercalate, Text.splitChar, List.map_map]
      have hid : String.toList ∘ String.ofList = id := by
        funext cs
        exact String.toList_ofList
      rw [hid, List.map_id, String.toList_ofList (l := rest)]
      exact intercalate_splitOn_map '.' '_' rest
    have hnonempty : rest ≠ [] := by
      rintro rfl
      exact hne "" (by simp [Text.splitChar]) rfl
    have hname : pathPropName path = "_".intercalate (Text.splitChar (String.ofList rest) '.') := by
      unfold pathPropName
      rw [hname]
      refine if_neg ?_
      rw [String.isEmpty_iff, ← String.toList_inj, hjoin]
      simpa using hnonempty
    rw [hname, hjoin, flatPath, if_neg hroot, hlist]
    rfl
  · cases h
  · cases h

theorem propName_eq_iff {path path' : String} {segments segments' : PathSegments}
    (h : PathSegments.parse path = .ok segments) (h' : PathSegments.parse path' = .ok segments') :
    "prop_" ++ pathPropName path = "prop_" ++ pathPropName path' ↔ flatPath path = flatPath path' := by
  rw [flatPath_eq h, flatPath_eq h', ← String.toList_inj, String.toList_append,
    String.toList_append]
  simp

/-- The names that pieces mention. -/
def propNames (pieces : List Piece) : List String :=
  pieces.filterMap fun
    | .prop slot => some slot.prop
    | _ => none

/-- The names that the head of the source declares. -/
def declaredNames : List Markup → List String
  | .text pieces :: _ => propNames pieces
  | _ => []

/-- Different paths have different names, every name is declared once, and a name that is read in
the body stands for the path it is read for. -/
structure SlotsInjective (r : RenderedComponent) : Prop where
  named : ∀ slot ∈ r.bindings, ∀ slot' ∈ r.bindings, slot.path ≠ slot'.path → slot.prop ≠ slot'.prop
  declared : ∀ slot ∈ r.bindings, (declaredNames r.markup).count slot.prop = 1
  read : ∀ slot, .prop slot ∈ piecesList r.markup.tail →
    slot ∈ r.bindings ∧ ∀ slot' ∈ r.bindings, slot'.prop = slot.prop → slot' = slot

/-- No two bound paths differ in dots and underscores only. -/
def FlatDistinct (root : Component) : Prop :=
  ∀ e ∈ boundPaths root, ∀ e' ∈ boundPaths root, flatPath e.1 = flatPath e'.1 → e.1 = e'.1

instance (root : Component) : Decidable (FlatDistinct root) :=
  inferInstanceAs (Decidable (∀ e ∈ boundPaths root, ∀ e' ∈ boundPaths root,
    flatPath e.1 = flatPath e'.1 → e.1 = e'.1))

theorem propNames_append (pieces pieces' : List Piece) :
    propNames (pieces ++ pieces') = propNames pieces ++ propNames pieces' := List.filterMap_append

theorem propNames_slots (slots : List BindingSlot) :
    propNames (slots.flatMap slotDeclaration) = slots.map BindingSlot.prop := by
  induction slots with
  | nil => rfl
  | cons slot slots ih =>
    have hdefault : propNames [(slotType slot.valueType).2] = [] := by
      cases slot.valueType <;> rfl
    have hslot : propNames (slotDeclaration slot) = [slot.prop] := by
      change slot.prop :: propNames ([(slotType slot.valueType).2] ++ [.host ";\n"]) = [slot.prop]
      rw [propNames_append, hdefault]
      rfl
    rw [List.flatMap_cons, propNames_append, ih, hslot]
    rfl

theorem propNames_callbacks (slots : List EventSlot) :
    propNames (slots.flatMap callbackDeclaration) = [] := by
  induction slots with
  | nil => rfl
  | cons slot slots ih =>
    rw [List.flatMap_cons, propNames_append, ih]
    rfl

section Documents

variable {lib : JsonLib} {doc : UiDocument} {r : RenderedComponent} {body : List Markup} {ctx : Ctx}

theorem Rendering.declaredNames_eq (h : Rendering lib doc r body ctx) :
    declaredNames r.markup = r.bindings.map BindingSlot.prop := by
  rw [h.markup, wrapComponent]
  change propNames _ = _
  rw [propNames_append, propNames_append, propNames_append, propNames_slots, propNames_callbacks]
  simp [propNames]

/-- Every path has one slot. -/
theorem Rendering.paths_nodup (h : Rendering lib doc r body ctx) :
    (r.bindings.map BindingSlot.path).Nodup := by
  have hpaths : r.bindings.map BindingSlot.path = ctx.bindings.entries.map Prod.fst := by
    rw [h.bindings, List.map_map]
    refine List.map_congr_left fun e he => ?_
    have hget := (OrdMap.mem_entries_iff ctx.bindings e.1 e.2).mp he
    exact congrArg BindingSlot.path (h.steps.valid.named e.1 e.2 hget)
  rw [hpaths, List.nodup_iff_pairwise_ne, List.pairwise_map]
  exact ctx.bindings.ordered.imp ne_of_lt

theorem Rendering.parsed (h : Rendering lib doc r body ctx) {e : String × BindingValueType}
    (he : e ∈ boundPaths doc.root) : ∃ segments, PathSegments.parse e.1 = .ok segments :=
  h.steps.parsed e he

/-- A name that is read in the body belongs to a slot. -/
theorem Rendering.read_mem (h : Rendering lib doc r body ctx) {slot : BindingSlot}
    (hread : .prop slot ∈ piecesList r.markup.tail) : slot ∈ r.bindings := by
  rw [h.markup, wrapComponent, List.append_assoc, List.singleton_append, List.tail_cons,
    piecesList_append, List.mem_append] at hread
  rcases hread with hbody | hfoot
  · have hsound := h.renders.pieces (startCtx_valid doc) body (List.mem_singleton_self body) _ hbody
    rcases hsound with ⟨comp,hcomp,hsound⟩ | ⟨⟨text,htext⟩,-⟩
    · exact (h.mem_bindings slot).mpr ((sound_prop _ _ _).mp hsound)
    · cases htext
  · simp [piecesList, Markup.pieces] at hfoot

/-- Slots that are named alike belong to paths that differ in dots and underscores only. -/
theorem Rendering.flat_of_prop (h : Rendering lib doc r body ctx) {slot slot' : BindingSlot}
    (hslot : slot ∈ r.bindings) (hslot' : slot' ∈ r.bindings) :
    slot.prop = slot'.prop ↔ flatPath slot.path = flatPath slot'.path := by
  obtain ⟨heq,hbound⟩ := h.mem_boundPaths hslot
  obtain ⟨heq',hbound'⟩ := h.mem_boundPaths hslot'
  obtain ⟨segments,hparse⟩ := h.parsed hbound
  obtain ⟨segments',hparse'⟩ := h.parsed hbound'
  rw [heq, heq']
  exact propName_eq_iff hparse hparse'

/-- Every name is given once exactly when no two bound paths differ in dots and underscores only. -/
theorem Rendering.props_nodup_iff (h : Rendering lib doc r body ctx) :
    (r.bindings.map BindingSlot.prop).Nodup ↔ FlatDistinct doc.root := by
  constructor
  · intro hnodup e he e' he' hflat
    have hslot := h.slot_mem he
    have hslot' := h.slot_mem he'
    have hprop := (h.flat_of_prop hslot hslot').mpr hflat
    exact congrArg BindingSlot.path (List.inj_on_of_nodup_map hnodup hslot hslot' hprop)
  · intro hdistinct
    refine List.Nodup.map_on ?_ (List.Nodup.of_map _ h.paths_nodup)
    intro slot hslot slot' hslot' hprop
    obtain ⟨-,hbound⟩ := h.mem_boundPaths hslot
    obtain ⟨-,hbound'⟩ := h.mem_boundPaths hslot'
    have hpath := hdistinct _ hbound _ hbound' ((h.flat_of_prop hslot hslot').mp hprop)
    exact List.inj_on_of_nodup_map h.paths_nodup hslot hslot' hpath

end Documents

def textBind (path : String) : Component :=
  { plainComponent "Text" with
    props := OrdMap.ofList [("text",.binding (.state path))] }

/-- Two texts in a column: a nested field and another one. -/
def accountDocument (path : String) : UiDocument where
  uiApiVersion := "1.0.0"
  state := ⟨.object [("full_name",.string ""),("user",.object [("name",.string "")]),
      ("user_name",.string "")],
    .object ["user"] [("full_name",.string none),("user",.object ["name"] [("name",.string none)]
      false),("user_name",.string none)] false⟩
  events := OrdMap.empty
  root := { plainComponent "Column" with children := [textBind "$.user.name",textBind path] }

/-- The JSON library on documents with two texts. -/
def accountLib : JsonLib := ⟨fun _ => .ok 524,fun _ => ""⟩

end Floatile.Renderer
