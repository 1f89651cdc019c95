import Floatile.Services.Authorize
import Mathlib.Tactic.CongrExclamation

/-! The instance authority that the runtime derives from a manifest. The planner keeps the last
entry of a capability that is declared repeatedly, the broker decides by the first one. -/
namespace Floatile.Shell

open Floatile.Lib
open Floatile.Core
open Floatile.Core.Capability
open Floatile.Core.Authority
open Floatile.Core.Distribution (parsedPermission parsedPermissions)
open Floatile.Services

inductive GrantError where
  | grant (detail : String)
  deriving DecidableEq

/-- One declaration: unknown capabilities are skipped, invalid parameters are an error. -/
def declGrant (caps : List Grant) (decl : PermissionDecl) : Except GrantError (List Grant) :=
  match CapabilityId.fromName decl.capability with
  | none => .ok caps
  | some c =>
    match parseCapabilityParams c decl.params with
    | .error e => .error (.grant s!"{c.name}: {e.display}")
    | .ok params => .ok (caps ++ [⟨c,params,.derivedFromInstall⟩])

def manifestGrants (id : PluginId) (manifest : Manifest) (inst : InstanceId) :
    Except GrantError InstanceGrant := do
  let caps ← manifest.permissions.foldlM declGrant []
  (narrowInstance ⟨id,caps,.dev⟩ inst caps).mapError (fun e => .grant e.display)

/-- A broker built from the manifest authorizes the request. A manifest from which no broker
can be built authorizes nothing. -/
def BrokerAuthorizes (id : PluginId) (inst : InstanceId) (manifest : Manifest)
    (c : CapabilityId) (request : Option CapabilityParams) : Prop :=
  ∃ ig, manifestGrants id manifest inst = .ok ig ∧
    (authorize (mergeInherent ig.caps) ⟨id.text,inst.value⟩ c request "").1 = .ok ()

/-- The parsed declarations of a manifest in their order. -/
def declaredEntries (manifest : Manifest) : List (CapabilityId × Option CapabilityParams) :=
  manifest.permissions.filterMap (fun decl => (parsedPermission decl).toOption)

/-- The parameters by which the broker decides. -/
def firstParams (manifest : Manifest) (c : CapabilityId) : Option (Option CapabilityParams) :=
  ((declaredEntries manifest).find? (fun e => e.1 = c)).map Prod.snd

/-- The parameters that the planner compares. -/
def lastParams (manifest : Manifest) (c : CapabilityId) : Option (Option CapabilityParams) :=
  ((declaredEntries manifest).reverse.find? (fun e => e.1 = c)).map Prod.snd

/-- No capability is declared twice. -/
def DeclaredOnce (manifest : Manifest) : Prop :=
  ((declaredEntries manifest).map Prod.fst).Nodup

instance (manifest : Manifest) : Decidable (DeclaredOnce manifest) :=
  inferInstanceAs (Decidable (List.Nodup _))

/-- Among entries of different keys every entry is the one found under its key. -/
theorem find?_of_nodup {es : List (CapabilityId × Option CapabilityParams)}
    (hnodup : (es.map Prod.fst).Nodup) {e : CapabilityId × Option CapabilityParams} (he : e ∈ es) :
    es.find? (fun e' => e'.1 = e.1) = some e := by
  induction es with
  | nil => simp at he
  | cons e' es ih =>
    obtain ⟨hhead,htail⟩ := List.nodup_cons.mp hnodup
    rcases List.mem_cons.mp he with rfl | he
    · simp
    · have hne : e'.1 ≠ e.1 := fun h => hhead (h ▸ List.mem_map_of_mem he)
      simp [hne, ih htail he]

theorem firstParams_eq_lastParams {manifest : Manifest} (h : DeclaredOnce manifest)
    (c : CapabilityId) : firstParams manifest c = lastParams manifest c := by
  unfold firstParams lastParams
  congr 1
  cases hfind : (declaredEntries manifest).find? (fun e => e.1 = c) with
  | none =>
    symm
    rw [List.find?_eq_none] at hfind ⊢
    exact fun e he => hfind e (List.mem_reverse.mp he)
  | some e =>
    have hc : e.1 = c := by simpa using List.find?_some hfind
    subst hc
    refine (find?_of_nodup ?_ ?_).symm
    · rw [List.map_reverse]
      exact List.pairwise_reverse.mpr (h.imp Ne.symm)
    · exact List.mem_reverse.mpr (List.mem_of_find?_eq_some hfind)

def entryGrant (e : CapabilityId × Option CapabilityParams) : Grant :=
  ⟨e.1,e.2,.derivedFromInstall⟩

@[simp] theorem entryGrant_capability (e : CapabilityId × Option CapabilityParams) :
    (entryGrant e).capability = e.1 := rfl

@[simp] theorem entryGrant_params (e : CapabilityId × Option CapabilityParams) :
    (entryGrant e).params = e.2 := rfl

theorem findGrant_map_entryGrant (es : List (CapabilityId × Option CapabilityParams))
    (c : CapabilityId) :
    findGrant (es.map entryGrant) c = (es.find? (fun e => e.1 = c)).map entryGrant := by
  rw [findGrant, List.find?_map]
  rfl

/-- A valid permission names a capability that is not inherent. -/
theorem parsedPermission_of_validatePermission {decl : PermissionDecl}
    (h : validatePermission decl = .ok ()) :
    ∃ c params, parsedPermission decl = .ok (c,params) ∧ c.isInherent = false ∧
      ∀ caps, declGrant caps decl = .ok (caps ++ [entryGrant (c,params)]) := by
  unfold validatePermission at h
  cases hc : CapabilityId.fromName decl.capability with
  | none => simp [hc] at h
  | some c =>
    simp only [hc] at h
    cases hin : c.isInherent with
    | true => simp [hin] at h
    | false =>
      cases hp : parseCapabilityParams c decl.params with
      | error e => cases e <;> simp [hin, hp] at h
      | ok params =>
        refine ⟨c,params,?_,hin,fun caps => ?_⟩
        · simp [parsedPermission, hc, hp]
        · simp [declGrant, hc, hp, entryGrant]

section Valid

variable {decls : List PermissionDecl} (hvalid : ∀ d ∈ decls, validatePermission d = .ok ())

include hvalid

theorem mapM_parsedPermission :
    decls.mapM parsedPermission =
      .ok (decls.filterMap (fun d => (parsedPermission d).toOption)) := by
  rw [Checked.mapM_eq_ok_iff]
  induction decls with
  | nil => exact List.Forall₂.nil
  | cons d ds ih =>
    obtain ⟨hd,hds⟩ := List.forall_mem_cons.mp hvalid
    obtain ⟨c,params,hparse,-,-⟩ := parsedPermission_of_validatePermission hd
    rw [List.filterMap_cons_some (b := (c,params)) (by simp [hparse])]
    exact List.Forall₂.cons hparse (ih hds)

theorem foldlM_declGrant (caps : List Grant) :
    decls.foldlM declGrant caps =
      .ok (caps ++ (decls.filterMap (fun d => (parsedPermission d).toOption)).map entryGrant) := by
  induction decls generalizing caps with
  | nil => simp
  | cons d ds ih =>
    obtain ⟨hd,hds⟩ := List.forall_mem_cons.mp hvalid
    obtain ⟨c,params,hparse,-,hgrant⟩ := parsedPermission_of_validatePermission hd
    rw [List.foldlM_cons, hgrant, List.filterMap_cons_some (b := (c,params)) (by simp [hparse])]
    simpa using ih hds (caps ++ [entryGrant (c,params)])

theorem declared_not_inherent :
    ∀ e ∈ decls.filterMap (fun d => (parsedPermission d).toOption), e.1.isInherent = false := by
  intro e he
  obtain ⟨d,hd,hde⟩ := List.mem_filterMap.mp he
  obtain ⟨c,params,hparse,hin,-⟩ := parsedPermission_of_validatePermission (hvalid d hd)
  rw [hparse] at hde
  obtain rfl := Option.some.inj hde
  exact hin

end Valid

section Authority

variable {id : PluginId} {inst : InstanceId} {manifest : Manifest}
  (hvalid : ∀ d ∈ manifest.permissions, validatePermission d = .ok ())

/-- Every repeated declaration stays within the first one of its capability. -/
def SelfNarrow (manifest : Manifest) : Prop :=
  ∀ e ∈ declaredEntries manifest, ∀ p, firstParams manifest e.1 = some p →
    Capability.paramsWithin p e.2 = true

theorem selfNarrow_of_declaredOnce {manifest : Manifest} (h : DeclaredOnce manifest) :
    SelfNarrow manifest := by
  intro e he p hp
  rw [firstParams, find?_of_nodup h he] at hp
  obtain rfl := Option.some.inj hp
  exact paramsWithin_refl e.2

theorem findGrant_entries (manifest : Manifest) (c : CapabilityId) :
    findGrant ((declaredEntries manifest).map entryGrant) c =
      (firstParams manifest c).map (fun p => entryGrant (c,p)) := by
  rw [findGrant_map_entryGrant, firstParams, Option.map_map]
  cases h : (declaredEntries manifest).find? (fun e => e.1 = c) with
  | none => rfl
  | some e =>
    have hc : e.1 = c := by simpa using List.find?_some h
    simp [entryGrant, hc]

include hvalid

/-- The runtime accepts a valid manifest exactly when its repeated declarations narrow. -/
theorem manifestGrants_eq_ok_iff (ig : InstanceGrant) :
    manifestGrants id manifest inst = .ok ig ↔
      SelfNarrow manifest ∧ ig = ⟨inst,(declaredEntries manifest).map entryGrant⟩ := by
  have hcaps : manifest.permissions.foldlM declGrant [] =
      .ok ((declaredEntries manifest).map entryGrant) := by
    simpa [declaredEntries] using foldlM_declGrant hvalid []
  rw [manifestGrants, hcaps, Checked.ok_bind, Checked.mapError_eq_ok]
  rw [narrowInstance_eq_ok_iff, and_comm]
  refine and_congr_left fun _ => ?_
  simp only [List.forall_mem_map, Grants.find, findGrant_entries]
  refine forall₂_congr fun e he => ?_
  cases hp : firstParams manifest e.1 with
  | none =>
    -- the entry itself is a declaration of its capability
    have hnone := List.find?_eq_none.mp (Option.map_eq_none_iff.mp hp) e he
    simp at hnone
  | some p => simp [hp]

theorem firstParams_of_inherent {c : CapabilityId} (hc : c.isInherent = true) :
    firstParams manifest c = none := by
  rw [firstParams, Option.map_eq_none_iff, List.find?_eq_none]
  intro e he hec
  have hne := declared_not_inherent hvalid e he
  simp only [decide_eq_true_eq] at hec
  simp [hec, hc] at hne

/-- The broker decides a declared capability by its first declaration, an inherent one without
parameters. -/
theorem brokerAuthorizes_iff (c : CapabilityId) (r : Option CapabilityParams) :
    BrokerAuthorizes id inst manifest c r ↔ SelfNarrow manifest ∧
      ((∃ p, firstParams manifest c = some p ∧ Permits p r) ∨
        (c.isInherent = true ∧ Permits none r)) := by
  simp only [BrokerAuthorizes, manifestGrants_eq_ok_iff hvalid, authorize_eq_ok]
  constructor
  · rintro ⟨ig,⟨hnarrow,rfl⟩,hallow⟩
    refine ⟨hnarrow,?_⟩
    rw [findGrant_mergeInherent, findGrant_entries] at hallow
    cases hp : firstParams manifest c with
    | some p =>
      rw [hp] at hallow
      exact Or.inl ⟨p,rfl,(allows_some_iff _ _).mp hallow⟩
    | none =>
      rw [hp] at hallow
      cases hc : c.isInherent with
      | true =>
        rw [hc] at hallow
        exact Or.inr ⟨rfl,(allows_some_iff _ _).mp hallow⟩
      | false => simp [hc] at hallow
  · rintro ⟨hnarrow,hpermits⟩
    refine ⟨_,⟨hnarrow,rfl⟩,?_⟩
    rw [findGrant_mergeInherent, findGrant_entries]
    rcases hpermits with ⟨p,hp,hpermits⟩ | ⟨hc,hpermits⟩
    · simpa [hp, allows_some_iff] using hpermits
    · simpa [firstParams_of_inherent hvalid hc, hc, allows_some_iff] using hpermits

theorem parsedPermissions_eq :
    parsedPermissions manifest = .ok (SortedMap.ofList (declaredEntries manifest)) := by
  rw [parsedPermissions, mapM_parsedPermission hvalid]
  rfl

end Authority

theorem find_parsed (manifest : Manifest) (c : CapabilityId) :
    SortedMap.find c (SortedMap.ofList (declaredEntries manifest)) = lastParams manifest c := by
  rw [SortedMap.find_ofList, lastParams]
  congr!

end Floatile.Shell
