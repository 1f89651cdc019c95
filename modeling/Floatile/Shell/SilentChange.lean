import Floatile.Shell.ManifestGrants
import Floatile.Lib.Version

/-! Changes of a manifest that need no confirmation, and what they do to the authority of the
broker. -/
namespace Floatile.Shell

open Floatile.Lib
open Floatile.Lib.Version
open Floatile.Core
open Floatile.Core.Capability
open Floatile.Core.Authority
open Floatile.Core.Distribution (PermissionChange PermissionChangeKind permissionChanges
  changeKind changedCapabilities planUpgrade planRollback)
open Floatile.Services

theorem mem_changedCapabilities (current : List (CapabilityId × Option CapabilityParams))
    {candidate : List (CapabilityId × Option CapabilityParams)} {c : CapabilityId} {p : Option CapabilityParams} (h : SortedMap.find c candidate = some p) :
    c ∈ changedCapabilities current candidate := by
  have hmem : (c,()) ∈ (current ++ candidate).map (fun e => (e.1,())) := by
    rw [List.map_append]
    exact List.mem_append_right _ (List.mem_map.mpr ⟨(c,p),SortedMap.mem_of_find h,rfl⟩)
  obtain ⟨u,hu⟩ := Option.isSome_iff_exists.mp (SortedMap.find_ofList_isSome_of_mem hmem)
  exact List.mem_map.mpr ⟨(c,u),SortedMap.mem_of_find hu,rfl⟩

section Planner

variable {Version : Type} [LinearOrder Version] (parseVersion : String → Except String Version)

/-- A change that the planner lets through without asking. -/
def SilentChange (current candidate : Manifest) : Prop :=
  (∃ plan, planUpgrade parseVersion current candidate = .ok plan ∧
    plan.requiresConfirmation = false) ∨
  ∃ plan, planRollback parseVersion current candidate = .ok plan

variable {parseVersion}

theorem permissionChanges_of_silentChange {current candidate : Manifest}
    (h : SilentChange parseVersion current candidate) :
    ∃ changes, permissionChanges current candidate = .ok changes ∧
      changes.any PermissionChange.expands = false := by
  rcases h with ⟨plan,hplan,hconfirm⟩ | ⟨plan,hplan⟩
  · simp only [planUpgrade, Checked.bind_eq_ok, Checked.mapError_eq_ok] at hplan
    obtain ⟨_,-,_,-,_,-,_,-,_,-,_,-,changes,hchanges,hplan⟩ := hplan
    obtain rfl := Except.ok.inj hplan
    exact ⟨changes,hchanges,hconfirm⟩
  · simp only [planRollback, Checked.bind_eq_ok, Checked.mapError_eq_ok] at hplan
    obtain ⟨_,-,_,-,_,-,_,-,_,-,_,-,changes,hchanges,_,hexpands,-⟩ := hplan
    exact ⟨changes,hchanges,by simpa using hexpands⟩

variable {current candidate : Manifest}
  (hcurrent : ∀ d ∈ current.permissions, validatePermission d = .ok ())
  (hcandidate : ∀ d ∈ candidate.permissions, validatePermission d = .ok ())

include hcurrent hcandidate

/-- What the planner compares does not grow in a silent change. -/
theorem lastParams_within (h : SilentChange parseVersion current candidate) {c : CapabilityId}
    {p : Option CapabilityParams} (hp : lastParams candidate c = some p) :
    ∃ q, lastParams current c = some q ∧ Distribution.paramsWithin p q = true := by
  obtain ⟨changes,hchanges,hexpands⟩ := permissionChanges_of_silentChange h
  rw [permissionChanges, parsedPermissions_eq hcurrent, parsedPermissions_eq hcandidate] at hchanges
  obtain rfl := Except.ok.inj hchanges
  rw [List.any_eq_false] at hexpands
  have hc := mem_changedCapabilities (SortedMap.ofList (declaredEntries current))
    ((find_parsed candidate c).trans hp)
  have hkind : ∀ kind, changeKind (lastParams current c) (some p) = some kind →
      (⟨c,kind⟩ : PermissionChange).expands = false := by
    intro kind hkind
    rw [← Bool.not_eq_true]
    refine hexpands ⟨c,kind⟩ (List.mem_filterMap.mpr ⟨c,hc,?_⟩)
    rw [find_parsed, find_parsed, hp, hkind]
    rfl
  cases hq : lastParams current c with
  | none =>
    have hadded := hkind .added (by rw [hq]; rfl)
    simp [PermissionChange.expands] at hadded
  | some q =>
    refine ⟨q,rfl,?_⟩
    by_cases heq : q = p
    · rw [heq]
      exact paramsWithin_refl p
    · by_contra hwithin
      have hexpanded := hkind .expanded (by simp [hq, changeKind, heq, hwithin])
      simp [PermissionChange.expands] at hexpanded

end Planner

/-- Repeated declarations do no harm: when the candidate runs at all, the current manifest runs
too, and where the first and the last declaration of a capability differ on one of the sides, the
first ones are within each other. -/
def RepeatsHarmless (current candidate : Manifest) : Prop :=
  SelfNarrow candidate → SelfNarrow current ∧
    ∀ c p, firstParams candidate c = some p →
      (firstParams candidate c ≠ lastParams candidate c ∨
        firstParams current c ≠ lastParams current c) →
      ∃ q, firstParams current c = some q ∧ Distribution.paramsWithin p q = true

theorem repeatsHarmless_of_declaredOnce {current candidate : Manifest}
    (hcurrent : DeclaredOnce current) (hcandidate : DeclaredOnce candidate) :
    RepeatsHarmless current candidate := by
  refine fun _ => ⟨selfNarrow_of_declaredOnce hcurrent,fun c p _ hrep => ?_⟩
  rcases hrep with hrep | hrep
  · exact absurd (firstParams_eq_lastParams hcandidate c) hrep
  · exact absurd (firstParams_eq_lastParams hcurrent c) hrep

/-- The broker of the candidate authorizes nothing new exactly when repeated declarations do no
harm. -/
theorem silentChange_gains_nothing_iff {Version : Type} [LinearOrder Version]
    (parseVersion : String → Except String Version) (id : PluginId) (inst : InstanceId)
    (current candidate : Manifest)
    (hcurrent : validateManifest parseVersion current = .ok ())
    (hcandidate : validateManifest parseVersion candidate = .ok ())
    (h : SilentChange parseVersion current candidate) :
    (∀ c r, BrokerAuthorizes id inst candidate c r → BrokerAuthorizes id inst current c r) ↔
      RepeatsHarmless current candidate := by
  have hcur := validatePermission_of_validateManifest hcurrent
  have hcand := validatePermission_of_validateManifest hcandidate
  simp only [brokerAuthorizes_iff hcur, brokerAuthorizes_iff hcand]
  constructor
  · intro hsub hnarrow
    -- the clock is always authorized, so the current manifest has a broker
    obtain ⟨hnarrow',-⟩ := hsub .clockRead none ⟨hnarrow,Or.inr ⟨rfl,trivial⟩⟩
    refine ⟨hnarrow',fun c p hp _ => ?_⟩
    have hdeclared : c.isInherent ≠ true := by
      intro hc
      rw [firstParams_of_inherent hcand hc] at hp
      cases hp
    have hpermits : ∀ r, Permits p r → ∃ q, firstParams current c = some q ∧ Permits q r := by
      intro r hr
      obtain ⟨-,hq | ⟨hc,-⟩⟩ := hsub c r ⟨hnarrow,Or.inl ⟨p,hp,hr⟩⟩
      · exact hq
      · exact absurd hc hdeclared
    obtain ⟨q,hq,-⟩ := hpermits p (permits_self p)
    refine ⟨q,hq,(paramsWithin_iff p q).mpr fun r hr => ?_⟩
    obtain ⟨q',hq',hr'⟩ := hpermits r hr
    rw [hq] at hq'
    obtain rfl := Option.some.inj hq'
    exact hr'
  · rintro hharmless c r ⟨hnarrow,hpermits⟩
    obtain ⟨hnarrow',hrepeated⟩ := hharmless hnarrow
    refine ⟨hnarrow',hpermits.imp_left ?_⟩
    rintro ⟨p,hp,hr⟩
    have hwithin : ∃ q, firstParams current c = some q ∧
        Distribution.paramsWithin p q = true := by
      by_cases hrep : firstParams candidate c ≠ lastParams candidate c ∨
          firstParams current c ≠ lastParams current c
      · exact hrepeated c p hp hrep
      · simp only [ne_eq, not_or, not_not] at hrep
        rw [hrep.2]
        exact lastParams_within hcur hcand h (hrep.1 ▸ hp)
    obtain ⟨q,hq,hpq⟩ := hwithin
    exact ⟨q,hq,(paramsWithin_iff p q).mp hpq r hr⟩

/-- A valid manifest with given version and permissions. -/
def timerManifest (version : String) (permissions : List PermissionDecl) : Manifest where
  manifestVersion := 1
  id := ⟨"org.example.clock"⟩
  name := "Clock"
  description := none
  version := version
  publisher := ⟨"org.example","Example"⟩
  engineApiVersion := "1.2.0"
  uiApiVersion := "1.6.0"
  kind := .widget
  entrypoints := ⟨⟨"ui/widget.ftui",widgetUi_valid⟩,⟨"logic/plugin.wasm",pluginLogic_valid⟩⟩
  sizes := ⟨⟨200,100⟩,⟨100,50⟩,⟨400,200⟩⟩
  permissions := permissions
  httpTemplates := []
  storage := none

def timerDecl (maxPerMinute maxActive : UInt64) : PermissionDecl :=
  ⟨"timer:schedule",some (.object [("maxActive",.number (.posInt maxActive)),
    ("maxPerMinute",.number (.posInt maxPerMinute))])⟩

def slowTimer : Manifest := timerManifest "1.0.0" [timerDecl 10 1]

/-- The planner sees the slow timer of the second declaration, the broker the fast one. -/
def repeatedTimer : Manifest := timerManifest "1.0.1" [timerDecl 60 8,timerDecl 10 1]

def slowerTimer : Manifest := timerManifest "1.0.1" [timerDecl 5 1]

theorem slowerTimer_gains_nothing :
    BrokerAuthorizes ⟨"org.example.clock"⟩ ⟨1⟩ slowTimer .timerSchedule (some (.timer 5 1)) := by
  refine (silentChange_gains_nothing_iff parseCoreVersion ⟨"org.example.clock"⟩ ⟨1⟩ slowTimer
    slowerTimer rfl rfl (Or.inl ⟨_,rfl,rfl⟩)).mpr ?_ .timerSchedule (some (.timer 5 1)) ?_
  · exact repeatsHarmless_of_declaredOnce (by decide) (by decide)
  · exact ⟨_,rfl,rfl⟩

/-- A silent upgrade between valid manifests that gains a faster timer. -/
theorem repeatedTimer_gains :
    validateManifest parseCoreVersion slowTimer = .ok () ∧
    validateManifest parseCoreVersion repeatedTimer = .ok () ∧
    SilentChange parseCoreVersion slowTimer repeatedTimer ∧
    BrokerAuthorizes ⟨"org.example.clock"⟩ ⟨1⟩ repeatedTimer .timerSchedule
      (some (.timer 60 8)) ∧
    ¬BrokerAuthorizes ⟨"org.example.clock"⟩ ⟨1⟩ slowTimer .timerSchedule
      (some (.timer 60 8)) := by
  refine ⟨rfl,rfl,Or.inl ⟨_,rfl,rfl⟩,⟨_,rfl,rfl⟩,?_⟩
  rintro ⟨ig,hig,hallow⟩
  obtain rfl := Except.ok.inj hig
  cases hallow

end Floatile.Shell
