import Floatile.Core.Distribution
import Floatile.Lib.Checked
import Mathlib.Order.Basic

/-! What the permission decision allows, as sets of requests. The order test of the upgrade
planner is exact for these sets; the one of `narrowInstance` is not. -/
namespace Floatile.Core.Authority

open Floatile.Lib
open Floatile.Core.Capability

section Attenuation

variable {γ ρ : Type*} (allows : γ → ρ → Prop)

/-- `g` permits nothing that `g'` forbids. -/
def Attenuates (g g' : γ) : Prop := ∀ r, allows g r → allows g' r

theorem Attenuates.refl (g : γ) : Attenuates allows g g := fun _ h => h

end Attenuation

/-- The requests within given parameters. -/
def Permits (params request : Option CapabilityParams) : Prop :=
  match params, request with
  | none, none => True
  | some (.storage keys maxBytes), some (.storage rk rb) =>
    (keys = [] ∨ ∀ k ∈ rk, k ∈ keys) ∧ rb ≤ maxBytes
  | some (.timer maxPerMinute maxActive), some (.timer rp ra) =>
    rp ≤ maxPerMinute ∧ ra ≤ maxActive
  | some (.metrics sampleRateHz), some (.metrics rr) => rr ≤ sampleRateHz
  | some (.network origins maxRequests maxBytes maxTimeout), some (.network ro rr rb rt) =>
    (∀ o ∈ ro, o ∈ origins) ∧ rr ≤ maxRequests ∧ rb ≤ maxBytes ∧ rt ≤ maxTimeout
  | _, _ => False

/-- The requests that a possibly missing grant allows. -/
def Allows (grant : Option Grant) (request : Option CapabilityParams) : Prop :=
  Capability.decide grant request = .allowed

@[simp] theorem not_allows_none (r : Option CapabilityParams) : ¬Allows none r := by
  simp [Allows, Capability.decide]

/-- A check that denies is passed exactly when its condition is false. -/
@[simp] theorem ite_denied_eq_allowed (p : Prop) [Decidable p] (reason : DenyReason)
    (d : PermissionDecision) :
    (if p then .denied reason else d) = PermissionDecision.allowed ↔ ¬p ∧ d = .allowed := by
  split_ifs with h <;> simp [h]

@[simp] theorem not_all_contains (xs ys : List String) :
    (!xs.all ys.contains) = true ↔ ¬∀ x ∈ xs, x ∈ ys := by
  simp

theorem allows_some_iff (g : Grant) (r : Option CapabilityParams) :
    Allows (some g) r ↔ Permits g.params r := by
  obtain ⟨c,params,e⟩ := g
  cases r with
  | none => cases params <;> simp [Allows, Capability.decide, Permits]
  | some r =>
    cases params with
    | none => simp [Allows, Capability.decide, Permits]
    | some p =>
      cases p <;> cases r <;> simp only [Allows, Capability.decide, Permits,
        ite_denied_eq_allowed, not_all_contains, not_or, not_lt, not_not, and_true, reduceCtorEq]
      case storage.storage keys maxBytes rk rb =>
        have hscope : (!(keys.isEmpty || rk.all keys.contains)) = true ↔
            ¬(keys = [] ∨ ∀ k ∈ rk, k ∈ keys) := by
          cases keys <;> simp
        rw [hscope, not_not]

/-- Parameters permit at least the request that spells them out. -/
theorem permits_self (p : Option CapabilityParams) : Permits p p := by
  cases p with
  | none => trivial
  | some p => cases p <;> simp [Permits]

theorem keyScopeWithin_iff (candidate current : List String) :
    Distribution.keyScopeWithin candidate current = true ↔
      ∀ rk : List String, (candidate = [] ∨ ∀ k ∈ rk, k ∈ candidate) →
        (current = [] ∨ ∀ k ∈ rk, k ∈ current) := by
  unfold Distribution.keyScopeWithin
  cases hcur : current.isEmpty with
  | true => simp [List.isEmpty_iff.mp hcur]
  | false =>
    have hne : current ≠ [] := by simpa using hcur
    simp only [Bool.false_eq_true, ↓reduceIte, Bool.and_eq_true, Bool.not_eq_true',
      List.all_eq_true, List.contains_iff_mem, hne, false_or]
    constructor
    · rintro ⟨hcand,hsub⟩ rk hrk k hk
      rcases hrk with rfl | hrk
      · simp at hcand
      · exact hsub k (hrk k hk)
    · intro h
      constructor
      · rw [← Bool.not_eq_true, List.isEmpty_iff]
        rintro rfl
        -- an empty key list also admits a key outside the current ones
        exact Text.freshText_notMem current (h [Text.freshText current] (Or.inl rfl) _ (by simp))
      · exact fun k hk => h candidate (Or.inr fun _ h => h) k hk

/-- The planner's order test holds exactly when the candidate attenuates the current grant. -/
theorem paramsWithin_iff (candidate current : Option CapabilityParams) :
    Distribution.paramsWithin candidate current = true ↔
      Attenuates Permits candidate current := by
  constructor
  · intro h r hr
    cases candidate with
    | none =>
      cases current with
      | none => exact hr
      | some p => simp [Distribution.paramsWithin] at h
    | some i =>
      cases current with
      | none => simp [Distribution.paramsWithin] at h
      | some p =>
        cases r with
        | none => cases i <;> simp [Permits] at hr
        | some r =>
          cases i <;> cases p <;> simp only [Distribution.paramsWithin, Bool.and_eq_true,
            decide_eq_true_eq, List.all_eq_true, List.contains_iff_mem, Bool.false_eq_true] at h <;>
            cases r <;> simp only [Permits] at hr ⊢
          · exact ⟨(keyScopeWithin_iff _ _).mp h.1 _ hr.1,hr.2.trans h.2⟩
          · exact ⟨hr.1.trans h.1,hr.2.trans h.2⟩
          · exact hr.trans h
          · exact ⟨fun o ho => h.1.1.1 o (hr.1 o ho),hr.2.1.trans h.1.1.2,
              hr.2.2.1.trans h.1.2,hr.2.2.2.trans h.2⟩
  · intro h
    have hself := h candidate (permits_self candidate)
    cases candidate with
    | none => cases current <;> simp_all [Permits, Distribution.paramsWithin]
    | some i =>
      cases current with
      | none => cases i <;> simp [Permits] at hself
      | some p =>
        cases i <;> cases p <;> simp only [Permits] at hself
        case storage.storage ck cb keys maxBytes =>
          have hkeys : Distribution.keyScopeWithin ck keys = true := by
            rw [keyScopeWithin_iff]
            intro rk hrk
            exact (h (some (.storage rk 0)) ⟨hrk,Nat.zero_le _⟩).1
          simp [Distribution.paramsWithin, hkeys, hself.2]
        all_goals simpa [Distribution.paramsWithin, and_assoc] using hself

/-- The two shapes that `Capability.paramsWithin` accepts although they ask for more: an entry
without parameters below one with parameters, and "all keys" below a list of keys. -/
def Widens (plugin inst : Option CapabilityParams) : Prop :=
  match plugin, inst with
  | some _, none => True
  | some (.storage keys _), some (.storage ik _) => keys ≠ [] ∧ ik = []
  | _, _ => False

/-- Outside of the two shapes both order tests agree. -/
theorem within_iff_not_widens {plugin inst : Option CapabilityParams}
    (h : Capability.paramsWithin plugin inst = true) :
    Distribution.paramsWithin inst plugin = true ↔ ¬Widens plugin inst := by
  cases plugin with
  | none => cases inst <;> simp_all [Capability.paramsWithin, Distribution.paramsWithin, Widens]
  | some p =>
    cases inst with
    | none => simp [Distribution.paramsWithin, Widens]
    | some i =>
      cases p <;> cases i <;>
        simp_all [Capability.paramsWithin, Distribution.paramsWithin, Widens,
          Distribution.keyScopeWithin]
      grind

theorem paramsWithin_refl (p : Option CapabilityParams) : Distribution.paramsWithin p p = true :=
  (paramsWithin_iff p p).mpr (Attenuates.refl Permits p)

theorem attenuates_some_iff (g p : Grant) :
    Attenuates Allows (some g) (some p) ↔ Attenuates Permits g.params p.params := by
  simp only [Attenuates, allows_some_iff]

/-- An instance is accepted exactly when every entry passes the order test against the plugin's
grant; its entries are kept as they are. -/
theorem narrowInstance_eq_ok_iff (plugin : Grants) (id : InstanceId) (caps : List Grant)
    (ig : InstanceGrant) :
    narrowInstance plugin id caps = .ok ig ↔ ig = ⟨id,caps⟩ ∧
      ∀ g ∈ caps, ∃ p, plugin.find g.capability = some p ∧
        Capability.paramsWithin p.params g.params = true := by
  have hentry : ∀ g, narrowEntry plugin g = .ok () ↔ ∃ p,
      plugin.find g.capability = some p ∧ Capability.paramsWithin p.params g.params = true := by
    intro g
    unfold narrowEntry
    cases plugin.find g.capability <;> simp
  rw [narrowInstance, Checked.check_bind_eq_ok, Checked.forM_eq_ok_iff, and_comm]
  simp only [hentry, Except.ok.injEq, eq_comm]

/-- An accepted instance stays within the plugin's authority exactly when none of the two
widening shapes occurs between the first entries of a capability on both sides. -/
theorem narrowInstance_attenuates_iff (plugin : Grants) (id : InstanceId) (caps : List Grant)
    (ig : InstanceGrant) (h : narrowInstance plugin id caps = .ok ig) :
    (∀ c r, Capability.decide (findGrant ig.caps c) r = .allowed →
        Capability.decide (plugin.find c) r = .allowed) ↔
      ∀ c p g, plugin.find c = some p → findGrant caps c = some g →
        ¬Widens p.params g.params := by
  obtain ⟨rfl,hwithin⟩ := (narrowInstance_eq_ok_iff plugin id caps ig).mp h
  constructor
  · intro hsub c p g hp hg
    obtain ⟨p',hp',hpg⟩ := hwithin g (mem_of_findGrant hg)
    rw [capability_of_findGrant hg, hp] at hp'
    obtain rfl := Option.some.inj hp'
    rw [← within_iff_not_widens hpg, paramsWithin_iff, ← attenuates_some_iff]
    intro r hr
    rw [← hp]
    rw [← hg] at hr
    exact hsub c r hr
  · intro hno c r hr
    cases hg : findGrant caps c with
    | none => simp [hg, Capability.decide] at hr
    | some g =>
      obtain ⟨p,hp,hpg⟩ := hwithin g (mem_of_findGrant hg)
      rw [capability_of_findGrant hg] at hp
      have hatt := (paramsWithin_iff _ _).mp
        ((within_iff_not_widens hpg).mpr (hno c p g hp hg))
      simp only [hg] at hr
      rw [hp]
      exact (attenuates_some_iff g p).mpr hatt r hr

/-- A plugin that may read one key. -/
def settingsReader : Grants :=
  ⟨⟨"org.example.notes"⟩,[⟨.storageRead,some (.storage ["settings"] 1024),.explicit⟩],.dev⟩

/-- An instance that asks for fewer bytes of the same key. -/
def settingsInstance : List Grant :=
  [⟨.storageRead,some (.storage ["settings"] 512),.explicit⟩]

/-- An instance whose empty key list means every key. -/
def wholeStoreInstance : List Grant :=
  [⟨.storageRead,some (.storage [] 1024),.explicit⟩]

theorem settingsInstance_attenuates :
    narrowInstance settingsReader ⟨1⟩ settingsInstance = .ok ⟨⟨1⟩,settingsInstance⟩ ∧
    Capability.decide (settingsReader.find .storageRead)
      (some (.storage ["settings"] 100)) = .allowed := by
  refine ⟨rfl,(narrowInstance_attenuates_iff settingsReader ⟨1⟩ settingsInstance
    ⟨⟨1⟩,settingsInstance⟩ rfl).mpr ?_ .storageRead _ (by decide)⟩
  intro c p g hp hg
  cases c <;> cases hp
  cases hg
  simp [Widens]

/-- The empty key list passes `narrowInstance`, although it admits a key that the plugin's grant
does not. -/
theorem wholeStoreInstance_widens :
    narrowInstance settingsReader ⟨1⟩ wholeStoreInstance = .ok ⟨⟨1⟩,wholeStoreInstance⟩ ∧
    Capability.decide (findGrant wholeStoreInstance .storageRead)
      (some (.storage ["secrets"] 0)) = .allowed ∧
    Capability.decide (settingsReader.find .storageRead)
      (some (.storage ["secrets"] 0)) = .denied .scopeViolation :=
  ⟨rfl,by decide,by decide⟩

end Floatile.Core.Authority
