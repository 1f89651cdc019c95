import Floatile.Lib.Transition
import Floatile.Store.Database

/-! Ids are given out in increasing order and are never given out again, and every grant names an
instance and a connection that are there, whatever the hosts that open the file do. -/
namespace Floatile.Store

open Floatile.Core
open Floatile.Lib

/-- Every grant names an instance and a connection that are there. -/
def InstanceTables.References (t : InstanceTables) : Prop :=
  ∀ i c, t.connections.granted i c = true →
    (t.instances.get i).isSome = true ∧ (t.connections.connections.get c).isSome = true

/-- Every key of one map is a key of another. -/
def KeysKept {κ α : Type} [LinearOrder κ] (m m' : OrdMap κ α) : Prop :=
  ∀ k, (m.get k).isSome = true → (m'.get k).isSome = true

theorem keysKept_insert {κ α : Type} [LinearOrder κ] (m : OrdMap κ α) (k : κ) (a : α) :
    KeysKept m (m.insert k a) := by
  intro i hi
  rw [OrdMap.get_insert]
  split_ifs
  · rfl
  · exact hi

namespace ConnectionTables

variable {t t' : ConnectionTables}

theorem create_spec {nextId : ℕ} {provider accountIdentity : String} {credential : CredentialRef}
    {createdAt : ℕ} {model : Connection}
    (h : t.create nextId provider accountIdentity credential createdAt = .ok (model,t')) :
    model.id = ⟨nextId⟩ ∧ t'.grants = t.grants ∧ KeysKept t.connections t'.connections := by
  simp only [create, Connection.restore, Checked.bind_eq_ok, Checked.mapError_eq_ok] at h
  obtain ⟨-,-,id,hid,-,-,model',⟨-,-,-,-,-,-,-,-,hmodel⟩,-,-,hok⟩ := h
  obtain rfl := allocateId_eq_ok hid
  cases hmodel
  cases hok
  exact ⟨rfl,rfl,keysKept_insert _ _ _⟩

theorem grant_spec {exists_ changed : Bool} {instanceId : ℕ} {connectionId : ConnectionId}
    {grantedAt : ℕ} (h : t.grant exists_ instanceId connectionId grantedAt = .ok (changed,t')) :
    t'.connections = t.connections ∧ ∀ i c, t'.granted i c = true → t.granted i c = true ∨
      (i = instanceId ∧ exists_ = true ∧ (t.connections.get c).isSome = true) := by
  simp only [grant, Checked.bind_eq_ok] at h
  obtain ⟨-,-,-,-,-,-,h⟩ := h
  split_ifs at h with hnew
  · cases h
    simp only [Bool.and_eq_true] at hnew
    refine ⟨rfl,?_⟩
    intro i c hgranted
    by_cases hkey : (i,c) = (instanceId,connectionId)
    · cases hkey
      exact Or.inr ⟨rfl,hnew.1.1,hnew.1.2⟩
    · refine Or.inl ?_
      have hne : toLex (i,c) ≠ toLex (instanceId,connectionId) := fun he => hkey (toLex_inj.mp he)
      rwa [granted,OrdMap.get_insert_of_ne _ hne] at hgranted
  · cases h
    exact ⟨rfl,fun i c hgranted => Or.inl hgranted⟩

theorem revoke_spec {changed : Bool} {instanceId : ℕ} {connectionId : ConnectionId}
    (h : t.revoke instanceId connectionId = .ok (changed,t')) :
    t'.connections = t.connections ∧ ∀ i c, t'.granted i c = true → t.granted i c = true := by
  simp only [revoke, Checked.bind_eq_ok] at h
  obtain ⟨-,-,-,-,h⟩ := h
  cases h
  refine ⟨rfl,?_⟩
  intro i c hgranted
  rw [granted,OrdMap.get_erase] at hgranted
  split_ifs at hgranted
  · cases hgranted
  · exact hgranted

theorem rotateCredential_spec {changed : Bool} {id : ConnectionId} {credential : CredentialRef}
    {updatedAt : ℕ} (h : t.rotateCredential id credential updatedAt = .ok (changed,t')) :
    t'.grants = t.grants ∧ KeysKept t.connections t'.connections := by
  simp only [rotateCredential, Checked.bind_eq_ok] at h
  obtain ⟨-,-,-,-,h⟩ := h
  split at h
  · cases h
    exact ⟨rfl,fun k hk => hk⟩
  · split_ifs at h
    · obtain ⟨-,-,h⟩ := Checked.bind_eq_ok.mp h
      cases h
      exact ⟨rfl,keysKept_insert _ _ _⟩
    · cases h
      exact ⟨rfl,fun k hk => hk⟩

theorem setHealth_spec {changed : Bool} {id : ConnectionId} {health : ConnectionHealth}
    {updatedAt : ℕ} (h : t.setHealth id health updatedAt = .ok (changed,t')) :
    t'.grants = t.grants ∧ KeysKept t.connections t'.connections := by
  simp only [setHealth, Checked.bind_eq_ok] at h
  obtain ⟨-,-,-,-,h⟩ := h
  split at h
  · cases h
    exact ⟨rfl,fun k hk => hk⟩
  · split_ifs at h
    · cases h
      exact ⟨rfl,keysKept_insert _ _ _⟩
    · cases h
      exact ⟨rfl,fun k hk => hk⟩

/-- A connection that some instance is granted stays. -/
theorem deleteUnreferenced_spec {changed : Bool} {id : ConnectionId}
    (h : t.deleteUnreferenced id = .ok (changed,t')) :
    t'.grants = t.grants ∧ ∀ i c, t.granted i c = true →
      (t.connections.get c).isSome = true → (t'.connections.get c).isSome = true := by
  simp only [deleteUnreferenced, Checked.bind_eq_ok] at h
  obtain ⟨-,-,h⟩ := h
  split_ifs at h with hfree
  · cases h
    refine ⟨rfl,?_⟩
    intro i c hgranted hthere
    have hne : c ≠ id := by
      rintro rfl
      obtain ⟨grantedAt,hfound⟩ := Option.isSome_iff_exists.mp hgranted
      have hmem := (OrdMap.mem_entries_iff _ _ _).mpr hfound
      simp only [Bool.and_eq_true, Bool.not_eq_true', List.any_eq_false, decide_eq_true_eq] at hfree
      exact hfree.2 _ hmem rfl
    rwa [OrdMap.get_erase_of_ne _ hne]
  · cases h
    exact ⟨rfl,fun _ _ _ hthere => hthere⟩

theorem granted_revokeInstance {instanceId i : ℕ} {c : ConnectionId}
    (h : (t.revokeInstance instanceId).granted i c = true) :
    i ≠ instanceId ∧ t.granted i c = true := by
  obtain ⟨grantedAt,hfound⟩ := Option.isSome_iff_exists.mp h
  obtain ⟨hkey,hthere⟩ := (OrdMap.get_filterKeys_eq_some _ _).mp hfound
  exact ⟨of_decide_eq_true hkey,Option.isSome_iff_exists.mpr ⟨grantedAt,hthere⟩⟩

end ConnectionTables

namespace InstanceTables

variable {t t' : InstanceTables}

/-- What keeps the references: grants only go, and what a grant names stays. -/
theorem References.keep (h : t.References)
    (hgrants : ∀ i c, t'.connections.granted i c = true → t.connections.granted i c = true ∧
      ((t.instances.get i).isSome = true → (t'.instances.get i).isSome = true) ∧
      ((t.connections.connections.get c).isSome = true →
        (t'.connections.connections.get c).isSome = true)) : t'.References := by
  intro i c hgranted
  obtain ⟨hold,hinstance,hconnection⟩ := hgrants i c hgranted
  obtain ⟨hi,hc⟩ := h i c hold
  exact ⟨hinstance hi,hconnection hc⟩

theorem References.withConnections (h : t.References) {c' : ConnectionTables}
    (hgrants : c'.grants = t.connections.grants)
    (hkeys : KeysKept t.connections.connections c'.connections) :
    ({ t with connections := c' } : InstanceTables).References := by
  apply h.keep
  intro i c hgranted
  have hold : t.connections.granted i c = true := by
    rwa [ConnectionTables.granted,hgrants] at hgranted
  exact ⟨hold,fun hi => hi,hkeys c⟩

variable {Version : Type} {lib : InstallLib Version}

theorem create_spec {installation : InstallationRef} {config : InstanceConfig}
    {desiredState : InstanceDesiredState} {createdAt id : ℕ}
    (h : t.create lib installation config desiredState createdAt = .ok (id,t')) :
    id = t.nextId ∧ t'.nextId = t.nextId + 1 ∧ t'.connections = t.connections ∧
      t'.layouts = t.layouts ∧ t'.rollbacks = t.rollbacks ∧ KeysKept t.instances t'.instances := by
  simp only [create, Checked.bind_eq_ok] at h
  obtain ⟨-,-,created,-,next,hnext,-,-,hok⟩ := h
  obtain rfl := allocateId_eq_ok hnext
  cases hok
  exact ⟨rfl,rfl,rfl,rfl,rfl,keysKept_insert _ _ _⟩

theorem update_spec {u : InstanceUpdate} {report : UpdateReport}
    (h : u.apply lib t = .ok (report,t')) :
    t'.nextId = t.nextId ∧ t'.connections = t.connections ∧ t'.layouts = t.layouts ∧
      KeysKept t.instances t'.instances ∧ (u.audit = [] → t'.rollbacks = t.rollbacks) := by
  rcases InstanceUpdate.apply_cases h with ⟨-,rfl⟩ | ⟨row,-,-,rfl⟩
  · exact ⟨rfl,rfl,rfl,fun k hk => hk,fun _ => rfl⟩
  · refine ⟨rfl,rfl,rfl,keysKept_insert _ _ _,?_⟩
    intro hnone
    simp only [InstanceUpdate.written, hnone, List.append_nil]

theorem delete_spec {changed : Bool} {id : ℕ} (h : t.delete id = .ok (changed,t')) :
    t'.nextId = t.nextId ∧ t'.rollbacks = t.rollbacks ∧
      t'.connections = t.connections.revokeInstance id ∧
      ∀ i, i ≠ id → t'.instances.get i = t.instances.get i := by
  simp only [delete, Checked.bind_eq_ok, sqliteI64] at h
  obtain ⟨id',hid,h⟩ := h
  split_ifs at hid
  cases hid
  split_ifs at h
  · cases h
    exact ⟨rfl,rfl,rfl,fun i hi => OrdMap.get_erase_of_ne _ hi⟩
  · cases h
    exact ⟨rfl,rfl,rfl,fun i hi => rfl⟩

end InstanceTables

/-- The next id of each kind lies above all ids given out so far, and the grants refer to rows
that are there. -/
structure Sound (t : InstanceTables) (nextConnection : ℕ) (issued : List IssuedId) : Prop where
  first : 2 ≤ t.nextId
  instances : ∀ i, .pluginInstance i ∈ issued → i < t.nextId
  connections : ∀ c, .connection c ∈ issued → c.value < nextConnection
  references : t.References

namespace StoreOperation

open InstanceTables ConnectionTables

variable {Version : Type} {lib : InstallLib Version} {t t' : InstanceTables} {n n' : ℕ}
variable {new : Option IssuedId}

/-- The ids that an operation gives out are the next ones. -/
theorem issued_of_apply {op : StoreOperation} (h : op.apply lib t n = .ok (new,t',n')) :
    (new = none ∧ t'.nextId = t.nextId ∧ n' = n) ∨
      (new = some (.pluginInstance t.nextId) ∧ t'.nextId = t.nextId + 1 ∧ n' = n) ∨
      (new = some (.connection ⟨n⟩) ∧ t'.nextId = t.nextId ∧ n' = n + 1) := by
  cases op with
  | createConnection =>
    obtain ⟨⟨model,c'⟩,hcreate,hok⟩ := Checked.bind_eq_ok.mp h
    cases hok
    rw [(create_spec hcreate).1]
    exact Or.inr (Or.inr ⟨rfl,rfl,rfl⟩)
  | createInstance =>
    obtain ⟨⟨id,s⟩,hcreate,hok⟩ := Checked.bind_eq_ok.mp h
    cases hok
    obtain ⟨rfl,hnext,-⟩ := InstanceTables.create_spec hcreate
    exact Or.inr (Or.inl ⟨rfl,hnext,rfl⟩)
  | update u =>
    obtain ⟨⟨report,s⟩,hupdate,hok⟩ := Checked.bind_eq_ok.mp h
    cases hok
    exact Or.inl ⟨rfl,(update_spec hupdate).1,rfl⟩
  | deleteInstance id =>
    obtain ⟨⟨changed,s⟩,hdelete,hok⟩ := Checked.bind_eq_ok.mp h
    cases hok
    exact Or.inl ⟨rfl,(delete_spec hdelete).1,rfl⟩
  | grant | revoke | rotateCredential | setHealth | deleteUnreferenced =>
    obtain ⟨⟨changed,c'⟩,-,hok⟩ := Checked.bind_eq_ok.mp h
    cases hok
    exact Or.inl ⟨rfl,rfl,rfl⟩

theorem references_of_apply {op : StoreOperation} (h : op.apply lib t n = .ok (new,t',n'))
    (href : t.References) : t'.References := by
  cases op with
  | createConnection =>
    obtain ⟨⟨model,c'⟩,hcreate,hok⟩ := Checked.bind_eq_ok.mp h
    cases hok
    obtain ⟨-,hgrants,hkeys⟩ := create_spec hcreate
    exact href.withConnections hgrants hkeys
  | grant instanceId connectionId grantedAt =>
    obtain ⟨⟨changed,c'⟩,hgrant,hok⟩ := Checked.bind_eq_ok.mp h
    cases hok
    obtain ⟨hsame,hgranted⟩ := grant_spec hgrant
    intro i c hic
    rw [hsame]
    rcases hgranted i c hic with hold | ⟨rfl,hi,hc⟩
    · exact href i c hold
    · exact ⟨hi,hc⟩
  | revoke instanceId connectionId =>
    obtain ⟨⟨changed,c'⟩,hrevoke,hok⟩ := Checked.bind_eq_ok.mp h
    cases hok
    obtain ⟨hsame,hgranted⟩ := revoke_spec hrevoke
    apply href.keep
    intro i c hic
    exact ⟨hgranted i c hic,fun hi => hi,fun hc => by rwa [hsame]⟩
  | rotateCredential =>
    obtain ⟨⟨changed,c'⟩,hrotate,hok⟩ := Checked.bind_eq_ok.mp h
    cases hok
    obtain ⟨hgrants,hkeys⟩ := rotateCredential_spec hrotate
    exact href.withConnections hgrants hkeys
  | setHealth =>
    obtain ⟨⟨changed,c'⟩,hhealth,hok⟩ := Checked.bind_eq_ok.mp h
    cases hok
    obtain ⟨hgrants,hkeys⟩ := setHealth_spec hhealth
    exact href.withConnections hgrants hkeys
  | deleteUnreferenced id =>
    obtain ⟨⟨changed,c'⟩,hdelete,hok⟩ := Checked.bind_eq_ok.mp h
    cases hok
    obtain ⟨hgrants,hkept⟩ := deleteUnreferenced_spec hdelete
    apply href.keep
    intro i c hic
    have hold : t.connections.granted i c = true := by
      rwa [ConnectionTables.granted,hgrants] at hic
    exact ⟨hold,fun hi => hi,hkept i c hold⟩
  | createInstance =>
    obtain ⟨⟨id,s⟩,hcreate,hok⟩ := Checked.bind_eq_ok.mp h
    cases hok
    obtain ⟨-,-,hsame,-,-,hkeys⟩ := InstanceTables.create_spec hcreate
    apply href.keep
    intro i c hic
    rw [hsame] at hic ⊢
    exact ⟨hic,hkeys i,fun hc => hc⟩
  | update u =>
    obtain ⟨⟨report,s⟩,hupdate,hok⟩ := Checked.bind_eq_ok.mp h
    cases hok
    obtain ⟨-,hsame,-,hkeys,-⟩ := update_spec hupdate
    apply href.keep
    intro i c hic
    rw [hsame] at hic ⊢
    exact ⟨hic,hkeys i,fun hc => hc⟩
  | deleteInstance id =>
    obtain ⟨⟨changed,s⟩,hdelete,hok⟩ := Checked.bind_eq_ok.mp h
    cases hok
    obtain ⟨-,-,hsame,hothers⟩ := delete_spec hdelete
    apply href.keep
    intro i c hic
    rw [hsame] at hic ⊢
    obtain ⟨hne,hold⟩ := granted_revokeInstance hic
    exact ⟨hold,fun hi => by rwa [hothers i hne],fun hc => hc⟩

theorem sound_of_apply {op : StoreOperation} {issued : List IssuedId}
    (h : op.apply lib t n = .ok (new,t',n')) (hsound : Sound t n issued) :
    Sound t' n' (issued ++ new.toList) where
  first := by
    have hfirst := hsound.first
    rcases issued_of_apply h with ⟨-,hnext,-⟩ | ⟨-,hnext,-⟩ | ⟨-,hnext,-⟩ <;> omega
  instances := by
    intro i hi
    rcases issued_of_apply h with ⟨rfl,hnext,-⟩ | ⟨rfl,hnext,-⟩ | ⟨rfl,hnext,-⟩
    · rw [hnext]
      exact hsound.instances i (by simpa using hi)
    · rcases List.mem_append.mp hi with hold | hnew
      · have hlt := hsound.instances i hold
        omega
      · obtain rfl : i = t.nextId := by simpa using hnew
        omega
    · rw [hnext]
      exact hsound.instances i (by simpa using hi)
  connections := by
    intro c hc
    rcases issued_of_apply h with ⟨rfl,-,rfl⟩ | ⟨rfl,-,rfl⟩ | ⟨rfl,-,rfl⟩
    · exact hsound.connections c (by simpa using hc)
    · exact hsound.connections c (by simpa using hc)
    · rcases List.mem_append.mp hc with hold | hnew
      · have hlt := hsound.connections c hold
        omega
      · obtain rfl : c = ⟨n⟩ := by simpa using hnew
        exact Nat.lt_succ_self n
  references := references_of_apply h hsound.references

end StoreOperation

namespace Database

/-- The next id of a connection; the allocator starts at one. -/
def nextConnection (db : Database) : ℕ := db.connectionAllocator.getD 1

/-- A migration adds empty tables and no more. -/
theorem migration_keeps {version : ℕ} {migration : Database → Except StoreError Database}
    (h : (version,migration) ∈ migrations) {db db' : Database} (hok : migration db = .ok db') :
    db'.tables = db.tables ∧ db'.nextConnection = db.nextConnection := by
  simp only [migrations, List.mem_cons, Prod.mk.injEq, List.not_mem_nil, or_false] at h
  rcases h with ⟨-,rfl⟩ | ⟨-,rfl⟩ | ⟨-,rfl⟩ | ⟨-,rfl⟩ | ⟨-,rfl⟩ | ⟨-,rfl⟩ | ⟨-,rfl⟩ | ⟨-,rfl⟩ <;>
    cases hok <;> exact ⟨rfl,rfl⟩

/-- So opening the file, by whatever host and with whatever failure, keeps its rows. -/
theorem migrate_keeps (db : Database) (known : ℕ) (failing : Option ℕ) :
    (db.migrate known failing).1.tables = db.tables ∧
      (db.migrate known failing).1.nextConnection = db.nextConnection := by
  refine migrateFile_invariant (P := fun db' : Database => db'.tables = db.tables ∧
    db'.nextConnection = db.nextConnection) ?_ ⟨rfl,rfl⟩ known failing
  rintro ⟨version,migration⟩ hm s s' ⟨htables,hnext⟩ hok
  obtain ⟨htables',hnext'⟩ := migration_keeps hm hok
  exact ⟨htables'.trans htables,hnext'.trans hnext⟩

/-- Tables that have nothing for the file where the file lacks the table. -/
structure Fits (db : Database) (t : InstanceTables) (n : ℕ) : Prop where
  layout : db.layout = none → t.layouts = []
  instances : db.instances = none → t.instances = OrdMap.empty
  instanceAllocator : db.instanceAllocator = none → t.nextId = 2
  connections : db.connections = none → t.connections.connections = OrdMap.empty
  connectionAllocator : db.connectionAllocator = none → n = 1
  grants : db.grants = none → t.connections.grants = OrdMap.empty
  rollbacks : db.rollbacks = none → t.rollbacks = []

theorem getD_map_const {α : Type} {table : Option α} {a initial : α}
    (h : table = none → a = initial) : (table.map (fun _ => a)).getD initial = a := by
  cases table with
  | none => exact (h rfl).symm
  | some old => rfl

theorem tables_put {db : Database} {t : InstanceTables} {n : ℕ} (h : db.Fits t n) :
    (db.put t n).tables = t ∧ (db.put t n).nextConnection = n := by
  constructor
  · obtain ⟨instances,nextId,rollbacks,⟨connections,grants⟩,layouts⟩ := t
    simp only [tables, put, InstanceTables.mk.injEq, ConnectionTables.mk.injEq]
    exact ⟨getD_map_const h.instances,getD_map_const h.instanceAllocator,
      getD_map_const h.rollbacks,⟨getD_map_const h.connections,getD_map_const h.grants⟩,
      getD_map_const h.layout⟩
  · exact getD_map_const h.connectionAllocator

theorem fits_tables (db : Database) : db.Fits db.tables db.nextConnection := by
  constructor <;> intro h <;> simp [tables, nextConnection, h]

end Database

namespace StoreOperation

open InstanceTables ConnectionTables

variable {Version : Type} {lib : InstallLib Version} {db : Database}

/-- An operation leaves a table alone that it does not need. -/
theorem fits_of_apply {op : StoreOperation} {new : Option IssuedId} {t' : InstanceTables} {n' : ℕ}
    (hthere : op.missingTable db = none)
    (h : op.apply lib db.tables db.nextConnection = .ok (new,t',n')) : db.Fits t' n' := by
  have hfits := db.fits_tables
  cases op with
  | createConnection =>
    obtain ⟨⟨model,c'⟩,hcreate,hok⟩ := Checked.bind_eq_ok.mp h
    cases hok
    obtain ⟨-,hgrants,-⟩ := create_spec hcreate
    simp [missingTable] at hthere
    exact { hfits with
      connections := fun hnone => absurd hnone hthere.2
      connectionAllocator := fun hnone => absurd hnone hthere.1
      grants := hgrants ▸ hfits.grants }
  | grant =>
    obtain ⟨⟨changed,c'⟩,hgrant,hok⟩ := Checked.bind_eq_ok.mp h
    cases hok
    simp [missingTable] at hthere
    exact { hfits with
      connections := fun hnone => absurd hnone hthere.2.2
      grants := fun hnone => absurd hnone hthere.1 }
  | revoke =>
    obtain ⟨⟨changed,c'⟩,hrevoke,hok⟩ := Checked.bind_eq_ok.mp h
    cases hok
    simp [missingTable] at hthere
    exact { hfits with
      connections := (revoke_spec hrevoke).1 ▸ hfits.connections
      grants := fun hnone => absurd hnone hthere }
  | rotateCredential =>
    obtain ⟨⟨changed,c'⟩,hrotate,hok⟩ := Checked.bind_eq_ok.mp h
    cases hok
    simp [missingTable] at hthere
    exact { hfits with
      connections := fun hnone => absurd hnone hthere
      grants := (rotateCredential_spec hrotate).1 ▸ hfits.grants }
  | setHealth =>
    obtain ⟨⟨changed,c'⟩,hhealth,hok⟩ := Checked.bind_eq_ok.mp h
    cases hok
    simp [missingTable] at hthere
    exact { hfits with
      connections := fun hnone => absurd hnone hthere
      grants := (setHealth_spec hhealth).1 ▸ hfits.grants }
  | deleteUnreferenced =>
    obtain ⟨⟨changed,c'⟩,hdelete,hok⟩ := Checked.bind_eq_ok.mp h
    cases hok
    simp [missingTable] at hthere
    exact { hfits with
      connections := fun hnone => absurd hnone hthere.1
      grants := fun hnone => absurd hnone hthere.2 }
  | createInstance =>
    obtain ⟨⟨id,s⟩,hcreate,hok⟩ := Checked.bind_eq_ok.mp h
    cases hok
    obtain ⟨-,-,hconnections,hlayouts,hrollbacks,-⟩ := InstanceTables.create_spec hcreate
    simp [missingTable] at hthere
    exact {
      layout := hlayouts ▸ hfits.layout
      instances := fun hnone => absurd hnone hthere.2
      instanceAllocator := fun hnone => absurd hnone hthere.1
      connections := hconnections ▸ hfits.connections
      connectionAllocator := hfits.connectionAllocator
      grants := hconnections ▸ hfits.grants
      rollbacks := hrollbacks ▸ hfits.rollbacks }
  | update u =>
    obtain ⟨⟨report,s⟩,hupdate,hok⟩ := Checked.bind_eq_ok.mp h
    cases hok
    obtain ⟨hnext,hconnections,hlayouts,-,hrollbacks⟩ := update_spec hupdate
    simp [missingTable] at hthere
    exact {
      layout := hlayouts ▸ hfits.layout
      instances := fun hnone => absurd hnone hthere.1
      instanceAllocator := hnext ▸ hfits.instanceAllocator
      connections := hconnections ▸ hfits.connections
      connectionAllocator := hfits.connectionAllocator
      grants := hconnections ▸ hfits.grants
      rollbacks := by
        intro hnone
        by_cases haudit : u.audit = []
        · rw [hrollbacks haudit]
          exact hfits.rollbacks hnone
        · exact absurd hnone (hthere.2 haudit) }
  | deleteInstance id =>
    obtain ⟨⟨changed,s⟩,hdelete,hok⟩ := Checked.bind_eq_ok.mp h
    cases hok
    obtain ⟨hnext,hrollbacks,hconnections,-⟩ := delete_spec hdelete
    simp [missingTable] at hthere
    exact {
      layout := fun hnone => absurd hnone hthere.2.2
      instances := fun hnone => absurd hnone hthere.2.1
      instanceAllocator := hnext ▸ hfits.instanceAllocator
      connections := hconnections ▸ hfits.connections
      connectionAllocator := hfits.connectionAllocator
      grants := fun hnone => absurd hnone hthere.1
      rollbacks := hrollbacks ▸ hfits.rollbacks }

/-- What a transaction leaves in the file is what the operation does to the tables. -/
theorem run_eq_ok {op : StoreOperation} {new : Option IssuedId} {db' : Database}
    (h : op.run lib db = .ok (new,db')) :
    op.apply lib db.tables db.nextConnection = .ok (new,db'.tables,db'.nextConnection) := by
  unfold run at h
  split at h
  · cases h
  · rename_i hthere
    obtain ⟨⟨new,t',n'⟩,happly,hok⟩ := Checked.bind_eq_ok.mp h
    cases hok
    obtain ⟨htables,hnext⟩ := Database.tables_put (fits_of_apply hthere happly)
    rw [htables,hnext]
    exact happly

end StoreOperation

/-- The file, whether a host has it open, and the ids given out so far. -/
structure StoreHistory where
  db : Database
  opened : Bool
  issued : List IssuedId

/-- What happens to the file: a host opens it, this one or an earlier one that knows fewer
migrations; it runs an operation; it goes away. -/
inductive StoreAction where
  | open (known : ℕ) (failing : Option ℕ)
  | close
  | operation (op : StoreOperation)

namespace StoreHistory

variable {Version : Type} (lib : InstallLib Version)

def next (s : StoreHistory) : StoreAction → StoreHistory
  | .open known failing =>
    let (db,result) := s.db.migrate known failing
    { s with db := db, opened := result.isOk }
  | .close => { s with opened := false }
  | .operation op =>
    if s.opened then
      match op.run lib s.db with
      | .ok (new,db) => { s with db := db, issued := s.issued ++ new.toList }
      | .error _ => s
    else s

def system : Transition.System StoreHistory StoreAction :=
  .ofFunction (fun s => s = ⟨.empty,false,[]⟩) (next lib)

variable {lib}

theorem sound_of_reachable {s : StoreHistory} (h : (system lib).Reachable s) :
    Sound s.db.tables s.db.nextConnection s.issued := by
  apply h.invariant (fun s => Sound s.db.tables s.db.nextConnection s.issued)
  · rintro s rfl
    refine ⟨le_refl 2,?_,?_,?_⟩
    · intro i hi
      cases hi
    · intro c hc
      cases hc
    · intro i c hgranted
      cases hgranted
  · rintro s action s' ih - rfl
    cases action with
    | «open» known failing =>
      obtain ⟨htables,hnext⟩ := s.db.migrate_keeps known failing
      simp only [next, htables, hnext]
      exact ih
    | close => exact ih
    | operation op =>
      simp only [next]
      split
      · cases hrun : op.run lib s.db with
        | error e => exact ih
        | ok out =>
          obtain ⟨new,db'⟩ := out
          exact StoreOperation.sound_of_apply (StoreOperation.run_eq_ok hrun) ih
      · exact ih

/-- The history of a new file. -/
def after (lib : InstallLib Version) (actions : List StoreAction) : StoreHistory :=
  actions.foldl (next lib) ⟨.empty,false,[]⟩

/-- Whatever operations, failures and reopenings came before, a new instance or connection gets an
id above every one given out so far, and every grant refers to rows that are there. -/
theorem ids_fresh_and_references_hold (lib : InstallLib Version) (actions : List StoreAction) :
    (∀ op id db', StoreOperation.run lib (after lib actions).db op =
        .ok (some (.pluginInstance id),db') →
      2 ≤ id ∧ ∀ i, .pluginInstance i ∈ (after lib actions).issued → i < id) ∧
    (∀ op id db', StoreOperation.run lib (after lib actions).db op =
        .ok (some (.connection id),db') →
      ∀ c, .connection c ∈ (after lib actions).issued → c < id) ∧
    ∀ i c, (after lib actions).db.tables.connections.granted i c = true →
      ((after lib actions).db.tables.instances.get i).isSome = true ∧
        ((after lib actions).db.tables.connections.connections.get c).isSome = true := by
  have hsound : Sound (after lib actions).db.tables (after lib actions).db.nextConnection
      (after lib actions).issued := by
    apply sound_of_reachable
    apply Transition.System.reachable_foldl
    exact .of_init rfl
  refine ⟨?_,?_,hsound.references⟩
  · intro op id db' hrun
    rcases StoreOperation.issued_of_apply (StoreOperation.run_eq_ok hrun) with
      ⟨hnew,-,-⟩ | ⟨hnew,-,-⟩ | ⟨hnew,-,-⟩ <;> cases hnew
    exact ⟨hsound.first,hsound.instances⟩
  · intro op id db' hrun c hc
    rcases StoreOperation.issued_of_apply (StoreOperation.run_eq_ok hrun) with
      ⟨hnew,-,-⟩ | ⟨hnew,-,-⟩ | ⟨hnew,-,-⟩ <;> cases hnew
    exact hsound.connections c hc

end StoreHistory

end Floatile.Store
