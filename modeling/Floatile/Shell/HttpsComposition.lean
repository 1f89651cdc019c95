import Floatile.Services.HttpSession
import Floatile.Shell.NetworkOrigins
import Floatile.Store.Identity
import Floatile.Store.Rollback

/-! The HTTPS service of an instance is put together from the grants and connections in the file,
one query after another, while other processes may write to it. -/
namespace Floatile.Shell.HttpsComposition

open Floatile.Core
open Floatile.Lib Floatile.Lib.Transition
open Floatile.Services
open Floatile.Shell.NetworkOrigins (balanceManifest lowerOrigin)
open Floatile.Store

/-- Why no service was made; the host reports each as a failure of the runtime. -/
inductive ComposeError where
  | grants (error : StoreError)
  | connection (error : StoreError)
  | missing
  deriving DecidableEq

/-- The grants of an instance, if the file has their table. `fault` is a failure of the database
itself. -/
def queryGrants (db : Database) (fault : Option StoreError) (instanceId : ℕ) :
    Except StoreError (List ConnectionId) := do
  let instanceId ← sqliteI64 instanceId "instance_id"
  match fault, db.grants with
  | some e, _ => .error e
  | none, none => .error (.open (.noSuchTable "instance_connection_grants"))
  | none, some _ => db.tables.connections.grantsForInstance instanceId

/-- A row is checked again when it is read. -/
def queryConnection (db : Database) (fault : Option StoreError) (id : ConnectionId) :
    Except StoreError (Option Connection) := do
  let _ ← sqliteI64 id.value "connection_id"
  match fault, db.connections with
  | some e, _ => .error e
  | none, none => .error (.open (.noSuchTable "connections"))
  | none, some _ =>
    match db.tables.connections.connections.get id with
    | none => .ok none
    | some row => do
      let connection ← ((row.connection id).restore row.provider row.accountIdentity row.createdAt
        row.updatedAt).mapError (fun e => StoreError.corrupt e.display)
      .ok (some connection)

/-- The loop over the grants; `file k` is what the query with number `k` sees, and `fault k` how it
fails. -/
def readConnections (file : ℕ → Database) (fault : ℕ → Option StoreError) :
    ℕ → List ConnectionId → Except ComposeError (List Connection)
  | _, [] => .ok []
  | k, id :: ids => do
    match ← (queryConnection (file k) (fault k) id).mapError ComposeError.connection with
    | none => .error .missing
    | some connection => do
      let connections ← readConnections file fault (k + 1) ids
      .ok (connection :: connections)

def composeInstanceHttps (file : ℕ → Database) (fault : ℕ → Option StoreError) (instanceId : ℕ)
    (manifest : Manifest) : Except ComposeError HttpsService := do
  let grants ← (queryGrants (file 0) (fault 0) instanceId).mapError ComposeError.grants
  let connections ← readConnections file fault 1 grants
  .ok (HttpsService.new manifest.httpTemplates connections)

section Runs

variable {Version : Type} (lib : InstallLib Version)

/-- The file at the queries of a host that has opened it; `others k` is what happens to it before
the query with number `k`. -/
def fileAt (before : List StoreAction) (others : ℕ → List StoreAction) : ℕ → StoreHistory
  | 0 => (others 0).foldl (StoreHistory.next lib)
      (StoreHistory.after lib (before ++ [.open schemaVersion none]))
  | k + 1 => (others (k + 1)).foldl (StoreHistory.next lib) (fileAt before others k)

end Runs

/-- The tables of connections and grants are there. -/
def HasTables (db : Database) : Prop := db.connections.isSome = true ∧ db.grants.isSome = true

/-- They are there once the file has the version that makes them. -/
def Versioned (db : Database) : Prop := db.userVersion < 5 ∨ HasTables db

theorem hasTables_migration {m : ℕ × (Database → Except StoreError Database)}
    (h : m ∈ Database.migrations) (db db' : Database) (hdb : HasTables db)
    (hok : m.2 db = .ok db') : HasTables db' := by
  simp only [Database.migrations, List.mem_cons, List.not_mem_nil, or_false] at h
  rcases h with rfl | rfl | rfl | rfl | rfl | rfl | rfl | rfl <;> cases hok <;>
    first | exact hdb | exact ⟨rfl,rfl⟩

/-- Migrations up to the fourth leave a file of an early version. -/
theorem early_migration {m : ℕ × (Database → Except StoreError Database)}
    (h : m ∈ Database.migrations.take 4) (db db' : Database) (hok : m.2 db = .ok db') :
    db'.userVersion < 5 := by
  simp only [Database.migrations, List.take_succ_cons, List.take_zero, List.mem_cons,
    List.not_mem_nil, or_false] at h
  rcases h with rfl | rfl | rfl | rfl <;> cases hok <;> exact Nat.lt_of_sub_eq_succ rfl

section Migrations

variable {commitFailed : ℕ → StoreError} {current : ℕ} {failing : Option ℕ} {db : Database}

theorem hasTables_run {pending : List (ℕ × (Database → Except StoreError Database))}
    (h : ∀ m ∈ pending, m ∈ Database.migrations) (hdb : HasTables db) :
    HasTables (Migration.run commitFailed current failing db pending).1 :=
  Migration.run_invariant (fun m hm => hasTables_migration (h m hm)) hdb

theorem early_run {pending : List (ℕ × (Database → Except StoreError Database))}
    (h : ∀ m ∈ pending, m ∈ Database.migrations.take 4) (hdb : db.userVersion < 5) :
    (Migration.run commitFailed current failing db pending).1.userVersion < 5 :=
  Migration.run_invariant (P := fun db : Database => db.userVersion < 5)
    (fun m hm db db' _ hok => early_migration (h m hm) db db' hok) hdb

/-- The fifth migration makes the tables, unless the run stops before it is committed. -/
theorem early_or_hasTables (hdb : db.userVersion < 5) (hcurrent : current < 5)
    {ys : List (ℕ × (Database → Except StoreError Database))}
    (hys : ∀ m ∈ ys, m ∈ Database.migrations) :
    let r := Migration.run commitFailed current failing db
      (Database.migrations.take 4 ++ (5,Database.migrationV5) :: ys)
    HasTables r.1 ∨ r.1.userVersion < 5 ∧ ∃ e, r.2 = .error e := by
  have hfirst : (Migration.run commitFailed current failing db
      (Database.migrations.take 4)).1.userVersion < 5 := early_run (fun _ hm => hm) hdb
  rw [Migration.run_append]
  generalize Migration.run commitFailed current failing db (Database.migrations.take 4) = out
    at hfirst
  obtain ⟨db',e | u⟩ := out
  · exact Or.inr ⟨hfirst,e,rfl⟩
  · dsimp only
    rw [Migration.run, if_pos hcurrent]
    split_ifs
    · exact Or.inr ⟨hfirst,_,rfl⟩
    · exact Or.inl (hasTables_run hys ⟨rfl,rfl⟩)

end Migrations

theorem migrations_split (more : ℕ) : Database.migrations.take (5 + more) =
    Database.migrations.take 4 ++
      (5,Database.migrationV5) :: (Database.migrations.drop 5).take more := by
  rw [List.take_add]
  rfl

theorem mem_migrations_of_drop {more : ℕ} : ∀ m ∈ (Database.migrations.drop 5).take more,
    m ∈ Database.migrations := fun _ hm => List.mem_of_mem_drop (List.mem_of_mem_take hm)

theorem versioned_migrate {db : Database} (h : Versioned db) (known : ℕ) (failing : Option ℕ) :
    Versioned (db.migrate known failing).1 := by
  unfold Database.migrate migrateFile
  split_ifs
  · exact h
  rcases h with hearly | htables
  swap
  · exact Or.inr (hasTables_run (fun m hm => List.mem_of_mem_take hm) htables)
  by_cases hknown : known < 5
  · refine Or.inl (early_run (fun m hm => ?_) hearly)
    exact List.take_subset_take_left _ (by omega) hm
  obtain ⟨more,rfl⟩ := Nat.exists_eq_add_of_le (Nat.not_lt.mp hknown)
  rw [migrations_split]
  rcases early_or_hasTables hearly hearly mem_migrations_of_drop with htables | ⟨hstill,-⟩
  · exact Or.inr htables
  · exact Or.inl hstill

/-- A host that has opened the file finds the tables. -/
theorem hasTables_opened {db : Database} (h : Versioned db) {u : Unit}
    (hopened : (db.migrate schemaVersion none).2 = .ok u) :
    HasTables (db.migrate schemaVersion none).1 := by
  unfold Database.migrate migrateFile at hopened ⊢
  split_ifs at hopened ⊢
  rcases h with hearly | htables
  swap
  · exact hasTables_run (fun m hm => List.mem_of_mem_take hm) htables
  rw [show schemaVersion = 5 + 3 from rfl, migrations_split] at hopened ⊢
  rcases early_or_hasTables hearly hearly mem_migrations_of_drop with htables | ⟨-,e,herror⟩
  · exact htables
  · cases hopened.symm.trans herror

theorem hasTables_put {db : Database} (h : HasTables db) (t : InstanceTables) (n : ℕ) :
    HasTables (db.put t n) :=
  ⟨(Option.isSome_map ..).trans h.1,(Option.isSome_map ..).trans h.2⟩

/-- The row passes the checks of a connection. -/
structure Restorable (id : ConnectionId) (row : ConnectionRow) : Prop where
  provider : validateToken row.provider maxConnectionProviderBytes = true
  accountIdentity : validateText row.accountIdentity maxConnectionAccountBytes = true
  id_ne : id.value ≠ 0
  timestamps : row.createdAt ≤ row.updatedAt

def RowsRestorable (t : ConnectionTables) : Prop :=
  ∀ id row, t.connections.get id = some row → Restorable id row

theorem restore_eq_ok_iff {connection model : Connection} {provider accountIdentity : String}
    {createdAt updatedAt : ℕ} :
    connection.restore provider accountIdentity createdAt updatedAt = .ok model ↔
      validateToken provider maxConnectionProviderBytes = true ∧
        validateText accountIdentity maxConnectionAccountBytes = true ∧
        connection.id.value ≠ 0 ∧ createdAt ≤ updatedAt ∧ connection = model := by
  rw [Connection.restore]
  simp only [Checked.check_bind_eq_ok, Checked.reject_eq_ok, not_not, Nat.not_lt, Except.ok.injEq]

/-- A row that was there and is written anew keeps what is checked. -/
theorem RowsRestorable.write {t : ConnectionTables} (h : RowsRestorable t) {id : ConnectionId}
    {row row' : ConnectionRow} (hrow : t.connections.get id = some row)
    (hprovider : row'.provider = row.provider)
    (haccount : row'.accountIdentity = row.accountIdentity)
    (hcreated : row'.createdAt = row.createdAt) (hupdated : row.updatedAt ≤ row'.updatedAt) :
    RowsRestorable { t with connections := t.connections.insert id row' } := by
  intro i r hr
  rw [OrdMap.get_insert] at hr
  split_ifs at hr with hi
  · obtain rfl := Option.some.inj hr
    obtain ⟨hp,ha,hid,htime⟩ := h id row hrow
    subst hi
    exact ⟨hprovider ▸ hp,haccount ▸ ha,hid,by omega⟩
  · exact h i r hr

section Rows

variable {t t' : ConnectionTables} {changed : Bool} {id : ConnectionId}

theorem RowsRestorable.create (h : RowsRestorable t) {nextId : ℕ} {provider account : String}
    {credential : CredentialRef} {createdAt : ℕ} {model : Connection}
    (hcreate : t.create nextId provider account credential createdAt = .ok (model,t')) :
    RowsRestorable t' := by
  simp only [ConnectionTables.create, Checked.bind_eq_ok, Checked.mapError_eq_ok,
    restore_eq_ok_iff] at hcreate
  obtain ⟨-,-,id,-,-,-,model',⟨hprovider,haccount,hid,htime,-⟩,-,-,hcreated⟩ := hcreate
  cases hcreated
  intro i row hrow
  rw [OrdMap.get_insert] at hrow
  split_ifs at hrow with hi
  · subst hi
    obtain rfl := Option.some.inj hrow
    exact ⟨hprovider,haccount,hid,htime⟩
  · exact h i row hrow

theorem RowsRestorable.rotateCredential (h : RowsRestorable t) {credential : CredentialRef}
    {updatedAt : ℕ} (hrotate : t.rotateCredential id credential updatedAt = .ok (changed,t')) :
    RowsRestorable t' := by
  simp only [ConnectionTables.rotateCredential, Checked.bind_eq_ok] at hrotate
  obtain ⟨-,-,-,-,hrotate⟩ := hrotate
  split at hrotate
  · cases hrotate
    exact h
  · rename_i row hrow
    split_ifs at hrotate with hlater
    · obtain ⟨-,-,hwritten⟩ := Checked.bind_eq_ok.mp hrotate
      cases hwritten
      exact h.write hrow rfl rfl rfl hlater.1
    · cases hrotate
      exact h

theorem RowsRestorable.setHealth (h : RowsRestorable t) {health : ConnectionHealth}
    {updatedAt : ℕ} (hhealth : t.setHealth id health updatedAt = .ok (changed,t')) :
    RowsRestorable t' := by
  simp only [ConnectionTables.setHealth, Checked.bind_eq_ok] at hhealth
  obtain ⟨-,-,-,-,hhealth⟩ := hhealth
  split at hhealth
  · cases hhealth
    exact h
  · rename_i row hrow
    split_ifs at hhealth with hlater
    · cases hhealth
      exact h.write hrow rfl rfl rfl hlater
    · cases hhealth
      exact h

theorem RowsRestorable.deleteUnreferenced (h : RowsRestorable t)
    (hdelete : t.deleteUnreferenced id = .ok (changed,t')) : RowsRestorable t' := by
  simp only [ConnectionTables.deleteUnreferenced, Checked.bind_eq_ok] at hdelete
  obtain ⟨-,-,hdelete⟩ := hdelete
  split_ifs at hdelete
  · cases hdelete
    intro i row hrow
    rw [OrdMap.get_erase] at hrow
    split_ifs at hrow
    exact h i row hrow
  · cases hdelete
    exact h

end Rows

/-- The ids of the grants are integers of the database. -/
def GrantsInRange (t : ConnectionTables) : Prop :=
  ∀ i c, t.granted i c = true → i < 2^63 ∧ c.value < 2^63

section Apply

variable {Version : Type} {lib : InstallLib Version} {t t' : InstanceTables} {n n' : ℕ}
  {new : Option IssuedId}

/-- An operation makes no grant but the one that it is asked for. -/
theorem grantsInRange_of_apply {op : StoreOperation} (h : op.apply lib t n = .ok (new,t',n'))
    (hrange : GrantsInRange t.connections) : GrantsInRange t'.connections := by
  have hsame : t'.connections.grants = t.connections.grants → GrantsInRange t'.connections := by
    intro hgrants i c hgranted
    rw [ConnectionTables.granted, hgrants] at hgranted
    exact hrange i c hgranted
  cases op with
  | createConnection =>
    obtain ⟨⟨model,c'⟩,hcreate,hok⟩ := Checked.bind_eq_ok.mp h
    cases hok
    exact hsame (ConnectionTables.create_spec hcreate).2.1
  | grant instanceId connectionId grantedAt =>
    obtain ⟨⟨changed,c'⟩,hgrant,hok⟩ := Checked.bind_eq_ok.mp h
    cases hok
    simp only [ConnectionTables.grant, Checked.bind_eq_ok, sqliteI64_eq_ok] at hgrant
    obtain ⟨_,⟨hi,-⟩,_,⟨hc,-⟩,-,-,hgrant⟩ := hgrant
    split_ifs at hgrant
    · cases hgrant
      intro i c hgranted
      rw [ConnectionTables.granted, OrdMap.get_insert] at hgranted
      split_ifs at hgranted with hkey
      · cases hkey
        exact ⟨hi,hc⟩
      · exact hrange i c hgranted
    · cases hgrant
      exact hrange
  | revoke instanceId connectionId =>
    obtain ⟨⟨changed,c'⟩,hrevoke,hok⟩ := Checked.bind_eq_ok.mp h
    cases hok
    intro i c hgranted
    exact hrange i c ((ConnectionTables.revoke_spec hrevoke).2 i c hgranted)
  | rotateCredential =>
    obtain ⟨⟨changed,c'⟩,hrotate,hok⟩ := Checked.bind_eq_ok.mp h
    cases hok
    exact hsame (ConnectionTables.rotateCredential_spec hrotate).1
  | setHealth =>
    obtain ⟨⟨changed,c'⟩,hhealth,hok⟩ := Checked.bind_eq_ok.mp h
    cases hok
    exact hsame (ConnectionTables.setHealth_spec hhealth).1
  | deleteUnreferenced id =>
    obtain ⟨⟨changed,c'⟩,hdelete,hok⟩ := Checked.bind_eq_ok.mp h
    cases hok
    exact hsame (ConnectionTables.deleteUnreferenced_spec hdelete).1
  | createInstance =>
    obtain ⟨⟨id,s⟩,hcreate,hok⟩ := Checked.bind_eq_ok.mp h
    cases hok
    rw [(InstanceTables.create_spec hcreate).2.2.1]
    exact hrange
  | update u =>
    obtain ⟨⟨report,s⟩,hupdate,hok⟩ := Checked.bind_eq_ok.mp h
    cases hok
    rw [(InstanceTables.update_spec hupdate).2.1]
    exact hrange
  | deleteInstance id =>
    obtain ⟨⟨changed,s⟩,hdelete,hok⟩ := Checked.bind_eq_ok.mp h
    cases hok
    rw [(InstanceTables.delete_spec hdelete).2.2.1]
    intro i c hgranted
    exact hrange i c (ConnectionTables.granted_revokeInstance hgranted).2

theorem rowsRestorable_of_apply {op : StoreOperation} (h : op.apply lib t n = .ok (new,t',n'))
    (hrows : RowsRestorable t.connections) : RowsRestorable t'.connections := by
  have hsame : t'.connections.connections = t.connections.connections →
      RowsRestorable t'.connections := by
    intro hconnections id row hrow
    rw [hconnections] at hrow
    exact hrows id row hrow
  cases op with
  | createConnection =>
    obtain ⟨⟨model,c'⟩,hcreate,hok⟩ := Checked.bind_eq_ok.mp h
    cases hok
    exact hrows.create hcreate
  | grant =>
    obtain ⟨⟨changed,c'⟩,hgrant,hok⟩ := Checked.bind_eq_ok.mp h
    cases hok
    exact hsame (ConnectionTables.grant_spec hgrant).1
  | revoke =>
    obtain ⟨⟨changed,c'⟩,hrevoke,hok⟩ := Checked.bind_eq_ok.mp h
    cases hok
    exact hsame (ConnectionTables.revoke_spec hrevoke).1
  | rotateCredential =>
    obtain ⟨⟨changed,c'⟩,hrotate,hok⟩ := Checked.bind_eq_ok.mp h
    cases hok
    exact hrows.rotateCredential hrotate
  | setHealth =>
    obtain ⟨⟨changed,c'⟩,hhealth,hok⟩ := Checked.bind_eq_ok.mp h
    cases hok
    exact hrows.setHealth hhealth
  | deleteUnreferenced =>
    obtain ⟨⟨changed,c'⟩,hdelete,hok⟩ := Checked.bind_eq_ok.mp h
    cases hok
    exact hrows.deleteUnreferenced hdelete
  | createInstance =>
    obtain ⟨⟨id,s⟩,hcreate,hok⟩ := Checked.bind_eq_ok.mp h
    cases hok
    rw [(InstanceTables.create_spec hcreate).2.2.1]
    exact hrows
  | update u =>
    obtain ⟨⟨report,s⟩,hupdate,hok⟩ := Checked.bind_eq_ok.mp h
    cases hok
    rw [(InstanceTables.update_spec hupdate).2.1]
    exact hrows
  | deleteInstance id =>
    obtain ⟨⟨changed,s⟩,hdelete,hok⟩ := Checked.bind_eq_ok.mp h
    cases hok
    rw [(InstanceTables.delete_spec hdelete).2.2.1]
    exact hrows

end Apply

section Runs

variable {Version : Type} {lib : InstallLib Version}

theorem run_eq_put {db db' : Database} {op : StoreOperation} {new : Option IssuedId}
    (h : op.run lib db = .ok (new,db')) : ∃ t n, db' = db.put t n := by
  unfold StoreOperation.run at h
  split at h
  · cases h
  · obtain ⟨⟨new,t,n⟩,-,hok⟩ := Checked.bind_eq_ok.mp h
    cases hok
    exact ⟨t,n,rfl⟩

/-- What a step does to the file: it is opened, written by an operation or left alone. -/
theorem next_cases (lib : InstallLib Version) (s : StoreHistory) (action : StoreAction) :
    (StoreHistory.next lib s action).db = s.db ∨
      (∃ known failing, (StoreHistory.next lib s action).db = (s.db.migrate known failing).1) ∨
      ∃ (op : StoreOperation) (new : Option IssuedId),
        op.run lib s.db = .ok (new,(StoreHistory.next lib s action).db) := by
  cases action with
  | «open» known failing => exact Or.inr (Or.inl ⟨known,failing,rfl⟩)
  | close => exact Or.inl rfl
  | operation op =>
    rw [StoreHistory.next]
    split_ifs
    · cases hrun : op.run lib s.db with
      | error e => exact Or.inl rfl
      | ok out => exact Or.inr (Or.inr ⟨op,out.1,hrun⟩)
    · exact Or.inl rfl

theorem versioned_next {s : StoreHistory} (h : Versioned s.db) (action : StoreAction) :
    Versioned (StoreHistory.next lib s action).db := by
  rcases next_cases lib s action with hsame | ⟨known,failing,hopen⟩ | ⟨op,new,hrun⟩
  · rwa [hsame]
  · rw [hopen]
    exact versioned_migrate h known failing
  · obtain ⟨t,n,hput⟩ := run_eq_put hrun
    rw [hput]
    exact h.imp id fun htables => hasTables_put htables t n

theorem hasTables_next {s : StoreHistory} (h : HasTables s.db) (action : StoreAction) :
    HasTables (StoreHistory.next lib s action).db := by
  rcases next_cases lib s action with hsame | ⟨known,failing,hopen⟩ | ⟨op,new,hrun⟩
  · rwa [hsame]
  · rw [hopen]
    exact migrateFile_invariant (fun m hm => hasTables_migration hm) h known failing
  · obtain ⟨t,n,hput⟩ := run_eq_put hrun
    rw [hput]
    exact hasTables_put h t n

theorem grantsInRange_next {s : StoreHistory} (h : GrantsInRange s.db.tables.connections)
    (action : StoreAction) :
    GrantsInRange (StoreHistory.next lib s action).db.tables.connections := by
  rcases next_cases lib s action with hsame | ⟨known,failing,hopen⟩ | ⟨op,new,hrun⟩
  · rwa [hsame]
  · rw [hopen, (s.db.migrate_keeps known failing).1]
    exact h
  · exact grantsInRange_of_apply (StoreOperation.run_eq_ok hrun) h

theorem rowsRestorable_next {s : StoreHistory} (h : RowsRestorable s.db.tables.connections)
    (action : StoreAction) :
    RowsRestorable (StoreHistory.next lib s action).db.tables.connections := by
  rcases next_cases lib s action with hsame | ⟨known,failing,hopen⟩ | ⟨op,new,hrun⟩
  · rwa [hsame]
  · rw [hopen, (s.db.migrate_keeps known failing).1]
    exact h
  · exact rowsRestorable_of_apply (StoreOperation.run_eq_ok hrun) h

/-- The file is in order for whoever has it open. -/
structure InOrder (s : StoreHistory) : Prop where
  tables : HasTables s.db
  references : s.db.tables.References
  inRange : GrantsInRange s.db.tables.connections
  rows : RowsRestorable s.db.tables.connections

theorem reachable_after (lib : InstallLib Version) (actions : List StoreAction) :
    (StoreHistory.system lib).Reachable (StoreHistory.after lib actions) := by
  apply System.reachable_foldl
  exact .of_init rfl

theorem versioned_of_reachable {s : StoreHistory} (h : (StoreHistory.system lib).Reachable s) :
    Versioned s.db ∧ GrantsInRange s.db.tables.connections ∧
      RowsRestorable s.db.tables.connections := by
  apply h.invariant (fun s => Versioned s.db ∧ GrantsInRange s.db.tables.connections ∧
    RowsRestorable s.db.tables.connections)
  · rintro s rfl
    exact ⟨Or.inl (by decide),nofun,nofun⟩
  · rintro s action s' ⟨hversioned,hrange,hrows⟩ - rfl
    exact ⟨versioned_next hversioned action,grantsInRange_next hrange action,
      rowsRestorable_next hrows action⟩

theorem reachable_fileAt (lib : InstallLib Version) (before : List StoreAction)
    (others : ℕ → List StoreAction) (k : ℕ) :
    (StoreHistory.system lib).Reachable (fileAt lib before others k) := by
  induction k with
  | zero => exact System.reachable_foldl (reachable_after _ _) _
  | succ k ih => exact System.reachable_foldl ih _

theorem hasTables_foldl {s : StoreHistory} (h : HasTables s.db) (actions : List StoreAction) :
    HasTables (actions.foldl (StoreHistory.next lib) s).db := by
  induction actions generalizing s with
  | nil => exact h
  | cons action actions ih => exact ih (hasTables_next h action)

/-- Induction over the queries. -/
theorem inOrder_fileAt {before : List StoreAction} (others : ℕ → List StoreAction)
    (hopened : (StoreHistory.after lib (before ++ [.open schemaVersion none])).opened = true)
    (k : ℕ) : InOrder (fileAt lib before others k) := by
  have hreach := reachable_fileAt lib before others k
  obtain ⟨-,hrange,hrows⟩ := versioned_of_reachable hreach
  refine ⟨?_,(StoreHistory.sound_of_reachable hreach).references,hrange,hrows⟩
  clear hreach hrange hrows
  induction k with
  | zero =>
    refine hasTables_foldl ?_ _
    have hversioned := (versioned_of_reachable (reachable_after lib before)).1
    rw [StoreHistory.after, List.foldl_append] at hopened ⊢
    change ((StoreHistory.after lib before).db.migrate schemaVersion none).2.isOk = true at hopened
    change HasTables ((StoreHistory.after lib before).db.migrate schemaVersion none).1
    cases hresult : ((StoreHistory.after lib before).db.migrate schemaVersion none).2 with
    | error e =>
      rw [hresult] at hopened
      cases hopened
    | ok u => exact hasTables_opened hversioned hresult
  | succ k ih => exact hasTables_foldl ih _

end Runs

theorem mem_grantsForInstance {t : ConnectionTables} {instanceId : ℕ} {ids : List ConnectionId}
    (h : t.grantsForInstance instanceId = .ok ids) (c : ConnectionId) :
    c ∈ ids ↔ t.granted instanceId c = true := by
  obtain ⟨_,-,h⟩ := Checked.bind_eq_ok.mp h
  obtain rfl := Except.ok.inj h
  rw [List.mem_filterMap, ConnectionTables.granted, Option.isSome_iff_exists]
  constructor
  · rintro ⟨key,hkey,hsome⟩
    obtain ⟨e,he,rfl⟩ := List.mem_map.mp hkey
    split_ifs at hsome with hinstance
    obtain rfl := Option.some.inj hsome
    refine ⟨e.2,?_⟩
    rw [← OrdMap.mem_entries_iff]
    subst hinstance
    exact he
  · rintro ⟨grantedAt,hfound⟩
    refine ⟨(instanceId,c),List.mem_map.mpr ⟨_,(OrdMap.mem_entries_iff _ _ _).mpr hfound,rfl⟩,?_⟩
    exact if_pos rfl

theorem queryConnection_eq {db : Database} (h : HasTables db)
    (hrows : RowsRestorable db.tables.connections) {id : ConnectionId} (hid : id.value < 2^63) :
    queryConnection db none id =
      .ok ((db.tables.connections.connections.get id).map fun row => row.connection id) := by
  obtain ⟨table,htable⟩ := Option.isSome_iff_exists.mp h.1
  unfold queryConnection
  rw [sqliteI64, if_pos hid, htable]
  cases hrow : db.tables.connections.connections.get id with
  | none => rfl
  | some row =>
    obtain ⟨hprovider,haccount,hne,htime⟩ := hrows id row hrow
    have hrestore : (row.connection id).restore row.provider row.accountIdentity row.createdAt
        row.updatedAt = .ok (row.connection id) :=
      restore_eq_ok_iff.mpr ⟨hprovider,haccount,hne,htime,rfl⟩
    change (Except.mapError _ (Connection.restore _ _ _ _ _) >>= _) = _
    rw [hrestore]
    rfl

theorem queryConnection_fault {db : Database} {id : ConnectionId} (hid : id.value < 2^63)
    (e : StoreError) : queryConnection db (some e) id = .error e := by
  unfold queryConnection
  rw [sqliteI64, if_pos hid]
  rfl

theorem queryGrants_fault {db : Database} {instanceId : ℕ} (hid : instanceId < 2^63)
    (e : StoreError) : queryGrants db (some e) instanceId = .error e := by
  unfold queryGrants
  rw [sqliteI64, if_pos hid]
  rfl

theorem queryGrants_eq {db : Database} (h : HasTables db) {instanceId : ℕ}
    (hid : instanceId < 2^63) : ∃ ids, queryGrants db none instanceId = .ok ids ∧
      ∀ c, c ∈ ids ↔ db.tables.connections.granted instanceId c = true := by
  unfold queryGrants
  obtain ⟨table,htable⟩ := Option.isSome_iff_exists.mp h.2
  rw [sqliteI64, if_pos hid, htable]
  change ∃ ids, db.tables.connections.grantsForInstance instanceId = .ok ids ∧ _
  cases hids : db.tables.connections.grantsForInstance instanceId with
  | ok ids => exact ⟨ids,rfl,mem_grantsForInstance hids⟩
  | error e =>
    rw [ConnectionTables.grantsForInstance, sqliteI64, if_pos hid] at hids
    cases hids

/-- The connection is a row of the file at one of the queries. -/
def Stored (file : ℕ → Database) (connection : Connection) : Prop :=
  ∃ k row, (file k).tables.connections.connections.get connection.id = some row ∧
    connection = row.connection connection.id

section Read

variable {file : ℕ → Database} {fault : ℕ → Option StoreError} (hfile : ∀ k, HasTables (file k))
  (hrows : ∀ k, RowsRestorable (file k).tables.connections)

include hfile hrows

/-- Induction over the grants: every connection that is read is stored at its query, and the loop
ends early only at a connection that is not there or at a query that fails. -/
theorem readConnections_spec {ids : List ConnectionId} (hids : ∀ id ∈ ids, id.value < 2^63)
    (k : ℕ) :
    (∃ connections, readConnections file fault k ids = .ok connections ∧
      connections.map Connection.id = ids ∧ ∀ connection ∈ connections, Stored file connection) ∨
    (readConnections file fault k ids = .error .missing ∧
      ∃ id ∈ ids, ∃ i, (file i).tables.connections.connections.get id = none) ∨
    ∃ e i, readConnections file fault k ids = .error (.connection e) ∧ fault i = some e := by
  induction ids generalizing k with
  | nil => exact Or.inl ⟨[],rfl,rfl,nofun⟩
  | cons id ids ih =>
    obtain ⟨hid,hids⟩ := List.forall_mem_cons.mp hids
    cases hfault : fault k with
    | some e =>
      refine Or.inr (Or.inr ⟨e,k,?_,hfault⟩)
      rw [readConnections, hfault, queryConnection_fault hid]
      rfl
    | none =>
      rw [readConnections, hfault, queryConnection_eq (hfile k) (hrows k) hid]
      cases hrow : (file k).tables.connections.connections.get id with
      | none => exact Or.inr (Or.inl ⟨rfl,id,List.mem_cons_self,k,hrow⟩)
      | some row =>
        change (∃ connections, (readConnections file fault (k + 1) ids >>= _) = _ ∧ _) ∨
          ((readConnections file fault (k + 1) ids >>= _) = _ ∧ _) ∨
            ∃ e i, (readConnections file fault (k + 1) ids >>= _) = _ ∧ _
        rcases ih hids (k + 1) with ⟨connections,hread,hmap,hstored⟩ | ⟨hread,id',hmem,i,hnone⟩ |
          ⟨e,i,hread,hfailed⟩
        · refine Or.inl ⟨row.connection id :: connections,?_,?_,?_⟩
          · rw [hread]
            rfl
          · rw [List.map_cons, hmap]
            rfl
          · exact List.forall_mem_cons.mpr ⟨⟨k,row,hrow,rfl⟩,hstored⟩
        · refine Or.inr (Or.inl ⟨?_,id',List.mem_cons_of_mem _ hmem,i,hnone⟩)
          rw [hread]
          rfl
        · refine Or.inr (Or.inr ⟨e,i,?_,hfailed⟩)
          rw [hread]
          rfl

end Read

theorem connection_new_isSome {templates : List HttpTemplateDecl} {connections : List Connection}
    {ids : List ConnectionId} (hmap : connections.map Connection.id = ids) (c : ConnectionId) :
    ((HttpsService.new templates connections).connections.get c).isSome = true ↔ c ∈ ids := by
  constructor
  · intro h
    obtain ⟨connection,hfound⟩ := Option.isSome_iff_exists.mp h
    obtain ⟨hmem,rfl⟩ := HttpsService.connection_of_new hfound
    rw [← hmap]
    exact List.mem_map_of_mem hmem
  · intro h
    rw [← hmap] at h
    obtain ⟨connection,hmem,rfl⟩ := List.mem_map.mp h
    exact SortedMap.find_ofList_isSome_of_mem
      (List.mem_map_of_mem (f := fun c : Connection => (c.id,c)) hmem)

/-- The service holds the connections that the instance was granted, as the file had them. -/
structure Composed (file : ℕ → Database) (instanceId : ℕ) (manifest : Manifest)
    (service : HttpsService) : Prop where
  granted : ∀ c, (service.connections.get c).isSome = true ↔
    (file 0).tables.connections.granted instanceId c = true
  stored : ∀ c connection, service.connections.get c = some connection →
    connection.id = c ∧ Stored file connection
  templates : ∀ id template, service.templates.get id = some template →
    template ∈ manifest.httpTemplates ∧ template.id = id

/-- The request is made for a connection of the instance, at the URL of a template of the manifest
with the query in it, and with the secret of that connection in the header of the template. -/
structure RequestGranted {υ : Type} (file : ℕ → Database) (instanceId : ℕ) (manifest : Manifest)
    (service : HttpsService) (http : HttpLibrary υ) (vault : CredentialVault) (templateId : String)
    (connectionId : ConnectionId) (query : List QueryParam)
    (prepared : PreparedHttpOperation υ) : Prop where
  granted : (file 0).tables.connections.granted instanceId connectionId = true
  connection : prepared.work.connectionId = connectionId
  template : ∃ template ∈ manifest.httpTemplates, template.id = templateId ∧
    http.headerName template.credentialHeader = some prepared.work.request.credentialHeader ∧
    ∃ url, http.parse template.url = some url ∧
      prepared.work.request.url = http.appendPairs url (query.map fun p => (p.name,p.value))
  credential : ∃ connection secret, service.connections.get connectionId = some connection ∧
    vault.withSecret connection.credential = .ok secret ∧
    http.headerValue secret = some prepared.work.request.credential

theorem Composed.prepared {file : ℕ → Database} {instanceId : ℕ} {manifest : Manifest}
    {service : HttpsService} (hcomposed : Composed file instanceId manifest service)
    {υ : Type} {http : HttpLibrary υ} {vault templateId connectionId query prepared}
    (hprepared : (service.prepare http vault templateId connectionId query).result = .ok prepared) :
    RequestGranted file instanceId manifest service http vault templateId connectionId query
      prepared := by
  obtain ⟨draft,secret,credential,hdraft,hsecret,hvalue,hwork⟩ :=
    HttpsService.prepare_eq_ok hprepared
  obtain ⟨htemplate,hconnection,-,-,-,hheader,hurl⟩ := HttpsService.draft_eq_ok_iff.mp hdraft
  obtain ⟨hmem,hid⟩ := hcomposed.templates _ _ htemplate
  have hrequest := (HttpDraft.request_of_prepared hwork).1
  refine ⟨(hcomposed.granted connectionId).mp (Option.isSome_iff_exists.mpr ⟨_,hconnection⟩),
    HttpDraft.connectionId_of_prepared hwork,⟨draft.template,hmem,hid,?_⟩,
    ⟨draft.connection,secret,hconnection,hsecret,?_⟩⟩
  · rw [hrequest]
    exact ⟨hheader,hurl⟩
  · rw [hrequest]
    exact hvalue

/-- What the composition comes to when the file is in order at every query. -/
theorem composed_or_failed (file : ℕ → Database) (fault : ℕ → Option StoreError)
    (hfile : ∀ k, HasTables (file k)) (hrows : ∀ k, RowsRestorable (file k).tables.connections)
    (hrange : GrantsInRange (file 0).tables.connections) {instanceId : ℕ}
    (hid : instanceId < 2^63) (manifest : Manifest) :
    (∃ service, composeInstanceHttps file fault instanceId manifest = .ok service ∧
      Composed file instanceId manifest service) ∨
    (composeInstanceHttps file fault instanceId manifest = .error .missing ∧
      ∃ c, (file 0).tables.connections.granted instanceId c = true ∧
        ∃ i, (file i).tables.connections.connections.get c = none) ∨
    ∃ e i, (composeInstanceHttps file fault instanceId manifest = .error (.grants e) ∨
      composeInstanceHttps file fault instanceId manifest = .error (.connection e)) ∧
      fault i = some e := by
  cases hfault : fault 0 with
  | some e =>
    refine Or.inr (Or.inr ⟨e,0,Or.inl ?_,hfault⟩)
    rw [composeInstanceHttps, hfault, queryGrants_fault hid]
    rfl
  | none =>
    obtain ⟨ids,hgrants,hmem⟩ := queryGrants_eq (hfile 0) hid
    have hids : ∀ id ∈ ids, id.value < 2^63 := fun id hid => (hrange _ _ ((hmem id).mp hid)).2
    have hcompose : composeInstanceHttps file fault instanceId manifest =
        (readConnections file fault 1 ids).map (HttpsService.new manifest.httpTemplates) := by
      rw [composeInstanceHttps, hfault, hgrants]
      change (readConnections file fault 1 ids >>= _) = _
      cases readConnections file fault 1 ids <;> rfl
    rw [hcompose]
    rcases readConnections_spec hfile hrows hids 1 with ⟨connections,hread,hmap,hstored⟩ |
      ⟨hread,id,hin,hnone⟩ | ⟨e,i,hread,hfailed⟩
    · rw [hread]
      refine Or.inl ⟨_,rfl,fun c => (connection_new_isSome hmap c).trans (hmem c),?_,?_⟩
      · intro c connection hfound
        obtain ⟨hconnection,hcid⟩ := HttpsService.connection_of_new hfound
        exact ⟨hcid,hstored connection hconnection⟩
      · intro id template hfound
        exact HttpsService.template_of_new hfound
    · rw [hread]
      exact Or.inr (Or.inl ⟨rfl,id,(hmem id).mp hin,hnone⟩)
    · rw [hread]
      exact Or.inr (Or.inr ⟨e,i,Or.inr rfl,hfailed⟩)

/-- A connection that is gone is granted to nobody. -/
theorem InOrder.not_granted {s : StoreHistory} (h : InOrder s) {c : ConnectionId}
    (hnone : s.db.tables.connections.connections.get c = none) (i : ℕ) :
    s.db.tables.connections.granted i c = false := by
  rw [Bool.eq_false_iff]
  intro hgranted
  have hthere := (h.references i c hgranted).2
  rw [hnone] at hthere
  cases hthere

section Runs

variable {Version : Type} (lib : InstallLib Version)

/-- While nobody else is at work, every query finds the file as the first one did. -/
theorem fileAt_of_quiet {before : List StoreAction} {others : ℕ → List StoreAction}
    (hquiet : ∀ k, others (k + 1) = []) (k : ℕ) :
    fileAt lib before others k = fileAt lib before others 0 := by
  induction k with
  | zero => rfl
  | succ k ih =>
    have hnext : fileAt lib before others (k + 1) =
      (others (k + 1)).foldl (StoreHistory.next lib) (fileAt lib before others k) := rfl
    rw [hnext, hquiet k, List.foldl_nil, ih]

/-- Whatever came before and whatever other processes do between the queries, an instance gets
exactly the connections that it was granted when the composition began, each as the file had it,
and a request is prepared only for one of them, from a template of the manifest and with its own
secret. The composition fails only with the failure of a query, or if a connection was taken from
the instance and deleted meanwhile. -/
theorem https_composed_from_grants (before : List StoreAction) (others : ℕ → List StoreAction)
    (fault : ℕ → Option StoreError) (instanceId : ℕ) (manifest : Manifest)
    (hopened : (StoreHistory.after lib (before ++ [.open schemaVersion none])).opened = true)
    (hid : instanceId < 2^63) :
    let file := fun k => (fileAt lib before others k).db
    (∀ service, composeInstanceHttps file fault instanceId manifest = .ok service →
      Composed file instanceId manifest service ∧
      ∀ (υ : Type) (http : HttpLibrary υ) vault templateId connectionId query prepared,
        (service.prepare http vault templateId connectionId query).result = .ok prepared →
          RequestGranted file instanceId manifest service http vault templateId connectionId query
            prepared) ∧
    (∀ e, composeInstanceHttps file fault instanceId manifest = .error e →
      (e = .missing ∧ ∃ c, (file 0).tables.connections.granted instanceId c = true ∧
        ∃ k, ∀ i, (file k).tables.connections.granted i c = false) ∨
      ∃ error k, (e = .grants error ∨ e = .connection error) ∧ fault k = some error) ∧
    ((∀ k, others (k + 1) = []) → (∀ k, fault k = none) →
      ∃ service, composeInstanceHttps file fault instanceId manifest = .ok service) := by
  intro file
  have horder := inOrder_fileAt others hopened
  have hcases := composed_or_failed file fault (fun k => (horder k).tables)
    (fun k => (horder k).rows) (horder 0).inRange hid manifest
  refine ⟨?_,?_,?_⟩
  · intro service hservice
    rcases hcases with ⟨service',hok,hcomposed⟩ | ⟨herror,-⟩ | ⟨e,k,herror,-⟩
    · obtain rfl := Except.ok.inj (hservice.symm.trans hok)
      refine ⟨hcomposed,?_⟩
      intro υ http vault templateId connectionId query prepared hprepared
      exact hcomposed.prepared hprepared
    · cases hservice.symm.trans herror
    · rcases herror with herror | herror <;> cases hservice.symm.trans herror
  · intro e he
    rcases hcases with ⟨service,hok,-⟩ | ⟨herror,c,hgranted,k,hnone⟩ | ⟨error,k,herror,hfault⟩
    · cases he.symm.trans hok
    · obtain rfl := Except.error.inj (he.symm.trans herror)
      exact Or.inl ⟨rfl,c,hgranted,k,(horder k).not_granted hnone⟩
    · refine Or.inr ⟨error,k,?_,hfault⟩
      exact herror.imp (fun h => Except.error.inj (he.symm.trans h))
        fun h => Except.error.inj (he.symm.trans h)
  · intro hquiet hanswers
    rcases hcases with ⟨service,hok,-⟩ | ⟨-,c,hgranted,k,hnone⟩ | ⟨error,k,-,hfault⟩
    · exact ⟨service,hok⟩
    · exfalso
      have hfree := (horder k).not_granted hnone instanceId
      rw [fileAt_of_quiet lib hquiet k] at hfree
      cases hgranted.symm.trans hfree
    · cases (hanswers k).symm.trans hfault

end Runs

/-- Before the composition another process makes an instance of the clock and a connection and
grants one to the other. -/
def grantedBefore : ℕ → List StoreAction
  | 0 => [.operation (.createInstance releasedClock .empty .stopped 100),
      .operation (.createConnection "example" "user" balanceConnection.credential 100),
      .operation (.grant 2 ⟨1⟩ 101)]
  | _ + 1 => []

theorem https_composed_from_grants_quiet : ∃ service,
    composeInstanceHttps (fun k => (fileAt rollbackLib [] grantedBefore k).db) (fun _ => none) 2
        (balanceManifest lowerOrigin) = .ok service ∧
      (service.connections.get ⟨1⟩).isSome = true := by
  obtain ⟨hcomposed,-,hquiet⟩ := https_composed_from_grants rollbackLib [] grantedBefore
    (fun _ => none) 2 (balanceManifest lowerOrigin) (by rfl) (by decide)
  obtain ⟨service,hservice⟩ := hquiet (fun _ => rfl) fun _ => rfl
  refine ⟨service,hservice,((hcomposed service hservice).1.granted ⟨1⟩).mpr ?_⟩
  decide +kernel

end Floatile.Shell.HttpsComposition
