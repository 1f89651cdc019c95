import Floatile.Store.Records

/-! The database file: the migrations that make its tables, and the operations on connections,
grants and instances. Each migration and each operation is one transaction. -/
namespace Floatile.Store

open Floatile.Core
open Floatile.Lib
open Floatile.Lib.Checked (reject)

/-- The tables of the file that hold connections, grants, instances and what refers to them. A
table that no migration has made yet is absent; an allocator is the one row of its table. -/
structure Database where
  userVersion : ℕ
  layout : Option (List ℕ)
  instances : Option (OrdMap ℕ PluginInstance)
  instanceAllocator : Option ℕ
  connections : Option (OrdMap ConnectionId ConnectionRow)
  connectionAllocator : Option ℕ
  grants : Option (OrdMap (ℕ ×ₗ ConnectionId) ℕ)
  rollbacks : Option (List RollbackRow)

namespace Database

def empty : Database := ⟨0,none,none,none,none,none,none,none⟩

/-- `CREATE TABLE IF NOT EXISTS`, or `INSERT OR IGNORE` of the one row of an allocator. -/
def createIfNotExists {α : Type} (table : Option α) (initial : α) : Option α :=
  some (table.getD initial)

def migrationV1 (db : Database) : Except StoreError Database :=
  .ok { db with layout := createIfNotExists db.layout [], userVersion := 1 }

/-- Columns are added to the layouts. -/
def migrationV2 (db : Database) : Except StoreError Database := .ok { db with userVersion := 2 }

/-- The log of audit records is made. -/
def migrationV3 (db : Database) : Except StoreError Database := .ok { db with userVersion := 3 }

def migrationV4 (db : Database) : Except StoreError Database :=
  .ok { db with
    instances := createIfNotExists db.instances OrdMap.empty
    instanceAllocator := createIfNotExists db.instanceAllocator 2
    userVersion := 4 }

def migrationV5 (db : Database) : Except StoreError Database :=
  .ok { db with
    connections := createIfNotExists db.connections OrdMap.empty
    connectionAllocator := createIfNotExists db.connectionAllocator 1
    grants := createIfNotExists db.grants OrdMap.empty
    userVersion := 5 }

/-- The tables of publisher trust are made. -/
def migrationV6 (db : Database) : Except StoreError Database := .ok { db with userVersion := 6 }

/-- The table of installations under way is made. -/
def migrationV7 (db : Database) : Except StoreError Database := .ok { db with userVersion := 7 }

def migrationV8 (db : Database) : Except StoreError Database :=
  .ok { db with rollbacks := createIfNotExists db.rollbacks [], userVersion := 8 }

def migrations : List (ℕ × (Database → Except StoreError Database)) :=
  [(1,migrationV1),(2,migrationV2),(3,migrationV3),(4,migrationV4),(5,migrationV5),
    (6,migrationV6),(7,migrationV7),(8,migrationV8)]

def migrate (db : Database) (known : ℕ) (failing : Option ℕ) : Database × Except StoreError Unit :=
  migrateFile userVersion migrations db known failing

/-- The tables as the operations see them; one that is absent has no rows. -/
def tables (db : Database) : InstanceTables where
  instances := db.instances.getD OrdMap.empty
  nextId := db.instanceAllocator.getD 2
  rollbacks := db.rollbacks.getD []
  connections := ⟨db.connections.getD OrdMap.empty,db.grants.getD OrdMap.empty⟩
  layouts := db.layout.getD []

/-- The tables that are there are replaced. -/
def put (db : Database) (t : InstanceTables) (nextConnection : ℕ) : Database where
  userVersion := db.userVersion
  layout := db.layout.map (fun _ => t.layouts)
  instances := db.instances.map (fun _ => t.instances)
  instanceAllocator := db.instanceAllocator.map (fun _ => t.nextId)
  connections := db.connections.map (fun _ => t.connections.connections)
  connectionAllocator := db.connectionAllocator.map (fun _ => nextConnection)
  grants := db.grants.map (fun _ => t.connections.grants)
  rollbacks := db.rollbacks.map (fun _ => t.rollbacks)

end Database

inductive StoreOperation where
  | createConnection (provider accountIdentity : String) (credential : CredentialRef)
      (createdAt : ℕ)
  | grant (instanceId : ℕ) (connectionId : ConnectionId) (grantedAt : ℕ)
  | revoke (instanceId : ℕ) (connectionId : ConnectionId)
  | rotateCredential (id : ConnectionId) (credential : CredentialRef) (updatedAt : ℕ)
  | setHealth (id : ConnectionId) (health : ConnectionHealth) (updatedAt : ℕ)
  | deleteUnreferenced (id : ConnectionId)
  | createInstance (installation : InstallationRef) (config : InstanceConfig)
      (desiredState : InstanceDesiredState) (createdAt : ℕ)
  | update (u : InstanceUpdate)
  | deleteInstance (id : ℕ)

/-- An id that an operation has given out. -/
inductive IssuedId where
  | pluginInstance (id : ℕ)
  | connection (id : ConnectionId)
  deriving DecidableEq

/-- What an operation leaves: the id it gave out, the tables and the next id of a connection. -/
abbrev StoreOutcome := Option IssuedId × InstanceTables × ℕ

namespace StoreOperation

/-- The first table that an operation needs and that is not there. -/
def missingTable (db : Database) (op : StoreOperation) : Option String :=
  let absent (table : String) (there : Bool) := if there then [] else [table]
  let needed : List String := match op with
    | .createConnection _ _ _ _ => absent "connection_id_allocator" db.connectionAllocator.isSome ++
        absent "connections" db.connections.isSome
    | .grant _ _ _ => absent "instance_connection_grants" db.grants.isSome ++
        absent "plugin_instances" db.instances.isSome ++
        absent "connections" db.connections.isSome
    | .revoke _ _ => absent "instance_connection_grants" db.grants.isSome
    | .rotateCredential _ _ _ | .setHealth _ _ _ => absent "connections" db.connections.isSome
    | .deleteUnreferenced _ => absent "connections" db.connections.isSome ++
        absent "instance_connection_grants" db.grants.isSome
    | .createInstance _ _ _ _ =>
      absent "plugin_instance_id_allocator" db.instanceAllocator.isSome ++
        absent "plugin_instances" db.instances.isSome
    | .update u => absent "plugin_instances" db.instances.isSome ++
        if u.audit = [] then [] else absent "installation_rollbacks" db.rollbacks.isSome
    | .deleteInstance _ => absent "instance_connection_grants" db.grants.isSome ++
        absent "plugin_instances" db.instances.isSome ++ absent "layout" db.layout.isSome
  needed.head?

variable {Version : Type} (lib : InstallLib Version)

/-- The operation on the tables. -/
def apply (t : InstanceTables) (nextConnection : ℕ) : StoreOperation → Except StoreError StoreOutcome
  | .createConnection provider accountIdentity credential createdAt => do
    let (model,connections) ←
      t.connections.create nextConnection provider accountIdentity credential createdAt
    .ok (some (.connection model.id),{ t with connections := connections },nextConnection + 1)
  | .grant instanceId connectionId grantedAt => do
    let (_,connections) ← t.connections.grant (t.instances.get instanceId).isSome instanceId
      connectionId grantedAt
    .ok (none,{ t with connections := connections },nextConnection)
  | .revoke instanceId connectionId => do
    let (_,connections) ← t.connections.revoke instanceId connectionId
    .ok (none,{ t with connections := connections },nextConnection)
  | .rotateCredential id credential updatedAt => do
    let (_,connections) ← t.connections.rotateCredential id credential updatedAt
    .ok (none,{ t with connections := connections },nextConnection)
  | .setHealth id health updatedAt => do
    let (_,connections) ← t.connections.setHealth id health updatedAt
    .ok (none,{ t with connections := connections },nextConnection)
  | .deleteUnreferenced id => do
    let (_,connections) ← t.connections.deleteUnreferenced id
    .ok (none,{ t with connections := connections },nextConnection)
  | .createInstance installation config desiredState createdAt => do
    let (id,t') ← t.create lib installation config desiredState createdAt
    .ok (some (.pluginInstance id),t',nextConnection)
  | .update u => do
    let (_,t') ← u.apply lib t
    .ok (none,t',nextConnection)
  | .deleteInstance id => do
    let (_,t') ← t.delete id
    .ok (none,t',nextConnection)

/-- The operation as a transaction on the file. -/
def run (db : Database) (op : StoreOperation) : Except StoreError (Option IssuedId × Database) :=
  match op.missingTable db with
  | some table => .error (.open (.noSuchTable table))
  | none => do
    let (issued,t,nextConnection) ← StoreOperation.apply lib db.tables (db.connectionAllocator.getD 1) op
    .ok (issued,db.put t nextConnection)

end StoreOperation

end Floatile.Store
