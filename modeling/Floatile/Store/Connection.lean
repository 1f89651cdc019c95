import Floatile.Core.Connection
import Floatile.Lib.Migration
import Floatile.Store.Trust

/-! The tables of connections and of the instances they are granted to. -/
namespace Floatile.Store

open Floatile.Core
open Floatile.Lib
open Floatile.Lib.Checked (reject)

/-- The integers of the database have 64 bits and a sign. -/
def sqliteI64 (value : ℕ) (field : String) : Except StoreError ℕ :=
  if value < 2^63 then .ok value
  else .error (.corrupt s!"{field} 超出 SQLite INTEGER 范围: {value}")

/-- The version that this host migrates to. -/
def schemaVersion : ℕ := 8

section Migrate

variable {σ : Type}

/-- A host opens the file. It knows the migrations up to a version and refuses a later one. -/
def migrateFile (userVersion : σ → ℕ) (migrations : List (ℕ × (σ → Except StoreError σ))) (file : σ)
    (known : ℕ) (failing : Option ℕ) : σ × Except StoreError Unit :=
  if known < userVersion file then
    (file,.error (.migration
      s!"数据库版本 {userVersion file} 高于当前支持版本 {known}，请升级宿主"))
  else Migration.run (fun version => .migration s!"v{version} 提交失败") (userVersion file) failing file
    (migrations.take known)

/-- What every migration keeps, opening the file keeps. -/
theorem migrateFile_invariant {P : σ → Prop} {userVersion : σ → ℕ}
    {migrations : List (ℕ × (σ → Except StoreError σ))}
    (hstep : ∀ m ∈ migrations, ∀ s s', P s → m.2 s = .ok s' → P s') {file : σ} (hfile : P file)
    (known : ℕ) (failing : Option ℕ) :
    P (migrateFile userVersion migrations file known failing).1 := by
  unfold migrateFile
  split_ifs
  · exact hfile
  · exact Migration.run_invariant (fun m hm => hstep m (List.mem_of_mem_take hm)) hfile

end Migrate

/-- The next id of an allocator. The sum at the largest integer is a real number, which is not
read back as an id. -/
def allocateId (nextId : ℕ) : Except StoreError ℕ :=
  if nextId < 2^63 - 1 then .ok nextId else .error (.open (.invalidColumnType "next_id - 1"))

/-- A row of the table of connections; its key is the id of the connection. -/
structure ConnectionRow where
  provider : String
  accountIdentity : String
  credential : CredentialRef
  health : ConnectionHealth
  credentialGeneration : ℕ
  createdAt : ℕ
  updatedAt : ℕ
  deriving DecidableEq

def ConnectionRow.connection (row : ConnectionRow) (id : ConnectionId) : Connection :=
  ⟨id,row.credential,row.health,row.credentialGeneration⟩

/-- A grant is kept under its instance and connection, with the time at which it was made. -/
structure ConnectionTables where
  connections : OrdMap ConnectionId ConnectionRow
  grants : OrdMap (ℕ ×ₗ ConnectionId) ℕ

theorem sqliteI64_eq_ok {value n : ℕ} {field : String} :
    sqliteI64 value field = .ok n ↔ value < 2^63 ∧ n = value := by
  unfold sqliteI64
  split_ifs with h
  · rw [Except.ok.injEq, and_iff_right h, eq_comm]
  · exact iff_of_false (by simp) (fun hn => h hn.1)

theorem allocateId_eq_ok {nextId id : ℕ} (h : allocateId nextId = .ok id) : id = nextId := by
  unfold allocateId at h
  split_ifs at h
  exact (Except.ok.inj h).symm

namespace ConnectionTables

def empty : ConnectionTables := ⟨OrdMap.empty,OrdMap.empty⟩

variable (t : ConnectionTables)

/-- Another connection has this credential; the column is unique. -/
def credentialTaken (id : ConnectionId) (credential : CredentialRef) : Bool :=
  t.connections.entries.any (fun e => e.1 ≠ id && e.2.credential = credential)

/-- A new connection under an id that is never used again. -/
def create (nextId : ℕ) (provider accountIdentity : String) (credential : CredentialRef)
    (createdAt : ℕ) : Except StoreError (Connection × ConnectionTables) := do
  let _ ← sqliteI64 createdAt "created_at"
  let id ← allocateId nextId
  reject (id = 0) (.corrupt "connection_id 不得为 0")
  let model ← (Connection.restore ⟨⟨id⟩,credential,.unknown,0⟩ provider accountIdentity
    createdAt createdAt).mapError (fun e => StoreError.corrupt e.display)
  reject ((t.connections.get ⟨id⟩).isSome ∨ t.credentialTaken ⟨id⟩ credential)
    (.open (.constraint "connections"))
  let row := ⟨provider,accountIdentity,credential,.unknown,0,createdAt,createdAt⟩
  .ok (model,{ t with connections := t.connections.insert ⟨id⟩ row })

def granted (instanceId : ℕ) (connectionId : ConnectionId) : Bool :=
  (t.grants.get (toLex (instanceId,connectionId))).isSome

def get (id : ConnectionId) : Except StoreError (Option Connection) := do
  let _ ← sqliteI64 id.value "connection_id"
  .ok ((t.connections.get id).map (fun row => row.connection id))

/-- The connections granted to an instance, in increasing order. -/
def grantsForInstance (instanceId : ℕ) : Except StoreError (List ConnectionId) := do
  let _ ← sqliteI64 instanceId "instance_id"
  .ok ((t.grants.entries.map (fun e => ofLex e.1)).filterMap
    (fun key => if key.1 = instanceId then some key.2 else none))

/-- A grant needs the instance and the connection to exist. One that is there already stays. -/
def grant (instanceExists : Bool) (instanceId : ℕ) (connectionId : ConnectionId)
    (grantedAt : ℕ) : Except StoreError (Bool × ConnectionTables) := do
  let _ ← sqliteI64 instanceId "instance_id"
  let _ ← sqliteI64 connectionId.value "connection_id"
  let _ ← sqliteI64 grantedAt "granted_at"
  if instanceExists && (t.connections.get connectionId).isSome &&
      !t.granted instanceId connectionId then
    .ok (true,{ t with grants := t.grants.insert (toLex (instanceId,connectionId)) grantedAt })
  else .ok (false,t)

def revoke (instanceId : ℕ) (connectionId : ConnectionId) :
    Except StoreError (Bool × ConnectionTables) := do
  let _ ← sqliteI64 instanceId "instance_id"
  let _ ← sqliteI64 connectionId.value "connection_id"
  .ok (t.granted instanceId connectionId,
    { t with grants := t.grants.erase (toLex (instanceId,connectionId)) })

def rotateCredential (id : ConnectionId) (credential : CredentialRef) (updatedAt : ℕ) :
    Except StoreError (Bool × ConnectionTables) := do
  let _ ← sqliteI64 updatedAt "updated_at"
  let _ ← sqliteI64 id.value "connection_id"
  match t.connections.get id with
  | none => .ok (false,t)
  | some row =>
    if row.updatedAt ≤ updatedAt ∧ row.credentialGeneration < 2^63 - 1 then do
      reject (t.credentialTaken id credential) (.open (.constraint "connections"))
      .ok (true,{ t with connections := t.connections.insert id { row with
        credential := credential
        credentialGeneration := row.credentialGeneration + 1
        health := .unknown
        updatedAt := updatedAt } })
    else .ok (false,t)

def setHealth (id : ConnectionId) (health : ConnectionHealth) (updatedAt : ℕ) :
    Except StoreError (Bool × ConnectionTables) := do
  let _ ← sqliteI64 updatedAt "updated_at"
  let _ ← sqliteI64 id.value "connection_id"
  match t.connections.get id with
  | none => .ok (false,t)
  | some row =>
    if row.updatedAt ≤ updatedAt then
      .ok (true,{ t with connections := t.connections.insert id { row with
        health := health
        updatedAt := updatedAt } })
    else .ok (false,t)

/-- A connection that some instance is granted stays. -/
def deleteUnreferenced (id : ConnectionId) : Except StoreError (Bool × ConnectionTables) := do
  let _ ← sqliteI64 id.value "connection_id"
  if (t.connections.get id).isSome &&
      !t.grants.entries.any (fun e => (ofLex e.1).2 = id) then
    .ok (true,{ t with connections := t.connections.erase id })
  else .ok (false,t)

/-- The grants of an instance that is deleted go with it. -/
def revokeInstance (instanceId : ℕ) : ConnectionTables :=
  { t with grants := t.grants.filterKeys (fun key => (ofLex key).1 ≠ instanceId) }

end ConnectionTables

end Floatile.Store
