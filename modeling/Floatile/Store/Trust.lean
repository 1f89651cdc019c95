import Floatile.Core.Install
import Floatile.Lib.Checked
import Mathlib.Data.Prod.Lex
import Mathlib.Data.String.Basic

/-! The tables of publisher trust and the operations on them. A statement of the database may
fail; each operation takes the number of the write that fails, if one does. -/
namespace Floatile.Store

open Floatile.Core (Bytes32)
open Floatile.Lib
open Floatile.Lib.Checked (reject)

/-- Parsed versions, printed and read back by the external version library. -/
structure VersionLib (Version : Type) where
  toText : Version → String
  parse : String → Except String Version
  parse_toText : ∀ v, parse (toText v) = .ok v

inductive TrustState where
  | active
  | revoked
  deriving DecidableEq, Repr

inductive SqlError where
  | io
  | constraint (table : String)
  | noSuchTable (table : String)
  | invalidColumnType (column : String)
  deriving DecidableEq, Repr

inductive StoreError where
  | open (error : SqlError)
  | migration (detail : String)
  | corrupt (detail : String)
  deriving DecidableEq, Repr

inductive TrustPolicyError (Version : Type) where
  | store (error : StoreError)
  | unknownPublisher
  | revokedPublisher
  | rollback (candidate highest : Version)
  | sameVersionDifferentDigest
  deriving DecidableEq

/-- A failure of the database itself. -/
def TrustPolicyError.isIo {Version : Type} : TrustPolicyError Version → Bool
  | .store (.open .io) => true
  | _ => false

structure PublisherRow where
  state : TrustState
  updatedAt : ℕ
  deriving DecidableEq

structure KeyRow where
  publicKey : Bytes32
  state : TrustState
  updatedAt : ℕ
  deriving DecidableEq

structure AcceptedRow where
  version : String
  digest : Bytes32
  acceptedAt : ℕ
  deriving DecidableEq

structure PendingRow where
  publisherId : String
  pluginId : String
  version : String
  signedDigest : Bytes32
  installDigest : Bytes32
  stagingName : String
  finalRelative : String
  createdAt : ℕ
  deriving DecidableEq

structure TrustTables where
  publishers : OrdMap String PublisherRow
  keys : OrdMap (String ×ₗ String) KeyRow
  accepted : OrdMap (String ×ₗ String) AcceptedRow
  pending : OrdMap String PendingRow

def TrustTables.empty : TrustTables :=
  ⟨OrdMap.empty,OrdMap.empty,OrdMap.empty,OrdMap.empty⟩

structure PublisherKeyRecord where
  keyId : String
  publicKey : Bytes32
  state : TrustState
  updatedAt : ℕ

structure PublisherTrustRecord where
  publisherId : String
  state : TrustState
  updatedAt : ℕ
  keys : List PublisherKeyRecord

structure AcceptedPackage (Version : Type) where
  publisherId : String
  pluginId : String
  version : Version
  digest : Bytes32
  acceptedAt : ℕ

structure PendingInstallation (Version : Type) where
  transactionId : String
  publisherId : String
  pluginId : String
  version : Version
  signedDigest : Bytes32
  installDigest : Bytes32
  stagingName : String
  finalRelative : String
  createdAt : ℕ

inductive AcceptanceOutcome where
  | firstAccepted
  | newerAccepted
  | alreadyAccepted
  deriving DecidableEq, Repr

def corrupt {α : Type} (detail : String) : Except StoreError α := .error (.corrupt detail)

def validateTransactionId (transactionId : String) : Except StoreError Unit :=
  if transactionId.isEmpty || 128 < Text.byteLen transactionId ||
      !transactionId.toList.all (fun c => Text.isAsciiAlphanumeric c || c == '-') then
    corrupt "安装 transaction id 非法"
  else .ok ()

def validatePublisherId (publisherId : String) : Except StoreError Unit :=
  if publisherId.isEmpty || 256 < Text.byteLen publisherId then
    corrupt "publisher id 为空或超过存储上限"
  else .ok ()

def validatePluginId (pluginId : String) : Except StoreError Unit :=
  if pluginId.isEmpty || 256 < Text.byteLen pluginId then
    corrupt "plugin id 为空或超过存储上限"
  else .ok ()

def sqliteTime (value : ℕ) : Except StoreError ℕ :=
  if value < 2^63 then .ok value else corrupt "publisher trust 时间超出范围"

section Operations

variable {Version : Type} [LinearOrder Version] (lib : VersionLib Version)
  (publisherKeyId : Bytes32 → String)

def validatePending (pending : PendingInstallation Version) : Except StoreError Unit := do
  validateTransactionId pending.transactionId
  validatePublisherId pending.publisherId
  validatePluginId pending.pluginId
  reject (pending.stagingName ≠ s!".staging-{pending.transactionId}" ∨
      pending.finalRelative ≠ s!"{pending.pluginId}/{lib.toText pending.version}")
    (.corrupt "安装意图包含非规范化相对路径")

/-- A result of the store as one of the trust policy. -/
def liftStore {α : Type} (x : Except StoreError α) : Except (TrustPolicyError Version) α :=
  x.mapError TrustPolicyError.store

/-- One committed write of an operation; it fails when it is the given one. -/
def write {ε α : Type} (io : ε) (fault : Option ℕ) (index : ℕ) (before after : TrustTables)
    (result : α) : Except ε α × TrustTables :=
  if fault = some index then (.error io,before) else (.ok result,after)

/-- Adds or replaces a key. An existing publisher keeps its state. -/
def upsertKey (fault : Option ℕ) (t : TrustTables) (publisherId : String) (publicKey : Bytes32)
    (state : TrustState) (updatedAt : ℕ) : Except StoreError String × TrustTables :=
  match (do validatePublisherId publisherId; sqliteTime updatedAt) with
  | .error e => (.error e,t)
  | .ok updatedAt =>
    let keyId := publisherKeyId publicKey
    let publisher := match t.publishers.get publisherId with
      | none => ⟨.active,updatedAt⟩
      | some row => { row with updatedAt := updatedAt }
    let after := { t with
      publishers := t.publishers.insert publisherId publisher
      keys := t.keys.insert (toLex (publisherId,keyId)) ⟨publicKey,state,updatedAt⟩ }
    write (.open .io) fault 0 t after keyId

def setPublisherState (fault : Option ℕ) (t : TrustTables) (publisherId : String)
    (state : TrustState) (updatedAt : ℕ) : Except StoreError Bool × TrustTables :=
  match (do validatePublisherId publisherId; sqliteTime updatedAt) with
  | .error e => (.error e,t)
  | .ok updatedAt =>
    match t.publishers.get publisherId with
    | none => write (.open .io) fault 0 t t false
    | some _ =>
      write (.open .io) fault 0 t
        { t with publishers := t.publishers.insert publisherId ⟨state,updatedAt⟩ } true

def readKeys (publisherId : String) :
    List ((String ×ₗ String) × KeyRow) → Except StoreError (List PublisherKeyRecord)
  | [] => .ok []
  | (key,row) :: rows => do
    let (owner,keyId) := ofLex key
    if owner = publisherId then
      reject (publisherKeyId row.publicKey ≠ keyId)
        (.corrupt "publisher key_id 与 public_key 不匹配")
      let keys ← readKeys publisherId rows
      .ok (⟨keyId,row.publicKey,row.state,row.updatedAt⟩ :: keys)
    else readKeys publisherId rows

def get (t : TrustTables) (publisherId : String) :
    Except StoreError (Option PublisherTrustRecord) := do
  validatePublisherId publisherId
  match t.publishers.get publisherId with
  | none => .ok none
  | some row => do
    let keys ← readKeys publisherKeyId publisherId t.keys.entries
    .ok (some ⟨publisherId,row.state,row.updatedAt,keys⟩)

def parseVersion (field text : String) : Except StoreError Version :=
  (lib.parse text).mapError (fun error => StoreError.corrupt s!"{field} version 非法: {error}")

def acceptedPackage (t : TrustTables) (publisherId pluginId : String) :
    Except StoreError (Option (AcceptedPackage Version)) := do
  validatePublisherId publisherId
  validatePluginId pluginId
  match t.accepted.get (toLex (publisherId,pluginId)) with
  | none => .ok none
  | some row => do
    let version ← parseVersion lib "accepted package" row.version
    .ok (some ⟨publisherId,pluginId,version,row.digest,row.acceptedAt⟩)

/-- Only an active publisher is admitted. -/
def requireActive (state : Option TrustState) : Except (TrustPolicyError Version) Unit :=
  match state with
  | none => .error .unknownPublisher
  | some .revoked => .error .revokedPublisher
  | some .active => .ok ()

/-- What `acceptPackage` reads and checks before it writes: `none` is an exact repetition. -/
def acceptanceOf (t : TrustTables) (publisherId pluginId : String) (version : Version)
    (digest : Bytes32) (acceptedAt : ℕ) :
    Except (TrustPolicyError Version) (ℕ × AcceptanceOutcome) := do
  liftStore (validatePublisherId publisherId)
  liftStore (validatePluginId pluginId)
  let acceptedAt ← liftStore (sqliteTime acceptedAt)
  requireActive ((t.publishers.get publisherId).map PublisherRow.state)
  match t.accepted.get (toLex (publisherId,pluginId)) with
  | none => .ok (acceptedAt,.firstAccepted)
  | some row => do
    let highest ← liftStore (parseVersion lib "accepted package" row.version)
    if version < highest then .error (.rollback version highest)
    else if version = highest then
      if digest = row.digest then .ok (acceptedAt,.alreadyAccepted)
      else .error .sameVersionDifferentDigest
    else .ok (acceptedAt,.newerAccepted)

/-- Advances the highest accepted version of a plugin of an active publisher. -/
def acceptPackage (fault : Option ℕ) (t : TrustTables) (publisherId pluginId : String)
    (version : Version) (digest : Bytes32) (acceptedAt : ℕ) :
    Except (TrustPolicyError Version) AcceptanceOutcome × TrustTables :=
  match acceptanceOf lib t publisherId pluginId version digest acceptedAt with
  | .error e => (.error e,t)
  | .ok (_,.alreadyAccepted) => (.ok .alreadyAccepted,t)
  | .ok (acceptedAt,outcome) =>
    let row : AcceptedRow := ⟨lib.toText version,digest,acceptedAt⟩
    write (.store (.open .io)) fault 0 t
      { t with accepted := t.accepted.insert (toLex (publisherId,pluginId)) row } outcome

def checkCandidate (t : TrustTables) (publisherId pluginId : String) (version : Version)
    (digest : Bytes32) : Except (TrustPolicyError Version) Unit := do
  let publisher ← liftStore (get publisherKeyId t publisherId)
  requireActive (publisher.map PublisherTrustRecord.state)
  match ← liftStore (acceptedPackage lib t publisherId pluginId) with
  | none => .ok ()
  | some highest => do
    reject (version < highest.version) (.rollback version highest.version)
    reject (version = highest.version ∧ digest ≠ highest.digest) .sameVersionDifferentDigest

def PendingInstallation.row (pending : PendingInstallation Version) (createdAt : ℕ) :
    PendingRow where
  publisherId := pending.publisherId
  pluginId := pending.pluginId
  version := lib.toText pending.version
  signedDigest := pending.signedDigest
  installDigest := pending.installDigest
  stagingName := pending.stagingName
  finalRelative := pending.finalRelative
  createdAt := createdAt

/-- Records the intent of an installation. A transaction id is used once. -/
def prepareInstall (fault : Option ℕ) (t : TrustTables)
    (pending : PendingInstallation Version) :
    Except (TrustPolicyError Version) Unit × TrustTables :=
  match (do
    liftStore (validatePending lib pending)
    checkCandidate lib publisherKeyId t pending.publisherId pending.pluginId pending.version
      pending.signedDigest
    liftStore (sqliteTime pending.createdAt)) with
  | .error e => (.error e,t)
  | .ok createdAt =>
    match t.pending.get pending.transactionId with
    | some _ => (.error (.store (.open (.constraint "pending_installations"))),t)
    | none =>
      write (.store (.open .io)) fault 0 t
        { t with pending := t.pending.insert pending.transactionId (pending.row lib createdAt) } ()

def rowToPending (transactionId : String) (row : PendingRow) :
    Except StoreError (PendingInstallation Version) := do
  let version ← (lib.parse row.version).mapError
    (fun error => StoreError.corrupt s!"pending version 非法: {error}")
  let pending : PendingInstallation Version :=
    ⟨transactionId,row.publisherId,row.pluginId,version,row.signedDigest,row.installDigest,
      row.stagingName,row.finalRelative,row.createdAt⟩
  validatePending lib pending
  .ok pending

def pendingInstall (t : TrustTables) (transactionId : String) :
    Except StoreError (Option (PendingInstallation Version)) := do
  validateTransactionId transactionId
  match t.pending.get transactionId with
  | none => .ok none
  | some row => do
    let pending ← rowToPending lib transactionId row
    .ok (some pending)

/-- All intents in the order of their transaction ids. -/
def pendingInstalls (t : TrustTables) :
    Except StoreError (List (PendingInstallation Version)) :=
  t.pending.entries.mapM (fun e => rowToPending lib e.1 e.2)

/-- Accepts the package of an intent and then removes the intent. -/
def finalizeInstall (fault : Option ℕ) (t : TrustTables) (transactionId : String)
    (acceptedAt : ℕ) : Except (TrustPolicyError Version) AcceptanceOutcome × TrustTables :=
  match liftStore (pendingInstall lib t transactionId) with
  | .error e => (.error e,t)
  | .ok none => (.error (.store (.corrupt "安装意图不存在")),t)
  | .ok (some pending) =>
    match acceptPackage lib fault t pending.publisherId pending.pluginId pending.version
        pending.signedDigest acceptedAt with
    | (.error e,t) => (.error e,t)
    | (.ok outcome,t) =>
      write (.store (.open .io)) fault 1 t
        { t with pending := t.pending.erase transactionId } outcome

def abortInstall (fault : Option ℕ) (t : TrustTables) (transactionId : String) :
    Except StoreError Bool × TrustTables :=
  match validateTransactionId transactionId with
  | .error e => (.error e,t)
  | .ok _ =>
    write (.open .io) fault 0 t { t with pending := t.pending.erase transactionId }
      (t.pending.get transactionId).isSome

end Operations

end Floatile.Store
