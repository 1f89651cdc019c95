import Floatile.Core.Manifest
import Floatile.Services.Local

/-! Requests bound to a connection: the checks, the reading of the credential and the prepared
work. The URL and header types come from external packages and are a parameter. -/
namespace Floatile.Services

open Floatile.Core
open Floatile.Core.Capability
open Floatile.Lib Floatile.Lib.Trace

/-- The operations on URLs and headers, for a type `υ` of parsed URLs. -/
structure HttpLibrary (υ : Type) where
  parse : String → Option υ
  appendPairs : υ → List (String × String) → υ
  origin : υ → String
  serialize : υ → String
  headerName : String → Option String
  headerValue : List UInt8 → Option (List UInt8)

inductive CredentialError where
  | empty
  | tooLarge
  | notFound
  | unavailable
  deriving DecidableEq, Repr

/-- What a vault lends for a reference. -/
structure CredentialVault where
  withSecret : CredentialRef → Except CredentialError (List UInt8)

def maxQueryValueBytes : ℕ := 1024

structure HttpResponse where
  status : ℕ
  body : List UInt8
  deriving DecidableEq, Repr

structure QueryParam where
  name : String
  value : String
  deriving DecidableEq, Repr

inductive HttpServiceError where
  | invalidInput
  | templateUnavailable
  | connectionNotGranted
  | credentialUnavailable
  | destinationNotPublic
  | unavailable
  | responseRejected
  deriving DecidableEq, Repr

structure HttpTransportRequest (υ : Type) where
  url : υ
  credentialHeader : String
  credential : List UInt8
  maxResponseBytes : ℕ
  allowedStatuses : List ℕ

structure CacheKey where
  templateId : String
  connectionId : ConnectionId
  credentialGeneration : ℕ
  url : String
  deriving DecidableEq

/-- What the work of an operation has captured; it runs when the operation does. -/
structure HttpWork (υ : Type) where
  request : HttpTransportRequest υ
  connectionId : ConnectionId
  cacheKey : CacheKey
  cacheTtl : ℕ
  staleIfError : ℕ
  maxRetries : ℕ
  retryBaseDelay : ℕ

structure PreparedHttpOperation (υ : Type) where
  requestParams : CapabilityParams
  timeout : ℕ
  work : HttpWork υ

/-- Templates and granted connections; a host may listen to changes of health. -/
structure HttpsService where
  templates : OrdMap String HttpTemplateDecl
  connections : OrdMap ConnectionId Connection
  healthListener : Bool

def HttpsService.new (templates : List HttpTemplateDecl) (grantedConnections : List Connection) :
    HttpsService where
  templates := OrdMap.ofList (templates.map (fun t => (t.id,t)))
  connections := OrdMap.ofList (grantedConnections.map (fun c => (c.id,c)))
  healthListener := false

def HttpsService.withHealthListener (s : HttpsService) : HttpsService :=
  { s with healthListener := true }

def orReject {α : Type} (e : HttpServiceError) : Option α → Except HttpServiceError α
  | some a => .ok a
  | none => .error e

/-- The loop over the query parameters; `seen` holds the names before them. -/
def checkQuery (template : HttpTemplateDecl) :
    List String → List QueryParam → Except HttpServiceError Unit
  | _, [] => .ok ()
  | seen, param :: query =>
    if !template.queryParams.contains param.name ||
        seen.contains param.name ||
        maxQueryValueBytes < Text.byteLen param.value ||
        Text.containsChar param.value '\x00' then .error .invalidInput
    else checkQuery template (param.name :: seen) query

/-- A request that has passed the checks made before the credential is read. -/
structure HttpDraft (υ : Type) where
  template : HttpTemplateDecl
  connection : Connection
  url : υ
  header : String

def usizeTryFrom (n : ℕ) : Option ℕ := if n < 2^64 then some n else none

def millis (n : ℕ) : ℕ := n * 10^6

variable {υ : Type} (lib : HttpLibrary υ)

/-- The part of `prepare` before the credential is read. -/
def HttpsService.draft (s : HttpsService) (templateId : String) (connectionId : ConnectionId)
    (query : List QueryParam) : Except HttpServiceError (HttpDraft υ) := do
  let template ← orReject .templateUnavailable (s.templates.get templateId)
  let connection ← orReject .connectionNotGranted (s.connections.get connectionId)
  Checked.reject (connection.health = .unavailable ∨ connection.health = .revoked)
    .credentialUnavailable
  Checked.reject (template.queryParams.length < query.length) .invalidInput
  let url ← orReject .invalidInput (lib.parse template.url)
  checkQuery template [] query
  let header ← orReject .invalidInput (lib.headerName template.credentialHeader)
  .ok ⟨template,connection,lib.appendPairs url (query.map (fun p => (p.name,p.value))),header⟩

/-- The part of `prepare` after the credential is read. -/
def HttpDraft.prepared (draft : HttpDraft υ) (connectionId : ConnectionId)
    (credential : List UInt8) : Except HttpServiceError (PreparedHttpOperation υ) := do
  let template := draft.template
  let requestParams : CapabilityParams :=
    .network [lib.origin draft.url] 1 template.maxResponseBytes template.timeoutMs
  let maxResponseBytes ← orReject .invalidInput (usizeTryFrom template.maxResponseBytes)
  let request : HttpTransportRequest υ :=
    ⟨draft.url,draft.header,credential,maxResponseBytes,template.allowedStatuses⟩
  let cacheKey : CacheKey :=
    ⟨template.id,connectionId,draft.connection.credentialGeneration,lib.serialize draft.url⟩
  let work : HttpWork υ := ⟨request,connectionId,cacheKey,millis template.cacheTtlMs,
    millis template.staleIfErrorMs,template.maxRetries,millis template.retryBaseDelayMs⟩
  .ok ⟨requestParams,millis template.timeoutMs,work⟩

def HttpsService.prepare (s : HttpsService) (vault : CredentialVault) (templateId : String)
    (connectionId : ConnectionId) (query : List QueryParam) :
    Outcome HttpsService ServiceEffect (Except HttpServiceError (PreparedHttpOperation υ)) :=
  match s.draft lib templateId connectionId query with
  | .error e => ⟨.error e,s,[]⟩
  | .ok draft =>
    let read := ServiceEffect.vaultRead draft.connection.credential
    match vault.withSecret draft.connection.credential with
    | .error _ =>
      let told := if s.healthListener then [.healthChange connectionId .unavailable] else []
      ⟨.error .credentialUnavailable,s,read :: told⟩
    | .ok secret =>
      match lib.headerValue secret with
      | none => ⟨.error .credentialUnavailable,s,[read]⟩
      | some credential => ⟨draft.prepared lib connectionId credential,s,[read]⟩

theorem checkQuery_eq_ok {template : HttpTemplateDecl} {seen : List String}
    {query : List QueryParam} (h : checkQuery template seen query = .ok ()) :
    (∀ p ∈ query, p.name ∈ template.queryParams ∧ p.name ∉ seen ∧
      Text.byteLen p.value ≤ maxQueryValueBytes) ∧ (query.map QueryParam.name).Nodup := by
  induction query generalizing seen with
  | nil => exact ⟨by simp,List.nodup_nil⟩
  | cons param query ih =>
    simp only [checkQuery] at h
    split_ifs at h with hbad
    obtain ⟨hrest,hnodup⟩ := ih h
    simp only [Bool.or_eq_true, Bool.not_eq_true', decide_eq_true_eq, not_or, not_lt,
      Bool.not_eq_false, List.contains_eq_mem] at hbad
    obtain ⟨⟨⟨hdeclared,hseen⟩,hshort⟩,-⟩ := hbad
    constructor
    · intro p hp
      rcases List.mem_cons.mp hp with rfl | hp
      · exact ⟨by simpa using hdeclared,by simpa using hseen,by simpa using hshort⟩
      · obtain ⟨hmem,hnot,hlen⟩ := hrest p hp
        exact ⟨hmem,fun hin => hnot (List.mem_cons_of_mem _ hin),hlen⟩
    · rw [List.map_cons, List.nodup_cons]
      refine ⟨?_,hnodup⟩
      intro hin
      obtain ⟨p,hp,heq⟩ := List.mem_map.mp hin
      apply (hrest p hp).2.1
      rw [heq]
      exact List.mem_cons_self

section Specifications

variable {υ : Type} {lib : HttpLibrary υ}

theorem orReject_eq_ok {α : Type} {e : HttpServiceError} {o : Option α} {a : α} :
    orReject e o = .ok a ↔ o = some a := by
  cases o <;> simp [orReject]

/-- What a request has to pass before the credential is read. -/
theorem HttpsService.draft_eq_ok_iff {s : HttpsService} {templateId : String}
    {connectionId : ConnectionId} {query : List QueryParam} {draft : HttpDraft υ} :
    s.draft lib templateId connectionId query = .ok draft ↔
      s.templates.get templateId = some draft.template ∧
      s.connections.get connectionId = some draft.connection ∧
      ¬(draft.connection.health = .unavailable ∨ draft.connection.health = .revoked) ∧
      ¬draft.template.queryParams.length < query.length ∧
      checkQuery draft.template [] query = .ok () ∧
      lib.headerName draft.template.credentialHeader = some draft.header ∧
      ∃ url, lib.parse draft.template.url = some url ∧
        draft.url = lib.appendPairs url (query.map (fun p => (p.name,p.value))) := by
  constructor
  · intro h
    obtain ⟨template,htemplate,h⟩ := Checked.bind_eq_ok.mp h
    obtain ⟨connection,hconnection,h⟩ := Checked.bind_eq_ok.mp h
    obtain ⟨hhealth,h⟩ := Checked.check_bind_eq_ok.mp h
    obtain ⟨hcount,h⟩ := Checked.check_bind_eq_ok.mp h
    obtain ⟨url,hurl,h⟩ := Checked.bind_eq_ok.mp h
    obtain ⟨hquery,h⟩ := Checked.check_bind_eq_ok.mp h
    obtain ⟨header,hheader,h⟩ := Checked.bind_eq_ok.mp h
    cases h
    exact ⟨orReject_eq_ok.mp htemplate,orReject_eq_ok.mp hconnection,
      (Checked.reject_eq_ok _ _ _).mp hhealth,(Checked.reject_eq_ok _ _ _).mp hcount,hquery,
      orReject_eq_ok.mp hheader,url,orReject_eq_ok.mp hurl,rfl⟩
  · obtain ⟨template,connection,url,header⟩ := draft
    rintro ⟨htemplate,hconnection,hhealth,hcount,hquery,hheader,parsed,hparsed,rfl⟩
    refine Checked.bind_eq_ok.mpr ⟨template,orReject_eq_ok.mpr htemplate,?_⟩
    refine Checked.bind_eq_ok.mpr ⟨connection,orReject_eq_ok.mpr hconnection,?_⟩
    refine Checked.check_bind_eq_ok.mpr ⟨(Checked.reject_eq_ok _ _ _).mpr hhealth,?_⟩
    refine Checked.check_bind_eq_ok.mpr ⟨(Checked.reject_eq_ok _ _ _).mpr hcount,?_⟩
    refine Checked.bind_eq_ok.mpr ⟨parsed,orReject_eq_ok.mpr hparsed,?_⟩
    refine Checked.check_bind_eq_ok.mpr ⟨hquery,?_⟩
    exact Checked.bind_eq_ok.mpr ⟨header,orReject_eq_ok.mpr hheader,rfl⟩

theorem HttpsService.draft_eq_ok {s : HttpsService} {templateId : String}
    {connectionId : ConnectionId} {query : List QueryParam} {draft : HttpDraft υ}
    (h : s.draft lib templateId connectionId query = .ok draft) :
    s.templates.get templateId = some draft.template ∧
      s.connections.get connectionId = some draft.connection ∧
      checkQuery draft.template [] query = .ok () ∧
      ∃ url, lib.parse draft.template.url = some url ∧
        draft.url = lib.appendPairs url (query.map (fun p => (p.name,p.value))) := by
  obtain ⟨htemplate,hconnection,-,-,hquery,-,hurl⟩ := HttpsService.draft_eq_ok_iff.mp h
  exact ⟨htemplate,hconnection,hquery,hurl⟩

/-- The limit of a response is that of the template, which fits in a machine word. -/
theorem HttpDraft.request_of_prepared {draft : HttpDraft υ} {connectionId : ConnectionId}
    {credential : List UInt8} {prepared : PreparedHttpOperation υ}
    (h : draft.prepared lib connectionId credential = .ok prepared) :
    prepared.work.request = ⟨draft.url,draft.header,credential,draft.template.maxResponseBytes,
        draft.template.allowedStatuses⟩ ∧ draft.template.maxResponseBytes < 2^64 := by
  obtain ⟨maxResponseBytes,hsize,h⟩ := Checked.bind_eq_ok.mp h
  have hsize := orReject_eq_ok.mp hsize
  unfold usizeTryFrom at hsize
  split_ifs at hsize with hfits
  cases hsize
  cases h
  exact ⟨rfl,hfits⟩

theorem HttpDraft.prepared_eq_ok {draft : HttpDraft υ} {connectionId : ConnectionId}
    {credential : List UInt8} {prepared : PreparedHttpOperation υ}
    (h : draft.prepared lib connectionId credential = .ok prepared) :
    prepared.work.request = ⟨draft.url,draft.header,credential,draft.template.maxResponseBytes,
        draft.template.allowedStatuses⟩ ∧
      prepared.requestParams = .network [lib.origin draft.url] 1 draft.template.maxResponseBytes
        draft.template.timeoutMs ∧
      prepared.timeout = millis draft.template.timeoutMs := by
  refine ⟨(HttpDraft.request_of_prepared h).1,?_⟩
  obtain ⟨maxResponseBytes,-,h⟩ := Checked.bind_eq_ok.mp h
  cases h
  exact ⟨rfl,rfl⟩

theorem HttpsService.prepare_eq_ok {s : HttpsService} {vault : CredentialVault}
    {templateId : String} {connectionId : ConnectionId} {query : List QueryParam}
    {prepared : PreparedHttpOperation υ}
    (h : (s.prepare lib vault templateId connectionId query).result = .ok prepared) :
    ∃ draft secret credential, s.draft lib templateId connectionId query = .ok draft ∧
      vault.withSecret draft.connection.credential = .ok secret ∧
      lib.headerValue secret = some credential ∧
      draft.prepared lib connectionId credential = .ok prepared := by
  unfold HttpsService.prepare at h
  cases hdraft : s.draft lib templateId connectionId query with
  | error e => simp [hdraft] at h
  | ok draft =>
    simp only [hdraft] at h
    cases hsecret : vault.withSecret draft.connection.credential with
    | error e => simp [hsecret] at h
    | ok secret =>
      simp only [hsecret] at h
      cases hvalue : lib.headerValue secret with
      | none => simp [hvalue] at h
      | some credential =>
        simp only [hvalue] at h
        exact ⟨draft,secret,credential,rfl,hsecret,hvalue,h⟩

/-- The cache key and the limits of prepared work. -/
theorem HttpDraft.work_of_prepared {draft : HttpDraft υ} {connectionId : ConnectionId}
    {credential : List UInt8} {prepared : PreparedHttpOperation υ}
    (h : draft.prepared lib connectionId credential = .ok prepared) :
    prepared.work.cacheKey = ⟨draft.template.id,connectionId,
        draft.connection.credentialGeneration,lib.serialize draft.url⟩ ∧
      prepared.work.cacheTtl = millis draft.template.cacheTtlMs ∧
      prepared.work.staleIfError = millis draft.template.staleIfErrorMs ∧
      prepared.work.maxRetries = draft.template.maxRetries := by
  obtain ⟨maxResponseBytes,-,h⟩ := Checked.bind_eq_ok.mp h
  cases h
  exact ⟨rfl,rfl,rfl,rfl⟩

/-- Prepared work is for the connection it was prepared for. -/
theorem HttpDraft.connectionId_of_prepared {draft : HttpDraft υ} {connectionId : ConnectionId}
    {credential : List UInt8} {prepared : PreparedHttpOperation υ}
    (h : draft.prepared lib connectionId credential = .ok prepared) :
    prepared.work.connectionId = connectionId := by
  obtain ⟨maxResponseBytes,-,h⟩ := Checked.bind_eq_ok.mp h
  cases h
  rfl

end Specifications

end Floatile.Services
