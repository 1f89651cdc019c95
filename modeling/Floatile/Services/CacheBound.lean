import Floatile.Services.Confinement
import Floatile.Services.HttpSession
import Floatile.Services.Texts
import Floatile.Services.Transport

/-! How much the cache of a service can hold. Nothing is ever taken out, so it is bounded only where
no template that caches takes a query from the guest. -/
namespace Floatile.Services

open Floatile.Core Floatile.Core.Operation
open Floatile.Lib
open Floatile.Services.Operation

variable {υ : Type}

/-- What is documented of the URLs: pairs leave the host and the port alone, and different values
of a parameter are written differently. -/
structure QueryLaws (lib : HttpLibrary υ) (hostLib : HostLibrary υ) : Prop where
  hostStr_appendPairs : ∀ url pairs, hostLib.hostStr (lib.appendPairs url pairs) = hostLib.hostStr url
  port_appendPairs : ∀ url pairs,
    hostLib.portOrKnownDefault (lib.appendPairs url pairs) = hostLib.portOrKnownDefault url
  serialize_inj : ∀ url name value value',
    lib.serialize (lib.appendPairs url [(name,value)]) =
      lib.serialize (lib.appendPairs url [(name,value')]) → value = value'

/-- The cache key of a request without a query. -/
def plainKey (lib : HttpLibrary υ) (template : HttpTemplateDecl) (connection : Connection) :
    Option CacheKey :=
  (lib.parse template.url).map (fun url => ⟨template.id,connection.id,
    connection.credentialGeneration,lib.serialize (lib.appendPairs url [])⟩)

def plainKeys (lib : HttpLibrary υ) (templates : List HttpTemplateDecl)
    (connections : List Connection) : List CacheKey :=
  templates.flatMap (fun template => connections.filterMap (plainKey lib template))

theorem length_plainKeys (lib : HttpLibrary υ) (templates : List HttpTemplateDecl)
    (connections : List Connection) :
    (plainKeys lib templates connections).length ≤ templates.length * connections.length := by
  induction templates with
  | nil => simp [plainKeys]
  | cons template templates ih =>
    have hfirst := List.length_filterMap_le (plainKey lib template) connections
    simp only [plainKeys, List.flatMap_cons, List.length_append, List.length_cons] at ih ⊢
    rw [Nat.succ_mul]
    omega

/-- A template whose responses are kept. -/
def Caches (template : HttpTemplateDecl) : Prop :=
  template.cacheTtlMs ≠ 0 ∨ template.staleIfErrorMs ≠ 0

/-- A template can be used with a connection, and a response to it can be accepted. -/
structure Usable (lib : HttpLibrary υ) (hostLib : HostLibrary υ) (template : HttpTemplateDecl)
    (connection : Connection) : Prop where
  health : ¬(connection.health = .unavailable ∨ connection.health = .revoked)
  url : ∃ url, lib.parse template.url = some url ∧ (hostLib.hostStr url).isSome ∧
    (hostLib.portOrKnownDefault url).isSome
  header : (lib.headerName template.credentialHeader).isSome
  credential : ∃ secret, (lib.headerValue secret).isSome
  size : template.maxResponseBytes < 2^64
  status : template.allowedStatuses ≠ []

/-- The usable templates whose responses are kept take no query from the guest. A template and a
connection count if the service finds them under their ids. -/
def PlainWhereCached (lib : HttpLibrary υ) (hostLib : HostLibrary υ) (service : HttpsService) :
    Prop :=
  ∀ template connection, service.templates.get template.id = some template →
    service.connections.get connection.id = some connection →
    Usable lib hostLib template connection → Caches template → template.queryParams = []

/-- No template allows a longer response. -/
def bodyBound (templates : List HttpTemplateDecl) : ℕ :=
  (templates.map HttpTemplateDecl.maxResponseBytes).sum

def HttpCache.bodyBytes (cache : HttpCache) : ℕ :=
  (cache.map (fun entry => entry.2.response.body.length)).sum

/-- An action of a session whose transport is the production one. -/
inductive TransportAction (υ : Type) where
  | prepare (vault : CredentialVault) (templateId : String) (connectionId : ConnectionId)
      (query : List QueryParam)
  | resume (n : ℕ) (network : Network υ)
  | drop (n : ℕ)
  | elapse (n : ℕ)

/-- The call was prepared to its work. -/
def PreparedBy (lib : HttpLibrary υ) (service : HttpsService) (call : PreparedCall υ) : Prop :=
  ∃ vault prepared, (service.prepare lib vault call.templateId call.connectionId
    call.query).result = .ok prepared ∧ prepared.work = call.work

namespace HttpsSession

/-- The answer of the transport to the operation at a position. -/
def answerOf (hostLib : HostLibrary υ) (s : HttpsSession υ) (n : ℕ) (network : Network υ) :
    Except HttpServiceError HttpResponse :=
  match s.running[n]? with
  | some op => (execute hostLib network op.call.work.request).result
  | none => .error .unavailable

def transported (hostLib : HostLibrary υ) (s : HttpsSession υ) :
    TransportAction υ → SessionAction
  | .prepare vault templateId connectionId query => .prepare vault templateId connectionId query
  | .resume n network => .resume n (s.answerOf hostLib n network)
  | .drop n => .drop n
  | .elapse n => .elapse n

def act (lib : HttpLibrary υ) (hostLib : HostLibrary υ) (service : HttpsService)
    (s : HttpsSession υ) (action : TransportAction υ) : HttpsSession υ :=
  s.next lib service (s.transported hostLib action)

/-- The session after a sequence of actions over the production transport. -/
def afterTransport (lib : HttpLibrary υ) (hostLib : HostLibrary υ) (service : HttpsService)
    (actions : List (TransportAction υ)) : HttpsSession υ :=
  actions.foldl (act lib hostLib service) empty

/-- The work of an operation is what its call was prepared to, and the cache has one entry for each
of some keys. -/
structure Bounded (lib : HttpLibrary υ) (service : HttpsService) (keys : List CacheKey)
    (bound : ℕ) (s : HttpsSession υ) : Prop where
  calls : AllCalls (PreparedBy lib service) s
  keys : ∀ entry ∈ s.cache, entry.1 ∈ keys
  bodies : ∀ entry ∈ s.cache, entry.2.response.body.length ≤ bound
  distinct : (s.cache.map Prod.fst).Nodup

end HttpsSession

theorem HttpCache.nodup_store {cache : HttpCache} (h : (cache.map Prod.fst).Nodup)
    (key : CacheKey) (now : ℕ) (response : HttpResponse) :
    ((cache.store key now response).map Prod.fst).Nodup := by
  rw [HttpCache.store,List.map_cons,List.nodup_cons]
  constructor
  · intro hmem
    obtain ⟨entry,hentry,heq⟩ := List.mem_map.mp hmem
    have hne := (List.mem_filter.mp hentry).2
    exact of_decide_eq_true hne heq
  · exact h.sublist (List.filter_sublist.map Prod.fst)

/-- What a step of the work leaves in the cache. -/
theorem HttpWork.cache_of_resume {work : HttpWork υ} {cache cache' : HttpCache} {now : ℕ}
    {answer : Except HttpServiceError HttpResponse} {phase : AttemptPhase} {step : WorkStep}
    (h : work.resume cache now answer phase = some (step,cache')) :
    cache' = cache ∨ (work.cacheTtl ≠ 0 ∨ work.staleIfError ≠ 0) ∧
      ∃ response, answer = .ok response ∧ cache' = cache.store work.cacheKey now response := by
  cases phase with
  | fresh =>
    simp only [resume] at h
    split at h <;> cases h <;> exact Or.inl rfl
  | executing attempt =>
    cases answer with
    | ok response =>
      simp only [resume, answered, Option.some.injEq, Prod.mk.injEq] at h
      obtain ⟨-,rfl⟩ := h
      split_ifs with hcaches
      · exact Or.inr ⟨hcaches,response,rfl,rfl⟩
      · exact Or.inl rfl
    | error error =>
      simp only [resume, answered, Option.some.injEq] at h
      split at h
      · cases h
        exact Or.inl rfl
      · split at h <;> cases h <;> exact Or.inl rfl
  | sleeping last wake =>
    simp only [resume] at h
    split_ifs at h
    cases h
    exact Or.inl rfl

theorem le_bodyBound {templates : List HttpTemplateDecl} {template : HttpTemplateDecl}
    (h : template ∈ templates) : template.maxResponseBytes ≤ bodyBound templates :=
  List.single_le_sum (fun _ _ => Nat.zero_le _) _ (List.mem_map_of_mem h)

/-- Where no cached template takes a query, what is stored has a plain key and a bounded body. -/
theorem plain_of_stored {lib : HttpLibrary υ} {hostLib : HostLibrary υ}
    (laws : QueryLaws lib hostLib) {templates : List HttpTemplateDecl}
    {connections : List Connection}
    (hplain : PlainWhereCached lib hostLib (HttpsService.new templates connections))
    {call : PreparedCall υ}
    (hcall : PreparedBy lib (HttpsService.new templates connections) call)
    (hcaches : call.work.cacheTtl ≠ 0 ∨ call.work.staleIfError ≠ 0) {network : Network υ}
    {response : HttpResponse} (hok : (execute hostLib network call.work.request).result =
      .ok response) :
    call.work.cacheKey ∈ plainKeys lib templates connections ∧
      response.body.length ≤ bodyBound templates := by
  obtain ⟨vault,prepared,hprepare,hwork⟩ := hcall
  rw [← hwork] at hcaches hok ⊢
  obtain ⟨draft,secret,credential,hdraft,-,hvalue,hready⟩ := HttpsService.prepare_eq_ok hprepare
  obtain ⟨htemplate,hconnection,hhealth,hcount,hquery,hheader,url,hurl,happend⟩ :=
    HttpsService.draft_eq_ok_iff.mp hdraft
  obtain ⟨hkey,httl,hstale,-⟩ := HttpDraft.work_of_prepared hready
  obtain ⟨hrequest,hsize⟩ := HttpDraft.request_of_prepared hready
  obtain ⟨hmem,hid⟩ := HttpsService.template_of_new htemplate
  obtain ⟨hconn,hconnId⟩ := HttpsService.connection_of_new hconnection
  obtain ⟨host,port,exchange,hhost,hport,haccept⟩ := execute_eq_ok hok
  obtain ⟨hstatus,hlength⟩ := acceptResponse_eq_ok haccept
  rw [hrequest] at hhost hport hstatus hlength
  have husable : Usable lib hostLib draft.template draft.connection := by
    refine ⟨hhealth,⟨url,hurl,?_,?_⟩,by simp [hheader],⟨secret,by simp [hvalue]⟩,hsize,
      List.ne_nil_of_mem hstatus⟩
    · rw [← laws.hostStr_appendPairs,← happend,hhost]
      rfl
    · rw [← laws.port_appendPairs,← happend,hport]
      rfl
  have hcached : Caches draft.template := by
    refine hcaches.imp ?_ ?_
    · intro hne hzero
      exact hne (by rw [httl,hzero,millis,Nat.zero_mul])
    · intro hne hzero
      exact hne (by rw [hstale,hzero,millis,Nat.zero_mul])
  have hnone := hplain draft.template draft.connection (hid ▸ htemplate) (hconnId ▸ hconnection)
    husable hcached
  have hnoquery : call.query = [] := by
    rw [hnone] at hcount
    exact List.length_eq_zero_iff.mp (Nat.le_zero.mp (not_lt.mp hcount))
  constructor
  · refine List.mem_flatMap.mpr ⟨draft.template,hmem,List.mem_filterMap.mpr
      ⟨draft.connection,hconn,?_⟩⟩
    rw [hkey,plainKey,hurl,happend,hnoquery,← hconnId]
    rfl
  · exact hlength.trans (le_bodyBound hmem)

namespace HttpsSession

variable {lib : HttpLibrary υ} {hostLib : HostLibrary υ} {service : HttpsService}
variable {keys : List CacheKey} {bound : ℕ} {s : HttpsSession υ}

/-- What the transport answers to a call that is cached may be stored. -/
def Storable (lib : HttpLibrary υ) (hostLib : HostLibrary υ) (service : HttpsService)
    (keys : List CacheKey) (bound : ℕ) : Prop :=
  ∀ call, PreparedBy lib service call → (call.work.cacheTtl ≠ 0 ∨ call.work.staleIfError ≠ 0) →
    ∀ network response, (execute hostLib network call.work.request).result = .ok response →
      call.work.cacheKey ∈ keys ∧ response.body.length ≤ bound

/-- An operation goes on, with the answer of the transport. -/
theorem Bounded.cache_of_resume (h : s.Bounded lib service keys bound)
    (hstore : Storable lib hostLib service keys bound) (n : ℕ) (network : Network υ) :
    (∀ entry ∈ (s.resume n (s.answerOf hostLib n network)).cache,
      entry.1 ∈ keys ∧ entry.2.response.body.length ≤ bound) ∧
      ((s.resume n (s.answerOf hostLib n network)).cache.map Prod.fst).Nodup := by
  have hold : ∀ entry ∈ s.cache, entry.1 ∈ keys ∧ entry.2.response.body.length ≤ bound :=
    fun entry hentry => ⟨h.keys entry hentry,h.bodies entry hentry⟩
  unfold HttpsSession.resume answerOf
  cases hget : s.running[n]? with
  | none => exact ⟨hold,h.distinct⟩
  | some op =>
    simp only
    generalize hanswer : (execute hostLib network op.call.work.request).result = answer
    cases hresume : op.call.work.resume s.cache s.now answer op.phase with
    | none => exact ⟨hold,h.distinct⟩
    | some out =>
      obtain ⟨step,cache⟩ := out
      have hcache : (s.follow n (op.hear answer) (step,cache)).cache = cache := by
        cases step <;> rfl
      simp only [hcache]
      rcases HttpWork.cache_of_resume hresume with rfl | ⟨hcaches,response,rfl,rfl⟩
      · exact ⟨hold,h.distinct⟩
      · have hcall := h.calls.running op (List.mem_of_getElem? hget)
        have hnew := hstore op.call hcall hcaches network response hanswer
        refine ⟨?_,HttpCache.nodup_store h.distinct _ _ _⟩
        intro entry hentry
        rcases HttpCache.mem_store hentry with rfl | hin
        · exact hnew
        · exact hold entry hin

theorem Bounded.next (h : s.Bounded lib service keys bound)
    (hstore : Storable lib hostLib service keys bound) (action : TransportAction υ) :
    (s.act lib hostLib service action).Bounded lib service keys bound := by
  unfold act
  have hcalls : AllCalls (PreparedBy lib service)
      (s.next lib service (s.transported hostLib action)) := by
    refine h.calls.next ?_ (s.transported hostLib action)
    intro vault templateId connectionId query prepared hprepared
    exact ⟨vault,prepared,hprepared,rfl⟩
  cases action with
  | resume n network =>
    have hcache := h.cache_of_resume hstore n network
    exact ⟨hcalls,fun entry hentry => (hcache.1 entry hentry).1,
      fun entry hentry => (hcache.1 entry hentry).2,hcache.2⟩
  | prepare vault templateId connectionId query =>
    have hsame : (s.next lib service (.prepare vault templateId connectionId query)).cache =
        s.cache := by
      simp only [HttpsSession.next]
      split <;> rfl
    refine ⟨hcalls,?_,?_,?_⟩
    all_goals
      simp only [transported, hsame]
    · exact h.keys
    · exact h.bodies
    · exact h.distinct
  | drop n => exact ⟨hcalls,h.keys,h.bodies,h.distinct⟩
  | elapse n => exact ⟨hcalls,h.keys,h.bodies,h.distinct⟩

theorem bounded_after (hstore : Storable lib hostLib service keys bound)
    (actions : List (TransportAction υ)) :
    (afterTransport lib hostLib service actions).Bounded lib service keys bound := by
  have hgeneral : ∀ s : HttpsSession υ, s.Bounded lib service keys bound →
      (actions.foldl (act lib hostLib service) s).Bounded lib service keys bound := by
    induction actions with
    | nil => exact fun s h => h
    | cons action actions ih => exact fun s h => ih _ (h.next hstore action)
  apply hgeneral
  refine ⟨⟨?_,?_⟩,?_,?_,List.nodup_nil⟩
  all_goals
    intro x hx
    cases hx

theorem Bounded.length_le (h : s.Bounded lib service keys bound) : s.cache.length ≤ keys.length := by
  rw [← List.length_map (f := Prod.fst)]
  apply List.Subperm.length_le
  apply List.subperm_of_subset h.distinct
  intro key hkey
  obtain ⟨entry,hentry,rfl⟩ := List.mem_map.mp hkey
  exact h.keys entry hentry

theorem Bounded.bodyBytes_le (h : s.Bounded lib service keys bound) :
    s.cache.bodyBytes ≤ keys.length * bound := by
  have hsum : s.cache.bodyBytes ≤ s.cache.length * bound := by
    have heach : ∀ size ∈ s.cache.map (fun entry => entry.2.response.body.length),
        size ≤ bound := by
      intro size hsize
      obtain ⟨entry,hentry,rfl⟩ := List.mem_map.mp hsize
      exact h.bodies entry hentry
    have hle := List.sum_le_card_nsmul _ bound heach
    rw [List.length_map] at hle
    exact hle
  exact hsum.trans (Nat.mul_le_mul_right _ h.length_le)

end HttpsSession

theorem HttpCache.key_stays_store {cache : HttpCache} {key : CacheKey}
    (h : key ∈ cache.map Prod.fst) (stored : CacheKey) (now : ℕ) (response : HttpResponse) :
    key ∈ (cache.store stored now response).map Prod.fst := by
  by_cases hkey : key = stored
  · exact List.mem_map.mpr ⟨(stored,⟨now,response⟩),List.mem_cons_self,hkey.symm⟩
  · obtain ⟨entry,hentry,rfl⟩ := List.mem_map.mp h
    refine List.mem_map_of_mem (List.mem_cons_of_mem _ (List.mem_filter.mpr ⟨hentry,?_⟩))
    exact decide_eq_true hkey

/-- Nothing is ever taken out: a key that is in the cache stays. -/
theorem HttpsSession.key_stays {s : HttpsSession υ} {lib : HttpLibrary υ}
    {service : HttpsService} {key : CacheKey} (h : key ∈ s.cache.map Prod.fst)
    (action : SessionAction) : key ∈ (s.next lib service action).cache.map Prod.fst := by
  cases action with
  | prepare vault templateId connectionId query =>
    simp only [HttpsSession.next]
    split <;> exact h
  | resume n answer =>
    simp only [HttpsSession.next, HttpsSession.resume]
    cases s.running[n]? with
    | none => exact h
    | some op =>
      simp only
      cases hresume : op.call.work.resume s.cache s.now answer op.phase with
      | none => exact h
      | some out =>
        obtain ⟨step,cache⟩ := out
        have hcache : (s.follow n (op.hear answer) (step,cache)).cache = cache := by
          cases step <;> rfl
        simp only [hcache]
        rcases HttpWork.cache_of_resume hresume with rfl | ⟨-,response,-,rfl⟩
        · exact h
        · exact HttpCache.key_stays_store h _ _ _
  | drop n => exact h
  | elapse n => exact h

theorem HttpsSession.key_stays_acts {lib : HttpLibrary υ} {hostLib : HostLibrary υ}
    {service : HttpsService} {key : CacheKey} (actions : List (TransportAction υ)) :
    ∀ {s : HttpsSession υ}, key ∈ s.cache.map Prod.fst →
      key ∈ (actions.foldl (act lib hostLib service) s).cache.map Prod.fst := by
  induction actions with
  | nil => exact fun h => h
  | cons action actions ih => exact fun h => ih (key_stays h _)

/-- A network in which a host has one public address and the server answers with no body. -/
def openNetwork (status : ℕ) : Network υ where
  lookupHost _ _ := some [.v4 ⟨8,8,8,8⟩]
  send _ pinned _ := ⟨some pinned,some ⟨status,none,[]⟩⟩

theorem execute_openNetwork {hostLib : HostLibrary υ} {request : HttpTransportRequest υ}
    {status : ℕ} (hhost : (hostLib.hostStr request.url).isSome)
    (hport : (hostLib.portOrKnownDefault request.url).isSome)
    (hstatus : status ∈ request.allowedStatuses) :
    (execute hostLib (openNetwork status) request).result = .ok ⟨status,[]⟩ := by
  obtain ⟨host,hhost⟩ := Option.isSome_iff_exists.mp hhost
  obtain ⟨port,hport⟩ := Option.isSome_iff_exists.mp hport
  have hpinned : pinnedAddress [.v4 ⟨8,8,8,8⟩] port = .ok ⟨.v4 ⟨8,8,8,8⟩,port⟩ := rfl
  simp [execute, hhost, hport, openNetwork, hpinned, acceptResponse, hstatus, readBody, Except.map]

section Growth

variable {lib : HttpLibrary υ} {hostLib : HostLibrary υ} {service : HttpsService}
  {template : HttpTemplateDecl} {connection : Connection} {url : υ} {name value : String}

/-- The cache key of a request with one parameter. -/
def queryKey (lib : HttpLibrary υ) (template : HttpTemplateDecl) (connection : Connection)
    (url : υ) (name value : String) : CacheKey :=
  ⟨template.id,connection.id,connection.credentialGeneration,
    lib.serialize (lib.appendPairs url [(name,value)])⟩

/-- A usable template with a parameter is prepared with every value of it. -/
theorem prepare_of_usable (htemplate : service.templates.get template.id = some template)
    (hconnection : service.connections.get connection.id = some connection)
    (h : Usable lib hostLib template connection) (hurl : lib.parse template.url = some url)
    (hname : name ∈ template.queryParams) (hshort : Text.byteLen value ≤ maxQueryValueBytes)
    (hnul : Text.containsChar value '\x00' = false) :
    ∃ vault prepared,
      (service.prepare lib vault template.id connection.id [⟨name,value⟩]).result = .ok prepared ∧
      prepared.work.cacheKey = queryKey lib template connection url name value ∧
      prepared.work.cacheTtl = millis template.cacheTtlMs ∧
      prepared.work.staleIfError = millis template.staleIfErrorMs ∧
      prepared.work.request.url = lib.appendPairs url [(name,value)] ∧
      prepared.work.request.allowedStatuses = template.allowedStatuses := by
  obtain ⟨header,hheader⟩ := Option.isSome_iff_exists.mp h.header
  obtain ⟨secret,hsecret⟩ := h.credential
  obtain ⟨credential,hcredential⟩ := Option.isSome_iff_exists.mp hsecret
  have hquery : checkQuery template [] [⟨name,value⟩] = .ok () := by
    simp [checkQuery, hname, hshort, hnul]
  have hcount : ¬template.queryParams.length < [(⟨name,value⟩ : QueryParam)].length :=
    not_lt.mpr (List.length_pos_of_mem hname)
  obtain ⟨draft,hdraft,rfl,rfl,hdraftUrl⟩ : ∃ draft,
      service.draft lib template.id connection.id [⟨name,value⟩] = .ok draft ∧
      draft.template = template ∧ draft.connection = connection ∧
      draft.url = lib.appendPairs url [(name,value)] :=
    ⟨⟨template,connection,lib.appendPairs url [(name,value)],header⟩,
      HttpsService.draft_eq_ok_iff.mpr ⟨htemplate,hconnection,h.health,hcount,hquery,hheader,url,
        hurl,rfl⟩,rfl,rfl,rfl⟩
  cases hready : draft.prepared lib draft.connection.id credential with
  | error e =>
    rw [HttpDraft.prepared, usizeTryFrom, if_pos h.size] at hready
    cases hready
  | ok prepared =>
    obtain ⟨hkey,httl,hstale,-⟩ := HttpDraft.work_of_prepared hready
    obtain ⟨hrequest,-⟩ := HttpDraft.request_of_prepared hready
    refine ⟨⟨fun _ => .ok secret⟩,prepared,?_,?_,httl,hstale,?_,?_⟩
    · simp only [HttpsService.prepare, hdraft, hcredential, hready]
    · rw [hkey, hdraftUrl]
      rfl
    · rw [hrequest, hdraftUrl]
    · rw [hrequest]

/-- An operation is prepared, calls the transport and has its answer. -/
def visit (vault : CredentialVault) (template : HttpTemplateDecl) (connection : Connection)
    (name value : String) (status : ℕ) : List (TransportAction υ) :=
  [.prepare vault template.id connection.id [⟨name,value⟩],.resume 0 (openNetwork status),
    .resume 0 (openNetwork status)]

/-- After a visit no operation is under way, and its key is in the cache. -/
theorem key_of_visit {s : HttpsSession υ} (hidle : s.running = []) {vault : CredentialVault}
    {status : ℕ} {prepared : PreparedHttpOperation υ} {response : HttpResponse}
    (hprepare : (service.prepare lib vault template.id connection.id
      [⟨name,value⟩]).result = .ok prepared)
    (hcaches : prepared.work.cacheTtl ≠ 0 ∨ prepared.work.staleIfError ≠ 0)
    (hok : (execute hostLib (openNetwork status) prepared.work.request).result = .ok response) :
    let s' := (visit vault template connection name value status).foldl
      (HttpsSession.act lib hostLib service) s
    s'.running = [] ∧ prepared.work.cacheKey ∈ s'.cache.map Prod.fst := by
  simp only [visit, List.foldl_cons, List.foldl_nil, HttpsSession.act, HttpsSession.transported,
    HttpsSession.next, hprepare, hidle, List.nil_append, HttpsSession.resume,
    List.getElem?_cons_zero, HttpWork.resume]
  generalize hhit : (if prepared.work.cacheTtl = 0 then none
    else s.cache.hit prepared.work.cacheKey s.now prepared.work.cacheTtl) = cached
  cases cached with
  | some stored =>
    split_ifs at hhit
    obtain ⟨entry,hmem,-,-⟩ := HttpCache.hit_eq_some hhit
    exact ⟨rfl,List.mem_map_of_mem hmem⟩
  | none =>
    simp [HttpsSession.follow, HttpsSession.answerOf, HttpOperation.hear, HttpWork.answered, hok,
      hcaches, HttpCache.store]

/-- Requests with different values of one parameter leave an entry for each. -/
theorem keys_of_visits (laws : QueryLaws lib hostLib)
    (htemplate : service.templates.get template.id = some template)
    (hconnection : service.connections.get connection.id = some connection)
    (h : Usable lib hostLib template connection) (hcaches : Caches template)
    (hurl : lib.parse template.url = some url) (hname : name ∈ template.queryParams)
    (values : List String) (hvalues : ∀ value ∈ values, value ∈ bitTexts maxQueryValueBytes) :
    ∃ actions, (HttpsSession.afterTransport lib hostLib service actions).running = [] ∧
      ∀ value ∈ values, queryKey lib template connection url name value ∈
        (HttpsSession.afterTransport lib hostLib service actions).cache.map Prod.fst := by
  induction values with
  | nil => exact ⟨[],rfl,by simp⟩
  | cons value values ih =>
    obtain ⟨actions,hidle,hkeys⟩ := ih (fun v hv => hvalues v (List.mem_cons_of_mem _ hv))
    have hbits := hvalues value List.mem_cons_self
    obtain ⟨vault,prepared,hprepare,hkey,httl,hstale,hrequest,hstatuses⟩ :=
      prepare_of_usable htemplate hconnection h hurl hname (byteLen_of_mem_bitTexts hbits).le
        (not_containsChar_of_mem_bitTexts hbits)
    obtain ⟨status,hstatus⟩ := List.exists_mem_of_ne_nil _ h.status
    obtain ⟨url',hurl',hhost,hport⟩ := h.url
    obtain rfl : url' = url := Option.some.inj (hurl'.symm.trans hurl)
    have hok : (execute hostLib (openNetwork status) prepared.work.request).result =
        .ok ⟨status,[]⟩ := execute_openNetwork
      (by rw [hrequest, laws.hostStr_appendPairs]; exact hhost)
      (by rw [hrequest, laws.port_appendPairs]; exact hport) (hstatuses ▸ hstatus)
    have hcached : prepared.work.cacheTtl ≠ 0 ∨ prepared.work.staleIfError ≠ 0 := by
      rw [httl, hstale]
      exact hcaches.imp (fun hne => Nat.mul_ne_zero hne (by decide))
        (fun hne => Nat.mul_ne_zero hne (by decide))
    obtain ⟨hidle',hnew⟩ := key_of_visit hidle hprepare hcached hok
    refine ⟨actions ++ visit vault template connection name value status,?_,?_⟩
    · rw [HttpsSession.afterTransport, List.foldl_append]
      exact hidle'
    · intro v hv
      rw [HttpsSession.afterTransport, List.foldl_append]
      rcases List.mem_cons.mp hv with rfl | hv
      · exact hkey ▸ hnew
      · exact HttpsSession.key_stays_acts _ (hkeys v hv)

/-- A usable template that caches and takes a query fills the cache without end. -/
theorem exists_cache_of_query (laws : QueryLaws lib hostLib)
    (htemplate : service.templates.get template.id = some template)
    (hconnection : service.connections.get connection.id = some connection)
    (h : Usable lib hostLib template connection) (hcaches : Caches template)
    (hquery : template.queryParams ≠ []) :
    ∃ actions, 2^maxQueryValueBytes ≤
      (HttpsSession.afterTransport lib hostLib service actions).cache.length := by
  obtain ⟨url,hurl,-,-⟩ := h.url
  obtain ⟨name,hname⟩ := List.exists_mem_of_ne_nil _ hquery
  obtain ⟨actions,-,hkeys⟩ := keys_of_visits laws htemplate hconnection h hcaches hurl hname
    (bitTexts maxQueryValueBytes) (fun _ hv => hv)
  refine ⟨actions,?_⟩
  have hinj : Function.Injective (queryKey lib template connection url name) := by
    intro v v' heq
    exact laws.serialize_inj url name v v' (congrArg CacheKey.url heq)
  have hnodup := (nodup_bitTexts maxQueryValueBytes).map hinj
  have hsub : (bitTexts maxQueryValueBytes).map (queryKey lib template connection url name) ⊆
      (HttpsSession.afterTransport lib hostLib service actions).cache.map Prod.fst := by
    intro key hkey
    obtain ⟨v,hv,rfl⟩ := List.mem_map.mp hkey
    exact hkeys v hv
  have hlength := (List.subperm_of_subset hnodup hsub).length_le
  rwa [List.length_map, List.length_map, length_bitTexts] at hlength

end Growth

/-- However long a service runs, its cache holds no more than `n` entries, and no body that a
template does not allow. -/
def CacheWithin (lib : HttpLibrary υ) (hostLib : HostLibrary υ)
    (templates : List HttpTemplateDecl) (connections : List Connection) (n : ℕ) : Prop :=
  ∀ actions,
    let s := HttpsSession.afterTransport lib hostLib (.new templates connections) actions
    s.cache.length ≤ n ∧ s.cache.bodyBytes ≤ n * bodyBound templates

/-- One entry for each template and connection is enough, and any number short of that of all
queries is, exactly where no template that caches takes a query. -/
theorem cache_bounded_iff {lib : HttpLibrary υ} {hostLib : HostLibrary υ}
    (laws : QueryLaws lib hostLib) (templates : List HttpTemplateDecl)
    (connections : List Connection) (n : ℕ)
    (hlow : templates.length * connections.length ≤ n) (hhigh : n < 2^maxQueryValueBytes) :
    CacheWithin lib hostLib templates connections n ↔
      PlainWhereCached lib hostLib (HttpsService.new templates connections) := by
  constructor
  · intro hwithin template connection htemplate hconnection husable hcaches
    by_contra hquery
    obtain ⟨actions,hmany⟩ := exists_cache_of_query laws htemplate hconnection husable hcaches
      hquery
    exact absurd (hmany.trans (hwithin actions).1) (not_le.mpr hhigh)
  · intro hplain actions s
    have hbounded : s.Bounded lib (HttpsService.new templates connections)
        (plainKeys lib templates connections) (bodyBound templates) :=
      HttpsSession.bounded_after (fun call hcall hcaches network response hok =>
        plain_of_stored laws hplain hcall hcaches hok) actions
    have hkeys := (length_plainKeys lib templates connections).trans hlow
    exact ⟨hbounded.length_le.trans hkeys,
      hbounded.bodyBytes_le.trans (Nat.mul_le_mul_right _ hkeys)⟩

/-- The last text of a joined list stands at its end. -/
theorem intercalate_concat (separator : String) (ts : List String) :
    ∃ start, ∀ t, separator.intercalate (ts ++ [t]) = start ++ t := by
  induction ts with
  | nil => exact ⟨"",fun t => by simp⟩
  | cons first ts ih =>
    obtain ⟨start,hstart⟩ := ih
    refine ⟨first ++ separator ++ start,fun t => ?_⟩
    obtain ⟨second,rest,hrest⟩ : ∃ second rest, ts ++ [t] = second :: rest :=
      List.exists_cons_of_ne_nil (List.append_ne_nil_of_right_ne_nil ts (List.cons_ne_nil t []))
    rw [List.cons_append, hrest, String.intercalate_cons_cons, ← hrest, hstart,
      String.append_assoc, String.append_assoc, String.append_assoc]

def textHosts : HostLibrary TextUrl where
  hostStr url := some url.site.host
  portOrKnownDefault url := some (url.site.port.getD 443)

theorem textUrls_queryLaws : QueryLaws textUrls textHosts where
  hostStr_appendPairs _ _ := rfl
  port_appendPairs _ _ := rfl
  serialize_inj := by
    intro url name value value' heq
    obtain ⟨start,hstart⟩ := intercalate_concat "&" (url.pairs.map (fun p => p.1 ++ "=" ++ p.2))
    simp only [textUrls, TextUrl.origin, List.map_append, List.map_cons, List.map_nil,
      hstart] at heq
    simpa [← String.toList_inj] using heq

/-- A template whose responses are kept for a minute. -/
def cachedTemplate (queryParams : List String) : HttpTemplateDecl :=
  { balanceTemplate with queryParams := queryParams, cacheTtlMs := 60000 }

/-- Without parameters there is never more than one entry for the template and the connection. -/
theorem cachedTemplate_bounded :
    CacheWithin textUrls textHosts [cachedTemplate []] [balanceConnection] 1 := by
  have hplain : PlainWhereCached textUrls textHosts
      (HttpsService.new [cachedTemplate []] [balanceConnection]) := by
    intro template connection htemplate _ _ _
    obtain ⟨hmem,-⟩ := HttpsService.template_of_new htemplate
    rw [List.mem_singleton.mp hmem]
    rfl
  have hhigh : 1 < 2^maxQueryValueBytes := Nat.one_lt_two_pow (by decide)
  exact (cache_bounded_iff textUrls_queryLaws [cachedTemplate []] [balanceConnection] 1
    (by decide) hhigh).mpr hplain

/-- Requests for ever new accounts fill the cache beyond every bound. -/
theorem cachedTemplate_unbounded :
    ¬∃ n < 2^maxQueryValueBytes,
      CacheWithin textUrls textHosts [cachedTemplate ["account"]] [balanceConnection] n := by
  rintro ⟨n,hn,hwithin⟩
  have husable : Usable textUrls textHosts (cachedTemplate ["account"]) balanceConnection := by
    refine ⟨by decide,⟨_,rfl,rfl,rfl⟩,rfl,⟨[],rfl⟩,by decide,by decide⟩
  let service := HttpsService.new [cachedTemplate ["account"]] [balanceConnection]
  have htemplate : service.templates.get (cachedTemplate ["account"]).id =
      some (cachedTemplate ["account"]) := rfl
  have hconnection : service.connections.get balanceConnection.id = some balanceConnection := rfl
  obtain ⟨actions,hmany⟩ := exists_cache_of_query textUrls_queryLaws htemplate hconnection
    husable (Or.inl (by decide)) (by decide)
  exact absurd (hmany.trans (hwithin actions).1) (not_le.mpr hn)

end Floatile.Services
