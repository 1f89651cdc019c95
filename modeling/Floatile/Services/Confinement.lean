import Floatile.Services.CallFrame
import Floatile.Services.HttpHost

/-! Every request that an instance hands to the transport goes to the place of one of its
templates, with a credential and limits that the instance was granted. -/
namespace Floatile.Services

open Floatile.Core
open Floatile.Core.Capability Floatile.Core.Operation
open Floatile.Lib Floatile.Lib.Trace Floatile.Lib.Transition
open Floatile.Lib.Checked (bind_eq_ok check_bind_eq_ok toOption_eq_some)
open Floatile.Services.Operation

/-- The place that a URL names. -/
structure Site where
  scheme : String
  host : String
  port : Option ℕ
  path : String
  deriving DecidableEq

/-- Appending pairs to the query of a URL leaves its place alone and keeps the earlier pairs. -/
structure UrlLaws {υ : Type} (lib : HttpLibrary υ) (site : υ → Site)
    (queryPairs : υ → List (String × String)) : Prop where
  site_appendPairs : ∀ url pairs, site (lib.appendPairs url pairs) = site url
  queryPairs_appendPairs : ∀ url pairs,
    queryPairs (lib.appendPairs url pairs) = queryPairs url ++ pairs

/-- The pairs that a guest may add to the query of a template. -/
structure QueryAllowed (template : HttpTemplateDecl) (pairs : List (String × String)) : Prop where
  declared : ∀ p ∈ pairs, p.1 ∈ template.queryParams
  once : (pairs.map Prod.fst).Nodup
  short : ∀ p ∈ pairs, Text.byteLen p.2 ≤ maxQueryValueBytes

section

variable {υ : Type} (lib : HttpLibrary υ) (site : υ → Site)
  (queryPairs : υ → List (String × String)) (vaults : List CredentialVault)

/-- A request, with the time it may take, that a template, a connection and a grant account for.
`vaults` are the vaults that the credential may have been read from. -/
structure ConfinedTo (template : HttpTemplateDecl) (connection : Connection) (grant : Grant)
    (request : HttpTransportRequest υ) (timeout : ℕ) : Prop where
  place : ∃ url, lib.parse template.url = some url ∧ site request.url = site url ∧
    ∃ pairs, queryPairs request.url = queryPairs url ++ pairs ∧ QueryAllowed template pairs
  credential : ∃ vault ∈ vaults, ∃ secret, vault.withSecret connection.credential = .ok secret ∧
    lib.headerValue secret = some request.credential
  size : request.maxResponseBytes ≤ template.maxResponseBytes
  time : timeout ≤ millis template.timeoutMs
  granted : grant.capability = .networkHttps ∧ ∃ origins maxRequests maxBytes maxTimeout,
    grant.params = some (.network origins maxRequests maxBytes maxTimeout) ∧
      lib.origin request.url ∈ origins ∧ request.maxResponseBytes ≤ maxBytes ∧
      timeout ≤ millis maxTimeout

def Confined (setup : HttpsSetup) (request : HttpTransportRequest υ) (timeout : ℕ) : Prop :=
  ∃ template ∈ setup.templates, ∃ connection ∈ setup.connections, ∃ grant ∈ setup.grants.caps,
    ConfinedTo lib site queryPairs vaults template connection grant request timeout

end

variable {υ : Type} {lib : HttpLibrary υ} {site : υ → Site}
  {queryPairs : υ → List (String × String)}

/-- Work that is prepared and allowed is confined. -/
theorem confined_of_prepared (laws : UrlLaws lib site queryPairs) {setup : HttpsSetup}
    {vault : CredentialVault} {templateId : String} {connectionId : ConnectionId}
    {query : List QueryParam} {prepared : PreparedHttpOperation υ}
    (hprepared : (setup.service.prepare lib vault templateId connectionId query).result =
      .ok prepared)
    (hallows : Authority.Allows (findGrant (mergeInherent setup.grants.caps) .networkHttps)
      (some prepared.requestParams)) {vaults : List CredentialVault} (hvault : vault ∈ vaults) :
    Confined lib site queryPairs vaults setup prepared.work.request prepared.timeout := by
  obtain ⟨draft,secret,credential,hdraft,hsecret,hvalue,hready⟩ :=
    HttpsService.prepare_eq_ok hprepared
  obtain ⟨htemplate,hconnection,hquery,url,hurl,happend⟩ := HttpsService.draft_eq_ok hdraft
  obtain ⟨hrequest,hparams,htimeout⟩ := HttpDraft.prepared_eq_ok hready
  have htemplates : setup.service.templates =
      OrdMap.ofList (setup.templates.map (fun t => (t.id,t))) := by
    unfold HttpsSetup.service
    dsimp only
    split_ifs <;> rfl
  have hconnections : setup.service.connections =
      OrdMap.ofList (setup.connections.map (fun c => (c.id,c))) := by
    unfold HttpsSetup.service
    dsimp only
    split_ifs <;> rfl
  have htemplateMem : draft.template ∈ setup.templates := by
    rw [htemplates] at htemplate
    obtain ⟨t,ht,heq⟩ := List.mem_map.mp (OrdMap.mem_of_get_ofList htemplate)
    cases heq
    exact ht
  have hconnectionMem : draft.connection ∈ setup.connections := by
    rw [hconnections] at hconnection
    obtain ⟨c,hc,heq⟩ := List.mem_map.mp (OrdMap.mem_of_get_ofList hconnection)
    cases heq
    exact hc
  -- the network capability is not inherent, so its grant is one of the instance
  rw [findGrant_mergeInherent] at hallows
  simp only [CapabilityId.isInherent, CapabilityId.definition] at hallows
  cases hgrant : findGrant setup.grants.caps .networkHttps with
  | none =>
    rw [hgrant] at hallows
    exact absurd hallows (Authority.not_allows_none _)
  | some grant =>
    have hmem : grant ∈ setup.grants.caps := List.mem_of_find?_eq_some hgrant
    have hcapability : grant.capability = .networkHttps := by
      simpa using List.find?_some hgrant
    rw [hgrant] at hallows
    have hpermits := (Authority.allows_some_iff _ _).mp hallows
    rw [hparams] at hpermits
    obtain ⟨hdeclared,hnodup⟩ := checkQuery_eq_ok hquery
    refine ⟨_,htemplateMem,_,hconnectionMem,grant,hmem,?_,?_,?_,?_,hcapability,?_⟩
    · rw [hrequest, happend]
      refine ⟨url,hurl,laws.site_appendPairs _ _,_,laws.queryPairs_appendPairs _ _,?_,?_,?_⟩
      · intro p hp
        obtain ⟨q,hq,rfl⟩ := List.mem_map.mp hp
        exact (hdeclared q hq).1
      · rw [List.map_map]
        exact hnodup
      · intro p hp
        obtain ⟨q,hq,rfl⟩ := List.mem_map.mp hp
        exact (hdeclared q hq).2.2
    · rw [hrequest]
      exact ⟨vault,hvault,secret,hsecret,hvalue⟩
    · rw [hrequest]
    · rw [htimeout]
    · rw [hrequest, htimeout]
      cases hgrantParams : grant.params with
      | none => simp [hgrantParams, Authority.Permits] at hpermits
      | some params =>
        cases params with
        | network origins maxRequests maxBytes maxTimeout =>
          simp only [hgrantParams, Authority.Permits] at hpermits
          obtain ⟨horigins,-,hbytes,htime⟩ := hpermits
          exact ⟨origins,maxRequests,maxBytes,maxTimeout,rfl,by simpa using horigins,hbytes,
            Nat.mul_le_mul_right _ htime⟩
        | storage keys maxBytes => simp [hgrantParams, Authority.Permits] at hpermits
        | timer maxPerMinute maxActive => simp [hgrantParams, Authority.Permits] at hpermits
        | metrics sampleRateHz => simp [hgrantParams, Authority.Permits] at hpermits

theorem Confined.mono {vaults vaults' : List CredentialVault} {setup : HttpsSetup}
    {request : HttpTransportRequest υ} {timeout : ℕ} (hsub : vaults ⊆ vaults')
    (h : Confined lib site queryPairs vaults setup request timeout) :
    Confined lib site queryPairs vaults' setup request timeout := by
  obtain ⟨template,htemplate,connection,hconnection,grant,hgrant,hconfined⟩ := h
  obtain ⟨vault,hvault,hsecret⟩ := hconfined.credential
  exact ⟨template,htemplate,connection,hconnection,grant,hgrant,hconfined.place,
    ⟨vault,hsub hvault,hsecret⟩,hconfined.size,hconfined.time,hconfined.granted⟩

/-- The jobs of an instance have ids that were drawn, and a job with HTTPS work has the deadline
that was set for this work. -/
structure Drawn (tasks : OrdMap ℕ (HttpTask υ)) (state : Registry ResultType OperationValue) :
    Prop where
  jobs : ∀ job ∈ state.carried, job.id < state.nextId
  works : ∀ id task, tasks.get id = some task → id < state.nextId
  deadlines : ∀ id task, tasks.get id = some task → ∀ job ∈ state.carried, job.id = id →
    job.deadline = task.submitted + task.timeout

/-- The work under every id comes from the work that was there before. -/
def Follows (tasks tasks' : OrdMap ℕ (HttpTask υ)) : Prop :=
  ∀ id task', tasks'.get id = some task' → ∃ task, tasks.get id = some task ∧
    task'.work = task.work ∧ task'.timeout = task.timeout ∧ task'.submitted = task.submitted

theorem Follows.refl (tasks : OrdMap ℕ (HttpTask υ)) : Follows tasks tasks :=
  fun _ task h => ⟨task,h,rfl,rfl,rfl⟩

theorem follows_erase (tasks : OrdMap ℕ (HttpTask υ)) (k : ℕ) :
    Follows tasks (tasks.erase k) := by
  intro id task h
  rw [OrdMap.get_erase] at h
  split_ifs at h
  exact ⟨task,h,rfl,rfl,rfl⟩

theorem follows_insert {tasks : OrdMap ℕ (HttpTask υ)} {k : ℕ} {task : HttpTask υ}
    (h : tasks.get k = some task) (phase : AttemptPhase) :
    Follows tasks (tasks.insert k { task with phase := phase }) := by
  intro id task' hget
  rw [OrdMap.get_insert] at hget
  split_ifs at hget with hid
  · cases hget
    subst hid
    exact ⟨task,h,rfl,rfl,rfl⟩
  · exact ⟨task',hget,rfl,rfl,rfl⟩

theorem Drawn.kept {tasks tasks' : OrdMap ℕ (HttpTask υ)}
    {state state' : Registry ResultType OperationValue} (h : Drawn tasks state)
    (hjobs : JobsKept state state') (hfollows : Follows tasks tasks') : Drawn tasks' state' where
  jobs := by
    intro job hjob
    have hle := hjobs.nextId
    rcases hjobs.jobs job hjob with hold | ⟨-,hlt⟩
    · have hlt := h.jobs job hold
      omega
    · exact hlt
  works := by
    intro id task' hget
    obtain ⟨task,htask,-⟩ := hfollows id task' hget
    exact (h.works id task htask).trans_le hjobs.nextId
  deadlines := by
    intro id task' hget job hjob hid
    obtain ⟨task,htask,-,htimeout,hsubmitted⟩ := hfollows id task' hget
    have hlt := h.works id task htask
    rw [htimeout, hsubmitted]
    rcases hjobs.jobs job hjob with hold | ⟨hle,-⟩
    · exact h.deadlines id task htask job hold hid
    · omega

/-- The work of an accepted submission. -/
theorem Drawn.submit {tasks : OrdMap ℕ (HttpTask υ)}
    {state state' : Registry ResultType OperationValue} {limits : OperationLimits}
    {c : CapabilityId} {timeout id window : ℕ} {work : HttpWork υ} (h : Drawn tasks state)
    (hsubmit : state.submit limits c timeout = (.ok id,state')) :
    Drawn (tasks.insert id ⟨work,.fresh,timeout,state.now,window⟩) state' := by
  obtain ⟨rfl,-,hlt,hcarried⟩ := Registry.submit_ok hsubmit
  refine ⟨?_,?_,?_⟩
  · intro job hjob
    rcases hcarried job hjob with hold | rfl
    · exact (h.jobs job hold).trans hlt
    · exact hlt
  · intro i task hget
    rw [OrdMap.get_insert] at hget
    split_ifs at hget with hi
    · rw [hi]
      exact hlt
    · exact (h.works i task hget).trans hlt
  · intro i task hget job hjob hid
    rw [OrdMap.get_insert] at hget
    split_ifs at hget with hi
    · cases hget
      rcases hcarried job hjob with hold | rfl
      · have hless := h.jobs job hold
        omega
      · rfl
    · have hless := h.works i task hget
      rcases hcarried job hjob with hold | rfl
      · exact h.deadlines i task hget job hold hid
      · exact absurd hid.symm hi

namespace HttpsHost

variable (lib site queryPairs) in
/-- All work and all requests handed to the transport are confined. -/
structure Sound (setup : HttpsSetup) (s : HttpsHost υ) : Prop where
  grants : s.broker.grants.caps = mergeInherent setup.grants.caps
  https : s.broker.https = some setup.service
  drawn : ∀ operations, s.broker.operations = some operations → Drawn s.tasks operations.state
  tasks : ∀ id task, s.tasks.get id = some task →
    Confined lib site queryPairs s.vaults setup task.work.request task.timeout
  handed : ∀ r ∈ s.handed,
    Confined lib site queryPairs s.vaults setup r.request (r.deadline - r.submitted)

/-- A step that adds no work. -/
theorem Sound.kept {setup : HttpsSetup} {s s' : HttpsHost υ}
    (h : s.Sound lib site queryPairs setup) (hbroker : s.broker.Kept s'.broker)
    (htasks : Follows s.tasks s'.tasks) (hvaults : s.vaults ⊆ s'.vaults)
    (hhanded : ∀ r ∈ s'.handed, r ∈ s.handed ∨
      Confined lib site queryPairs s'.vaults setup r.request (r.deadline - r.submitted)) :
    s'.Sound lib site queryPairs setup where
  grants := by rw [hbroker.grants, h.grants]
  https := by rw [hbroker.https, h.https]
  drawn := by
    intro operations' hoperations'
    obtain ⟨operations,hoperations,-,-,hjobs⟩ := hbroker.operations operations' hoperations'
    exact (h.drawn operations hoperations).kept hjobs htasks
  tasks := by
    intro id task' hget
    obtain ⟨task,htask,hwork,htimeout,-⟩ := htasks id task' hget
    rw [hwork, htimeout]
    exact (h.tasks id task htask).mono hvaults
  handed := by
    intro r hr
    rcases hhanded r hr with hold | hnew
    · exact (h.handed r hold).mono hvaults
    · exact hnew

theorem sound_guest (laws : UrlLaws lib site queryPairs) {setup : HttpsSetup} {s : HttpsHost υ}
    (h : s.Sound lib site queryPairs setup) (w : Surroundings) (call : BrokerCall) :
    (s.guest lib w call).Sound lib site queryPairs setup := by
  rcases s.guest_cases lib w call with
    ⟨prepared,templateId,connectionId,query,https,id,operations,state,-,hhttps,hprepared,hallows,-,
      hoperations,hsubmit,hguest⟩ | hguest
  · rw [h.https] at hhttps
    cases hhttps
    rw [hguest]
    have hconfined : Confined lib site queryPairs (w.vault :: s.vaults) setup
        prepared.work.request prepared.timeout := by
      apply confined_of_prepared laws hprepared _ List.mem_cons_self
      have hcaps := h.grants
      unfold Broker.Allows at hallows
      rw [hcaps] at hallows
      exact hallows
    refine ⟨h.grants,h.https,?_,?_,?_⟩
    · rintro operations' ⟨⟩
      exact (h.drawn operations hoperations).submit hsubmit
    · intro i task hget
      rw [OrdMap.get_insert] at hget
      split_ifs at hget
      · cases hget
        exact hconfined
      · exact (h.tasks i task hget).mono (List.subset_cons_self _ _)
    · exact fun r hr => (h.handed r hr).mono (List.subset_cons_self _ _)
  · rw [hguest]
    exact h.kept (Broker.kept_call lib w s.broker call) (Follows.refl _)
      (List.subset_cons_self _ _) (fun _ => .inl)

theorem sound_advance {setup : HttpsSetup} {s s' : HttpsHost υ} {n : ℕ}
    {answer : Except HttpServiceError HttpResponse} (h : s.Sound lib site queryPairs setup)
    (hstep : s.advance n answer = some s') : s'.Sound lib site queryPairs setup := by
  obtain ⟨operations,job,task,hpolled,⟨attempt,rfl,-⟩ | ⟨hhanded,-,hvaults,hkept,htasks⟩⟩ :=
    advance_cases hstep
  · obtain ⟨hoperations,hjob,htask⟩ := polled_eq_some hpolled
    have hdeadline := (h.drawn operations hoperations).deadlines job.id task htask job hjob rfl
    refine h.kept (.refl _) (follows_insert htask _) (List.Subset.refl _) ?_
    intro r hr
    rcases List.mem_cons.mp hr with rfl | hr
    · right
      have htime : job.deadline - task.submitted = task.timeout := by omega
      simp only [htime]
      exact h.tasks job.id task htask
    · exact .inl hr
  · obtain ⟨-,-,htask⟩ := polled_eq_some hpolled
    refine h.kept hkept ?_ (by rw [hvaults]; exact List.Subset.refl _) ?_
    · obtain heq | ⟨last,wake,heq⟩ := htasks
      · rw [heq]
        exact follows_erase _ _
      · rw [heq]
        exact follows_insert htask _
    · rw [hhanded]
      exact fun _ => .inl

theorem sound_step (laws : UrlLaws lib site queryPairs) {setup : HttpsSetup} {s s' : HttpsHost υ}
    {i : HttpsLabel} (h : s.Sound lib site queryPairs setup) (hstep : s.step lib i = some s') :
    s'.Sound lib site queryPairs setup := by
  have hkept := kept_step hstep
  cases i with
  | guest w call =>
    cases hstep
    exact sound_guest laws h w call
  | timerCompleted id =>
    cases hstep
    exact h.kept hkept (Follows.refl _) (List.Subset.refl _) (fun _ => .inl)
  | registry label =>
    simp only [step] at hstep
    split_ifs at hstep
    cases hstep
    exact h.kept hkept (Follows.refl _) (List.Subset.refl _) (fun _ => .inl)
  | advance n answer => exact sound_advance h hstep

theorem sound_new {setup : HttpsSetup} {broker : Broker} {now counter : ℕ}
    {operations : OperationRegistry}
    (hregistry : Registry.new operations.limits now counter = .ok operations.state)
    (hbroker : setup.broker now operations = .ok broker) :
    (HttpsHost.new broker : HttpsHost υ).Sound lib site queryPairs setup := by
  obtain ⟨hcaps,hhttps,hoperations,-⟩ := HttpsSetup.broker_eq_ok hbroker
  obtain ⟨limits,-,hstate⟩ := bind_eq_ok.mp hregistry
  have hcarried : operations.state.carried = [] := by
    injection hstate with hstate
    rw [← hstate]
    rfl
  refine ⟨hcaps,hhttps,?_,?_,?_⟩
  · intro operations' hoperations'
    obtain rfl := Option.some.inj (hoperations.symm.trans hoperations')
    refine ⟨?_,?_,?_⟩
    · simp [hcarried]
    · intro id task hget
      cases hget
    · intro id task hget
      cases hget
  · intro id task hget
    cases hget
  · exact fun r hr => absurd hr List.not_mem_nil

/-- In every run, every request that is handed to the transport is confined. -/
theorem requests_confined (laws : UrlLaws lib site queryPairs) {setup : HttpsSetup}
    {s : HttpsHost υ} (h : (httpsSystem lib setup).Reachable s) :
    ∀ r ∈ s.handed,
      Confined lib site queryPairs s.vaults setup r.request (r.deadline - r.submitted) := by
  have hsound : s.Sound lib site queryPairs setup := by
    apply h.invariant (Sound lib site queryPairs setup)
    · rintro s ⟨now,owner,limits,counter,state,broker,-,hregistry,hbroker,rfl⟩
      exact sound_new hregistry hbroker
    · exact fun _ _ _ hsound _ hstep => sound_step laws hsound hstep
  exact hsound.handed

end HttpsHost

/-- A URL as its place and the pairs of its query. -/
structure TextUrl where
  site : Site
  pairs : List (String × String)

def textPair (text : String) : String × String :=
  (String.ofList (text.toList.takeWhile (fun c => c ≠ '=')),
    String.ofList ((text.toList.dropWhile (fun c => c ≠ '=')).drop 1))

def parseTextUrl (url : String) : Option TextUrl := do
  let rest ← Text.stripPrefix url "https://"
  let place := rest.toList.takeWhile (fun c => c ≠ '?')
  let query := (rest.toList.dropWhile (fun c => c ≠ '?')).drop 1
  some {
    site := ⟨"https",String.ofList (place.takeWhile (fun c => c ≠ '/')),none,
      String.ofList (place.dropWhile (fun c => c ≠ '/'))⟩
    pairs := if query.isEmpty then []
      else (Text.splitChar (String.ofList query) '&').map textPair }

def TextUrl.origin (url : TextUrl) : String := url.site.scheme ++ "://" ++ url.site.host

def textUrls : HttpLibrary TextUrl where
  parse := parseTextUrl
  appendPairs url pairs := { url with pairs := url.pairs ++ pairs }
  origin := TextUrl.origin
  serialize url := url.origin ++ url.site.path ++ "?" ++
    String.intercalate "&" (url.pairs.map (fun p => p.1 ++ "=" ++ p.2))
  headerName := some
  headerValue := some

theorem textUrls_laws : UrlLaws textUrls TextUrl.site TextUrl.pairs :=
  ⟨fun _ _ => rfl,fun _ _ => rfl⟩

/-- An instance with one template for this URL. -/
def balanceSetup (url : String) (maxRetries : ℕ) : HttpsSetup where
  plugin := ⟨"dev.floatile.clock"⟩
  generation := 0
  grants := ⟨⟨7⟩,[⟨.networkHttps,some (.network ["https://api.example.com"] 1 4096 2000),
    .derivedFromInstall⟩]⟩
  audit := ⟨"dev.floatile.clock",7⟩
  templates := [{ balanceTemplate with url := url, maxRetries := maxRetries }]
  connections := [balanceConnection]
  listener := false

def balanceStart (url : String) (maxRetries : ℕ) : Option (HttpsHost TextUrl) := do
  let state ← (Registry.new OperationLimits.default 0 1).toOption
  let broker ← ((balanceSetup url maxRetries).broker 0
    ⟨⟨"dev.floatile.clock",7,0⟩,OperationLimits.default,state⟩).toOption
  some (HttpsHost.new broker)

theorem init_balanceStart {url : String} {maxRetries : ℕ} {s : HttpsHost TextUrl}
    (h : balanceStart url maxRetries = some s) :
    (httpsSystem textUrls (balanceSetup url maxRetries)).init s := by
  unfold balanceStart at h
  simp only [Option.bind_eq_bind, Option.bind_eq_some_iff, Option.some.injEq] at h
  obtain ⟨state,hstate,broker,hbroker,rfl⟩ := h
  exact ⟨0,_,_,1,state,broker,Nat.one_pos,toOption_eq_some.mp hstate,
    toOption_eq_some.mp hbroker,rfl⟩

/-- The instance after it was made and has taken these steps. -/
def balanceRun (url : String) (maxRetries : ℕ) (labels : List HttpsLabel) :
    Option (HttpsHost TextUrl) :=
  (balanceStart url maxRetries).bind (fun s => labels.foldlM (HttpsHost.step textUrls) s)

theorem reachable_balanceRun {url : String} {maxRetries : ℕ} {labels : List HttpsLabel}
    {s : HttpsHost TextUrl} (h : balanceRun url maxRetries labels = some s) :
    (httpsSystem textUrls (balanceSetup url maxRetries)).Reachable s := by
  obtain ⟨start,hstart,hrun⟩ := Option.bind_eq_some_iff.mp h
  exact System.reachable_foldlM (.of_init (init_balanceStart hstart)) hrun

/-- One submission, up to the first call of the transport. -/
def submitBalance : List HttpsLabel :=
  [.guest balanceSurroundings (.submitHttps "balance" ⟨1⟩ [⟨"account","7"⟩]),
    .registry .acquirePermit,.registry .receiveJob,.registry (.run 0 none),
    .advance 0 (.error .unavailable)]

def balanceUrl : String := "https://api.example.com/v1/balance"

theorem balance_request_confined :
    ∃ s, balanceRun balanceUrl 0 submitBalance = some s ∧ s.handed.length = 1 ∧
      ∀ r ∈ s.handed, Confined textUrls TextUrl.site TextUrl.pairs s.vaults
        (balanceSetup balanceUrl 0) r.request (r.deadline - r.submitted) := by
  obtain ⟨s,hs⟩ : ∃ s, balanceRun balanceUrl 0 submitBalance = some s :=
    Option.isSome_iff_exists.mp (by rfl)
  have hlength : (balanceRun balanceUrl 0 submitBalance).map (fun s => s.handed.length) =
      some 1 := by rfl
  rw [hs, Option.map_some, Option.some.injEq] at hlength
  exact ⟨s,hs,hlength,HttpsHost.requests_confined textUrls_laws (reachable_balanceRun hs)⟩

/-- A template whose URL has a query of its own. -/
def formatUrl : String := "https://api.example.com/v1/balance?format=json"

theorem template_query_undeclared :
    (validateHttpTemplate (some ⟨["https://api.example.com"],4096,2000⟩) []
      { balanceTemplate with url := formatUrl } = .ok ["balance"]) ∧
    ¬∀ s, (httpsSystem textUrls (balanceSetup formatUrl 0)).Reachable s →
      ∀ r ∈ s.handed, ∃ template ∈ (balanceSetup formatUrl 0).templates,
        ∀ p ∈ r.request.url.pairs, p.1 ∈ template.queryParams := by
  refine ⟨by rfl,fun hdeclared => ?_⟩
  obtain ⟨s,hs⟩ : ∃ s, balanceRun formatUrl 0 submitBalance = some s :=
    Option.isSome_iff_exists.mp (by rfl)
  have hpairs : (balanceRun formatUrl 0 submitBalance).map
      (fun s => s.handed.map (fun r => r.request.url.pairs)) =
        some [[("format","json"),("account","7")]] := by rfl
  rw [hs, Option.map_some, Option.some.injEq] at hpairs
  obtain ⟨r,hr,hrequest⟩ : ∃ r ∈ s.handed, r.request.url.pairs =
      [("format","json"),("account","7")] := by
    rw [← List.mem_map, hpairs]
    exact List.mem_singleton_self _
  obtain ⟨template,htemplate,hnames⟩ := hdeclared s (reachable_balanceRun hs) r hr
  obtain rfl := List.mem_singleton.mp htemplate
  have hformat := hnames ("format","json") (by rw [hrequest]; exact List.mem_cons_self)
  exact absurd hformat (by decide)

end Floatile.Services
