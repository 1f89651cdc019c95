import Floatile.Services.HttpCache

/-! Runs of one service for HTTPS. Whatever the order of the operations and whatever the transport
answers, a response that is returned is the transport's own or a cached one of the same request
that is not too old. -/
namespace Floatile.Services

open Floatile.Core Floatile.Core.Operation
open Floatile.Lib Floatile.Lib.Transition
open Floatile.Services.Operation

/-- What an operation was prepared from, and its work. -/
structure PreparedCall (υ : Type) where
  templateId : String
  connectionId : ConnectionId
  query : List QueryParam
  work : HttpWork υ

/-- A prepared operation. The answers of the transport and the number of its calls only record
what has happened. -/
structure HttpOperation (υ : Type) where
  call : PreparedCall υ
  phase : AttemptPhase
  answers : List (Except HttpServiceError HttpResponse)
  calls : ℕ

structure EndedOperation (υ : Type) where
  operation : HttpOperation υ
  result : Except OperationFailure HttpResponse
  endedAt : ℕ

/-- The cache of a service, the operations under way and those that have returned. -/
structure HttpsSession (υ : Type) where
  cache : HttpCache
  now : ℕ
  running : List (HttpOperation υ)
  ended : List (EndedOperation υ)

/-- An operation is prepared, goes on from its wait, is dropped; time passes. -/
inductive SessionAction where
  | prepare (vault : CredentialVault) (templateId : String) (connectionId : ConnectionId)
      (query : List QueryParam)
  | resume (n : ℕ) (answer : Except HttpServiceError HttpResponse)
  | drop (n : ℕ)
  | elapse (n : ℕ)

variable {υ : Type}

/-- The operation hears an answer if it is waiting for one. -/
def HttpOperation.hear (op : HttpOperation υ) (answer : Except HttpServiceError HttpResponse) :
    HttpOperation υ :=
  match op.phase with
  | .executing _ => { op with answers := op.answers ++ [answer] }
  | .fresh | .sleeping _ _ => op

namespace HttpsSession

def empty : HttpsSession υ := ⟨[],0,[],[]⟩

/-- The operation at a position has come to its next wait, or to its end. -/
def follow (s : HttpsSession υ) (n : ℕ) (op : HttpOperation υ) : WorkStep × HttpCache →
    HttpsSession υ
  | (.returned result _,cache) => { s with
      cache := cache
      running := s.running.eraseIdx n
      ended := ⟨op,result,s.now⟩ :: s.ended }
  | (.calls attempt,cache) => { s with
      cache := cache
      running := s.running.set n { op with phase := .executing attempt, calls := op.calls + 1 } }
  | (.waits attempt wake,cache) => { s with
      cache := cache
      running := s.running.set n { op with phase := .sleeping attempt wake } }

def resume (s : HttpsSession υ) (n : ℕ) (answer : Except HttpServiceError HttpResponse) :
    HttpsSession υ :=
  match s.running[n]? with
  | none => s
  | some op =>
    match op.call.work.resume s.cache s.now answer op.phase with
    | none => s
    | some out => s.follow n (op.hear answer) out

variable (lib : HttpLibrary υ) (service : HttpsService)

def next (s : HttpsSession υ) : SessionAction → HttpsSession υ
  | .prepare vault templateId connectionId query =>
    match (service.prepare lib vault templateId connectionId query).result with
    | .error _ => s
    | .ok prepared => { s with
        running := s.running ++ [⟨⟨templateId,connectionId,query,prepared.work⟩,.fresh,[],0⟩] }
  | .resume n answer => s.resume n answer
  | .drop n => { s with running := s.running.eraseIdx n }
  | .elapse n => { s with now := s.now + n }

/-- The session after a sequence of actions. -/
def after (actions : List SessionAction) : HttpsSession υ :=
  actions.foldl (next lib service) empty

end HttpsSession

/-- Calls and answers of an operation under way: each answer so far was a passing failure. -/
structure HttpOperation.Sane (op : HttpOperation υ) : Prop where
  retried : ∀ answer ∈ op.answers, answer = .error .unavailable
  counted : match op.phase with
    | .fresh => op.calls = 0 ∧ op.answers = []
    | .executing attempt => op.calls = attempt + 1 ∧ op.answers.length = attempt ∧
        attempt ≤ op.call.work.maxRetries
    | .sleeping attempt _ => op.calls = attempt + 1 ∧ op.answers.length = attempt + 1 ∧
        attempt < op.call.work.maxRetries

/-- An operation with the same key got this response from the transport when it ended. -/
def EndedOperation.Supplies (e : EndedOperation υ) (key : CacheKey) (response : HttpResponse) :
    Prop :=
  e.operation.call.work.cacheKey = key ∧ ∃ earlier, e.operation.answers = earlier ++ [.ok response]

/-- Where a response that is returned comes from. -/
inductive Served (ended : List (EndedOperation υ)) (e : EndedOperation υ)
    (response : HttpResponse) : Prop where
  /-- The transport's answer to the last attempt of the operation. -/
  | own (earlier : List (Except HttpServiceError HttpResponse))
      (answers : e.operation.answers = earlier ++ [.ok response])
  /-- A cached response before any attempt. -/
  | fresh (stored : EndedOperation υ) (mem : stored ∈ ended)
      (supplies : stored.Supplies e.operation.call.work.cacheKey response)
      (age : e.endedAt - stored.endedAt ≤ e.operation.call.work.cacheTtl)
      (before : stored.endedAt ≤ e.endedAt)
      (untried : e.operation.answers = [])
  /-- A stale response after attempts that have all failed. -/
  | stale (stored : EndedOperation υ) (mem : stored ∈ ended)
      (supplies : stored.Supplies e.operation.call.work.cacheKey response)
      (age : e.endedAt - stored.endedAt ≤
        e.operation.call.work.cacheTtl + e.operation.call.work.staleIfError)
      (before : stored.endedAt ≤ e.endedAt)
      (tried : e.operation.answers ≠ [])
      (failed : ∀ answer ∈ e.operation.answers, ∃ error, answer = .error error)

/-- What has happened by the time an operation returns. -/
structure EndedOperation.Sane (ended : List (EndedOperation υ)) (e : EndedOperation υ) : Prop where
  calls : e.operation.calls = e.operation.answers.length
  bounded : e.operation.calls ≤ e.operation.call.work.maxRetries + 1
  /-- Only a passing failure is followed by another attempt. -/
  retried : ∀ earlier last, e.operation.answers = earlier ++ [last] →
    ∀ answer ∈ earlier, answer = .error .unavailable
  served : ∀ response, e.result = .ok response → Served ended e response

theorem Served.mono {ended ended' : List (EndedOperation υ)} {e : EndedOperation υ}
    {response : HttpResponse} (h : Served ended e response) (hsub : ended ⊆ ended') :
    Served ended' e response := by
  cases h with
  | own earlier answers => exact .own earlier answers
  | fresh stored mem supplies age before untried =>
    exact .fresh stored (hsub mem) supplies age before untried
  | stale stored mem supplies age before tried failed =>
    exact .stale stored (hsub mem) supplies age before tried failed

namespace HttpsSession

/-- The invariant of a session: what is cached was supplied by an operation that has ended. -/
structure Sound (s : HttpsSession υ) : Prop where
  running : ∀ op ∈ s.running, op.Sane
  ended : ∀ e ∈ s.ended, e.Sane s.ended
  past : ∀ e ∈ s.ended, e.endedAt ≤ s.now
  cached : ∀ entry ∈ s.cache, ∃ e ∈ s.ended, e.Supplies entry.1 entry.2.response ∧
    e.endedAt = entry.2.storedAt

variable {s : HttpsSession υ} {n : ℕ} {op : HttpOperation υ}

theorem Sound.set (h : s.Sound) (hop : op.Sane) :
    Sound { s with running := s.running.set n op } := by
  refine ⟨?_,h.ended,h.past,h.cached⟩
  intro other hother
  rcases List.mem_or_eq_of_mem_set hother with hold | rfl
  · exact h.running other hold
  · exact hop

/-- An operation ends; what it adds to the cache it got from the transport. -/
theorem Sound.finish (h : s.Sound) {result : Except OperationFailure HttpResponse}
    {told : Option ConnectionHealth} {cache : HttpCache} (hsane : EndedOperation.Sane s.ended ⟨op,result,s.now⟩)
    (hcache : ∀ entry ∈ cache, entry ∈ s.cache ∨ (entry.2.storedAt = s.now ∧
      EndedOperation.Supplies ⟨op,result,s.now⟩ entry.1 entry.2.response)) :
    Sound (s.follow n op (.returned result told,cache)) := by
  have hsub : s.ended ⊆ ⟨op,result,s.now⟩ :: s.ended := List.subset_cons_self _ _
  refine ⟨?_,?_,?_,?_⟩
  · intro other hother
    exact h.running other (List.mem_of_mem_eraseIdx hother)
  · intro e he
    have hold : e.Sane s.ended := by
      rcases List.mem_cons.mp he with rfl | hrest
      · exact hsane
      · exact h.ended e hrest
    exact ⟨hold.calls,hold.bounded,hold.retried,fun response hresult =>
      (hold.served response hresult).mono hsub⟩
  · intro e he
    rcases List.mem_cons.mp he with rfl | hrest
    · exact le_refl _
    · exact h.past e hrest
  · intro entry hentry
    rcases hcache entry hentry with hold | ⟨hat,hsupplies⟩
    · obtain ⟨e,he,hsupplies,hat⟩ := h.cached entry hold
      exact ⟨e,hsub he,hsupplies,hat⟩
    · exact ⟨⟨op,result,s.now⟩,List.mem_cons_self,hsupplies,hat.symm⟩

/-- A hit in the cache was supplied by an operation with this key, at most so long ago. -/
theorem Sound.hit (h : s.Sound) {key : CacheKey} {maxAge : ℕ} {response : HttpResponse}
    (hhit : s.cache.hit key s.now maxAge = some response) :
    ∃ stored ∈ s.ended, stored.Supplies key response ∧ s.now - stored.endedAt ≤ maxAge ∧
      stored.endedAt ≤ s.now := by
  obtain ⟨cached,hmem,rfl,hage⟩ := HttpCache.hit_eq_some hhit
  obtain ⟨stored,hstored,hsupplies,hat⟩ := h.cached _ hmem
  rw [← hat] at hage
  exact ⟨stored,hstored,hsupplies,hage,h.past stored hstored⟩

theorem retryable_eq_true {error : HttpServiceError} (h : retryable error = true) :
    error = .unavailable := by
  cases error <;> first | rfl | cases h

/-- The end of an operation that was waiting for an answer. -/
theorem sane_of_answered (hop : op.Sane) {attempt now : ℕ} (hphase : op.phase = .executing attempt)
    {answer : Except HttpServiceError HttpResponse}
    {result : Except OperationFailure HttpResponse} {ended : List (EndedOperation υ)}
    (hserved : ∀ response, result = .ok response →
      Served ended ⟨{ op with answers := op.answers ++ [answer] },result,now⟩ response) :
    EndedOperation.Sane ended ⟨{ op with answers := op.answers ++ [answer] },result,now⟩ := by
  have hcounted := hop.counted
  rw [hphase] at hcounted
  obtain ⟨hcalls,hlength,hmax⟩ := hcounted
  refine ⟨?_,?_,?_,hserved⟩
  · simp only [List.length_append, List.length_singleton]
    omega
  · show op.calls ≤ op.call.work.maxRetries + 1
    omega
  · intro earlier last heq
    obtain ⟨rfl,-⟩ := List.append_inj' heq rfl
    exact hop.retried

/-- A response from the cache before any attempt. -/
theorem sane_of_fresh (h : s.Sound) (hop : op.Sane) (hphase : op.phase = .fresh)
    {response : HttpResponse}
    (hhit : s.cache.hit op.call.work.cacheKey s.now op.call.work.cacheTtl = some response) :
    EndedOperation.Sane s.ended ⟨op,.ok response,s.now⟩ := by
  have hcounted := hop.counted
  rw [hphase] at hcounted
  obtain ⟨hcalls,hanswers⟩ := hcounted
  obtain ⟨stored,hmem,hsupplies,hage,hbefore⟩ := h.hit hhit
  refine ⟨?_,?_,?_,?_⟩
  · rw [hcalls,hanswers]
    rfl
  · rw [hcalls]
    exact Nat.zero_le _
  · intro earlier last heq
    rw [hanswers] at heq
    exact absurd heq.symm (List.append_ne_nil_of_right_ne_nil _ (List.cons_ne_nil _ _))
  · intro found hfound
    cases hfound
    exact .fresh stored hmem hsupplies hage hbefore hanswers

/-- What the work does with an answer. -/
theorem Sound.answered (h : s.Sound) (hop : op.Sane) {attempt : ℕ}
    (hphase : op.phase = .executing attempt)
    (answer : Except HttpServiceError HttpResponse) :
    (s.follow n { op with answers := op.answers ++ [answer] }
      (op.call.work.answered s.cache s.now attempt answer)).Sound := by
  cases answer with
  | ok response =>
    apply h.finish
    · apply sane_of_answered hop hphase
      intro found hfound
      cases hfound
      exact .own op.answers rfl
    · intro entry hentry
      split_ifs at hentry
      · rcases HttpCache.mem_store hentry with rfl | hold
        · exact Or.inr ⟨rfl,rfl,op.answers,rfl⟩
        · exact Or.inl hold
      · exact Or.inl hentry
  | error error =>
    have hcounted := hop.counted
    rw [hphase] at hcounted
    obtain ⟨hcalls,hlength,hmax⟩ := hcounted
    simp only [HttpWork.answered]
    split_ifs with hretry hnone
    · -- a passing failure with attempts left
      apply h.set
      refine ⟨?_,?_⟩
      · intro found hfound
        rcases List.mem_append.mp hfound with hold | hnew
        · exact hop.retried found hold
        · obtain rfl := List.mem_singleton.mp hnew
          rw [retryable_eq_true hretry.2]
      · simp only [List.length_append, List.length_singleton]
        exact ⟨hcalls,by omega,hretry.1⟩
    · apply h.finish
      · apply sane_of_answered hop hphase
        intro found hfound
        cases hfound
      · exact fun entry hentry => Or.inl hentry
    · cases hhit : s.cache.hit op.call.work.cacheKey s.now
          (op.call.work.cacheTtl + op.call.work.staleIfError) with
      | none =>
        apply h.finish
        · apply sane_of_answered hop hphase
          intro found hfound
          cases hfound
        · exact fun entry hentry => Or.inl hentry
      | some response =>
        obtain ⟨stored,hmem,hsupplies,hage,hbefore⟩ := h.hit hhit
        apply h.finish
        · apply sane_of_answered hop hphase
          intro found hfound
          cases hfound
          refine .stale stored hmem hsupplies hage hbefore (by simp) ?_
          intro found hfound
          rcases List.mem_append.mp hfound with hold | hnew
          · exact ⟨_,hop.retried found hold⟩
          · exact ⟨error,List.mem_singleton.mp hnew⟩
        · exact fun entry hentry => Or.inl hentry

theorem Sound.resume (h : s.Sound) (n : ℕ) (answer : Except HttpServiceError HttpResponse) :
    (s.resume n answer).Sound := by
  unfold HttpsSession.resume
  cases hget : s.running[n]? with
  | none => exact h
  | some op =>
    have hop := h.running op (List.mem_of_getElem? hget)
    have hcounted := hop.counted
    simp only
    cases hphase : op.phase with
    | fresh =>
      have hhear : op.hear answer = op := by simp only [HttpOperation.hear, hphase]
      rw [hphase] at hcounted
      simp only [HttpWork.resume, hhear]
      split_ifs with hnone
      · apply h.set
        exact ⟨hop.retried,by simp [hcounted.1, hcounted.2]⟩
      · cases hhit : s.cache.hit op.call.work.cacheKey s.now op.call.work.cacheTtl with
        | none =>
          apply h.set
          exact ⟨hop.retried,by simp [hcounted.1, hcounted.2]⟩
        | some response =>
          apply h.finish
          · exact sane_of_fresh h hop hphase hhit
          · exact fun entry hentry => Or.inl hentry
    | executing attempt =>
      have hhear : op.hear answer = { op with answers := op.answers ++ [answer] } := by
        simp only [HttpOperation.hear, hphase]
      simp only [HttpWork.resume, hhear]
      exact h.answered hop hphase answer
    | sleeping last wake =>
      rw [hphase] at hcounted
      have hhear : op.hear answer = op := by simp only [HttpOperation.hear, hphase]
      obtain ⟨hcalls,hlength,hmax⟩ := hcounted
      simp only [HttpWork.resume, hhear]
      split_ifs
      · apply h.set
        refine ⟨hop.retried,?_⟩
        show op.calls + 1 = last + 1 + 1 ∧ op.answers.length = last + 1 ∧
          last + 1 ≤ op.call.work.maxRetries
        omega
      · exact h

/-- What holds of every prepared call holds of the operations of a session. -/
structure AllCalls (Q : PreparedCall υ → Prop) (s : HttpsSession υ) : Prop where
  running : ∀ op ∈ s.running, Q op.call
  ended : ∀ e ∈ s.ended, Q e.operation.call

variable {lib : HttpLibrary υ} {service : HttpsService} {Q : PreparedCall υ → Prop}

theorem call_hear (op : HttpOperation υ) (answer : Except HttpServiceError HttpResponse) :
    (op.hear answer).call = op.call := by
  unfold HttpOperation.hear
  split <;> rfl

theorem AllCalls.follow (h : AllCalls Q s) (hop : Q op.call) (out : WorkStep × HttpCache) :
    AllCalls Q (s.follow n op out) := by
  obtain ⟨step,cache⟩ := out
  have hset : ∀ op' : HttpOperation υ, Q op'.call → ∀ other ∈ s.running.set n op', Q other.call := by
    intro op' hop' other hother
    rcases List.mem_or_eq_of_mem_set hother with hold | rfl
    · exact h.running other hold
    · exact hop'
  cases step with
  | returned result told =>
    refine ⟨fun other hother => h.running other (List.mem_of_mem_eraseIdx hother),?_⟩
    intro e he
    rcases List.mem_cons.mp he with rfl | hold
    · exact hop
    · exact h.ended e hold
  | calls attempt => exact ⟨hset _ hop,h.ended⟩
  | waits attempt wake => exact ⟨hset _ hop,h.ended⟩

theorem AllCalls.next (h : AllCalls Q s) (hprepare : ∀ vault templateId connectionId query prepared,
      (service.prepare lib vault templateId connectionId query).result = .ok prepared →
        Q ⟨templateId,connectionId,query,prepared.work⟩) (action : SessionAction) :
    AllCalls Q (s.next lib service action) := by
  cases action with
  | prepare vault templateId connectionId query =>
    simp only [HttpsSession.next]
    cases hresult : (service.prepare lib vault templateId connectionId query).result with
    | error e => exact h
    | ok prepared =>
      refine ⟨?_,h.ended⟩
      intro op hop
      rcases List.mem_append.mp hop with hold | hnew
      · exact h.running op hold
      · obtain rfl := List.mem_singleton.mp hnew
        exact hprepare vault templateId connectionId query prepared hresult
  | resume n answer =>
    simp only [HttpsSession.next, HttpsSession.resume]
    cases hget : s.running[n]? with
    | none => exact h
    | some op =>
      simp only
      split
      · exact h
      · apply h.follow
        rw [call_hear]
        exact h.running op (List.mem_of_getElem? hget)
  | drop n => exact ⟨fun op hop => h.running op (List.mem_of_mem_eraseIdx hop),h.ended⟩
  | elapse n => exact ⟨h.running,h.ended⟩

theorem allCalls_after (hprepare : ∀ vault templateId connectionId query prepared,
      (service.prepare lib vault templateId connectionId query).result = .ok prepared →
        Q ⟨templateId,connectionId,query,prepared.work⟩) (actions : List SessionAction) :
    AllCalls Q (after lib service actions) := by
  unfold after
  have hgeneral : ∀ s : HttpsSession υ, AllCalls Q s →
      AllCalls Q (actions.foldl (HttpsSession.next lib service) s) := by
    induction actions with
    | nil => exact fun s h => h
    | cons action actions ih => exact fun s h => ih _ (h.next hprepare action)
  exact hgeneral empty ⟨fun op hop => by simp [empty] at hop,fun e he => by simp [empty] at he⟩

theorem Sound.next (h : s.Sound) (action : SessionAction) : (s.next lib service action).Sound := by
  cases action with
  | prepare vault templateId connectionId query =>
    simp only [HttpsSession.next]
    split
    · exact h
    · refine ⟨?_,h.ended,h.past,h.cached⟩
      intro op hop
      rcases List.mem_append.mp hop with hold | hnew
      · exact h.running op hold
      · obtain rfl := List.mem_singleton.mp hnew
        refine ⟨?_,rfl,rfl⟩
        intro answer hanswer
        cases hanswer
  | resume n answer => exact h.resume n answer
  | drop n =>
    exact ⟨fun op hop => h.running op (List.mem_of_mem_eraseIdx hop),h.ended,h.past,h.cached⟩
  | elapse n =>
    exact ⟨h.running,h.ended,fun e he => (h.past e he).trans (Nat.le_add_right _ _),h.cached⟩

theorem sound_after (actions : List SessionAction) : (after lib service actions).Sound := by
  unfold after
  have hgeneral : ∀ s : HttpsSession υ, s.Sound →
      (actions.foldl (HttpsSession.next lib service) s).Sound := by
    induction actions with
    | nil => exact fun s h => h
    | cons action actions ih => exact fun s h => ih _ (h.next action)
  apply hgeneral
  constructor <;> intro x hx <;> cases hx

end HttpsSession

/-- The cache key of a call is its template, connection, credential generation and URL, and its
limits are those of the template. -/
def PreparedCall.Keyed (lib : HttpLibrary υ) (service : HttpsService) (call : PreparedCall υ) :
    Prop :=
  ∃ draft, service.draft lib call.templateId call.connectionId call.query = .ok draft ∧
    call.work.cacheKey = ⟨call.templateId,call.connectionId,
      draft.connection.credentialGeneration,lib.serialize call.work.request.url⟩ ∧
    call.work.request.url = draft.url ∧
    call.work.cacheTtl = millis draft.template.cacheTtlMs ∧
    call.work.staleIfError = millis draft.template.staleIfErrorMs ∧
    call.work.maxRetries = draft.template.maxRetries

theorem HttpsService.template_of_new {templates : List HttpTemplateDecl}
    {connections : List Connection} {templateId : String} {template : HttpTemplateDecl}
    (h : (HttpsService.new templates connections).templates.get templateId = some template) :
    template ∈ templates ∧ template.id = templateId := by
  have hmem := OrdMap.mem_of_get_ofList h
  obtain ⟨found,hfound,heq⟩ := List.mem_map.mp hmem
  cases heq
  exact ⟨hfound,rfl⟩

theorem HttpsService.connection_of_new {templates : List HttpTemplateDecl}
    {connections : List Connection} {connectionId : ConnectionId} {connection : Connection}
    (h : (HttpsService.new templates connections).connections.get connectionId =
      some connection) : connection ∈ connections ∧ connection.id = connectionId := by
  have hmem := OrdMap.mem_of_get_ofList h
  obtain ⟨found,hfound,heq⟩ := List.mem_map.mp hmem
  cases heq
  exact ⟨hfound,rfl⟩

theorem keyed_of_prepare {lib : HttpLibrary υ} {templates : List HttpTemplateDecl}
    {connections : List Connection} {vault : CredentialVault} {templateId : String}
    {connectionId : ConnectionId} {query : List QueryParam} {prepared : PreparedHttpOperation υ}
    (h : ((HttpsService.new templates connections).prepare lib vault templateId connectionId
      query).result = .ok prepared) :
    PreparedCall.Keyed lib (HttpsService.new templates connections)
      ⟨templateId,connectionId,query,prepared.work⟩ := by
  obtain ⟨draft,secret,credential,hdraft,-,-,hprepared⟩ := HttpsService.prepare_eq_ok h
  obtain ⟨htemplate,-,-,-⟩ := HttpsService.draft_eq_ok hdraft
  obtain ⟨hkey,hlimits⟩ := HttpDraft.work_of_prepared hprepared
  obtain ⟨hrequest,-,-⟩ := HttpDraft.prepared_eq_ok hprepared
  refine ⟨draft,hdraft,?_,?_,hlimits⟩
  · rw [hkey,hrequest,(HttpsService.template_of_new htemplate).2]
  · rw [hrequest]

/-- In every run of a service each response that is returned is the transport's answer to an
attempt of that operation or was supplied to an operation with the same template, connection,
credential generation and URL, within the age that applies; and attempts are bounded. -/
theorem responses_served (lib : HttpLibrary υ) (templates : List HttpTemplateDecl)
    (connections : List Connection) (actions : List SessionAction) :
    let service := HttpsService.new templates connections
    let s := HttpsSession.after lib service actions
    (∀ op ∈ s.running, op.call.Keyed lib service ∧ op.calls ≤ op.call.work.maxRetries + 1 ∧
      ∀ answer ∈ op.answers, answer = .error .unavailable) ∧
    ∀ e ∈ s.ended, e.operation.call.Keyed lib service ∧ e.Sane s.ended := by
  intro service s
  have hsound : s.Sound := HttpsSession.sound_after actions
  have hkeyed : HttpsSession.AllCalls (PreparedCall.Keyed lib service) s :=
    HttpsSession.allCalls_after (fun _ _ _ _ _ h => keyed_of_prepare h) actions
  refine ⟨?_,fun e he => ⟨hkeyed.ended e he,hsound.ended e he⟩⟩
  intro op hop
  obtain ⟨hretried,hcounted⟩ := hsound.running op hop
  refine ⟨hkeyed.running op hop,?_,hretried⟩
  split at hcounted <;> omega

end Floatile.Services
