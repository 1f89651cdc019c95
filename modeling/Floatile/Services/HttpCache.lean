import Floatile.Services.HttpHost

/-! One service for HTTPS with its cache of responses: the operations it has prepared run side by
side, each from one wait to the next, whatever the transport answers. -/
namespace Floatile.Services

open Floatile.Core Floatile.Core.Operation
open Floatile.Lib Floatile.Lib.Transition
open Floatile.Services.Operation

abbrev HttpCache := List (CacheKey × CachedResponse)

namespace HttpCache

/-- A response in the cache that is not older than the given age. -/
def hit (cache : HttpCache) (key : CacheKey) (now maxAge : ℕ) : Option HttpResponse :=
  match cache.find? (fun entry => entry.1 = key) with
  | some (_,cached) => if now - cached.storedAt ≤ maxAge then some cached.response else none
  | none => none

def store (cache : HttpCache) (key : CacheKey) (now : ℕ) (response : HttpResponse) : HttpCache :=
  (key,⟨now,response⟩) :: cache.filter (fun entry => entry.1 ≠ key)

theorem hit_eq_some {cache : HttpCache} {key : CacheKey} {now maxAge : ℕ}
    {response : HttpResponse} (h : cache.hit key now maxAge = some response) :
    ∃ cached, (key,cached) ∈ cache ∧ cached.response = response ∧
      now - cached.storedAt ≤ maxAge := by
  unfold hit at h
  split at h
  · rename_i found cached hfind
    split_ifs at h with hage
    have hkey : found = key := by simpa using List.find?_some hfind
    subst hkey
    exact ⟨cached,List.mem_of_find?_eq_some hfind,Option.some.inj h,hage⟩
  · cases h

theorem mem_store {cache : HttpCache} {key : CacheKey} {now : ℕ} {response : HttpResponse}
    {entry : CacheKey × CachedResponse} (h : entry ∈ cache.store key now response) :
    entry = (key,⟨now,response⟩) ∨ entry ∈ cache := by
  rcases List.mem_cons.mp h with rfl | hold
  · exact Or.inl rfl
  · exact Or.inr (List.mem_of_mem_filter hold)

end HttpCache

/-- Where the work of an operation comes to next: it returns, with what the listener is told; it
calls the transport; or it waits before the next attempt. -/
inductive WorkStep where
  | returned (result : Except OperationFailure HttpResponse) (told : Option ConnectionHealth)
  | calls (attempt : ℕ)
  | waits (attempt wake : ℕ)

namespace HttpWork

variable {υ : Type} (work : HttpWork υ) (cache : HttpCache) (now : ℕ)

/-- What the work does with the answer to an attempt. -/
def answered (attempt : ℕ) : Except HttpServiceError HttpResponse → WorkStep × HttpCache
  | .ok response =>
    (.returned (.ok response) (some .healthy),
      if work.cacheTtl ≠ 0 ∨ work.staleIfError ≠ 0 then cache.store work.cacheKey now response
      else cache)
  | .error error =>
    if attempt < work.maxRetries ∧ retryable error = true then
      (.waits attempt (now + retryDelay work.retryBaseDelay attempt),cache)
    else
      let stale := if work.staleIfError = 0 then none
        else cache.hit work.cacheKey now (work.cacheTtl + work.staleIfError)
      match stale with
      | some response => (.returned (.ok response) none,cache)
      | none => (.returned (.error (failureOf error)) (some .degraded),cache)

/-- From one wait of the work to the next. -/
def resume (answer : Except HttpServiceError HttpResponse) :
    AttemptPhase → Option (WorkStep × HttpCache)
  | .fresh =>
    let cached := if work.cacheTtl = 0 then none
      else cache.hit work.cacheKey now work.cacheTtl
    match cached with
    | some response => some (.returned (.ok response) none,cache)
    | none => some (.calls 0,cache)
  | .executing attempt => some (work.answered cache now attempt answer)
  | .sleeping attempt wake => if wake ≤ now then some (.calls (attempt + 1),cache) else none

end HttpWork

namespace HttpsHost

variable {υ : Type}

/-- The host takes a step of the work over. -/
def follow (s : HttpsHost υ) (operations : OperationRegistry) (n : ℕ) (job : OperationJob)
    (task : HttpTask υ) : WorkStep × HttpCache → HttpsHost υ
  | (.returned result told,cache) =>
    let s := match told with
      | some health => s.tell task.work.connectionId health
      | none => s
    ({ s with cache := cache } : HttpsHost υ).finish operations n job.id result
  | (.calls attempt,cache) => ({ s with cache := cache } : HttpsHost υ).execute job task attempt
  | (.waits attempt wake,cache) => { s with
      cache := cache
      tasks := s.tasks.insert job.id { task with phase := .sleeping attempt wake } }

theorem hit_eq (s : HttpsHost υ) (key : CacheKey) (now maxAge : ℕ) :
    s.hit key now maxAge = HttpCache.hit s.cache key now maxAge := rfl

theorem tell_cache (s : HttpsHost υ) (connection : ConnectionId) (health : ConnectionHealth) :
    (s.tell connection health).cache = s.cache := by
  unfold tell
  split_ifs <;> rfl

theorem store_tell (s : HttpsHost υ) (key : CacheKey) (now : ℕ) (response : HttpResponse)
    (connection : ConnectionId) (health : ConnectionHealth) :
    (s.tell connection health).store key now response =
      { s.tell connection health with cache := HttpCache.store s.cache key now response } := by
  unfold store HttpCache.store
  rw [tell_cache]

/-- The host of the broker runs the work exactly by these steps. -/
theorem proceed_eq (s : HttpsHost υ) (operations : OperationRegistry) (n : ℕ) (job : OperationJob)
    (task : HttpTask υ) (answer : Except HttpServiceError HttpResponse) :
    s.proceed operations n job task answer =
      (task.work.resume s.cache operations.state.now answer task.phase).map
        (s.follow operations n job task) := by
  cases hphase : task.phase with
  | fresh =>
    simp only [proceed, HttpWork.resume, hphase, hit_eq]
    generalize (if task.work.cacheTtl = 0 then none
      else HttpCache.hit s.cache task.work.cacheKey operations.state.now
        task.work.cacheTtl) = cached
    cases cached <;> rfl
  | executing attempt =>
    simp only [proceed, HttpWork.resume, hphase, Option.map_some, Option.some.injEq]
    cases answer with
    | ok response =>
      simp only [answered, HttpWork.answered, follow]
      split_ifs
      · rw [store_tell]
      · rw [← tell_cache s task.work.connectionId .healthy]
    | error error =>
      simp only [answered, HttpWork.answered, hit_eq]
      split
      · rfl
      · generalize (if task.work.staleIfError = 0 then none
          else HttpCache.hit s.cache task.work.cacheKey operations.state.now
            (task.work.cacheTtl + task.work.staleIfError)) = stale
        cases stale with
        | some response => rfl
        | none => rw [follow,← tell_cache s task.work.connectionId .degraded]
  | sleeping last wake =>
    simp only [proceed, HttpWork.resume, hphase]
    split_ifs <;> rfl

end HttpsHost

end Floatile.Services
