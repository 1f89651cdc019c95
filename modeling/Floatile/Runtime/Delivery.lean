import Floatile.Runtime.Relay

/-! Results over all runs of a registry, its relay or bridge, and the actor of the instance: they
are bounded, taken at most once and vouched for; none is left behind by a dropped completion as
long as nothing is dropped from a queue while its result is still kept. -/
namespace Floatile.Runtime.Relay

open Floatile.Core.Capability Floatile.Core.Operation
open Floatile.Lib Floatile.Lib.Transition
open Floatile.Services.Operation

variable {τ α : Type} [DecidableEq τ] (owner : OperationOwner) (limits : OperationLimits)
  (route : Route)

/-- Runs from a new registry and an empty queue. -/
def hostSystem : System (Host τ α) (HostLabel τ α) :=
  .ofPartial (fun h => ∃ now counter registry capacity, 0 < counter ∧
      Registry.new limits now counter = .ok registry ∧ h = Host.new registry capacity)
    (Host.step owner limits route)

/-- The steps of the host. -/
inductive HostStep (h : Host τ α) : HostLabel τ α → Host τ α → Prop where
  | registry {label : RegistryLabel τ α} {registry : Registry τ α}
      (hstep : RegistryStep owner limits h.registry label registry) :
      HostStep h (.registry label) { h with registry := registry }
  | receive {completion : OperationCompletion} {completions : Channel OperationCompletion}
      (hqueue : h.registry.completions.queue = completion :: completions.queue) :
      HostStep h .receive { h with
        registry := { h.registry with completions := completions }
        router := .holding completion }
  | exhausted (hqueue : h.registry.completions.queue = []) :
      HostStep h .receive h.closeCompletions
  | routed {completion : OperationCompletion} {inbox : Channel InstanceCommand}
      (hrouter : h.router = .holding completion)
      (hinbox : inbox.queue = h.inbox.queue ++ [.operationCompleted completion]) :
      HostStep h .route { h with router := .idle, inbox := inbox }
  | turnedAway {completion : OperationCompletion} {last : Bool}
      (hrouter : h.router = .holding completion) :
      HostStep h .route { h with router := .discarding completion.id last }
  | discard {id : ℕ} (hrouter : h.router = .discarding id false) :
      HostStep h .discard { h.discard id with router := .idle }
  | discardLast {id : ℕ} (hrouter : h.router = .discarding id true) :
      HostStep h .discard (h.discard id).closeCompletions
  | dropReceiver : HostStep h .dropReceiver h.closeCompletions
  | post {command : InstanceCommand} {inbox : Channel InstanceCommand}
      (hinbox : completedIds inbox.queue = completedIds h.inbox.queue) :
      HostStep h (.post command) { h with inbox := inbox }
  | begin : HostStep h .begin { h with actor := .running }
  | deliver {failed : Bool} {inbox : Channel InstanceCommand} {command : InstanceCommand}
      {actor : Actor} {delivered : List OperationCompletion}
      (hqueue : h.inbox.queue = command :: inbox.queue) :
      HostStep h (.handle failed)
        { h with inbox := inbox, actor := actor, delivered := delivered }
  | ignore {failed : Bool} {inbox : Channel InstanceCommand} {completion : OperationCompletion}
      (hqueue : h.inbox.queue = .operationCompleted completion :: inbox.queue) :
      HostStep h (.handle failed) ({ h with inbox := inbox }.discard completion.id)
  | drain {inbox : Channel InstanceCommand} {command : InstanceCommand}
      (hqueue : h.inbox.queue = command :: inbox.queue) :
      HostStep h .drain { h with
        inbox := inbox
        dropped := completedIds [command] ++ h.dropped }
  | drained (hqueue : h.inbox.queue = []) : HostStep h .drain { h with actor := .finished }
  | close : HostStep h .close { h with
      inbox := h.inbox.close
      actor := .closed
      dropped := completedIds h.inbox.queue ++ h.dropped }

theorem completedIds_append (xs ys : List InstanceCommand) :
    completedIds (xs ++ ys) = completedIds xs ++ completedIds ys := List.filterMap_append

/-- What is posted besides completions adds none to the queue. -/
theorem completedIds_post {inbox inbox' : Channel InstanceCommand} {command : InstanceCommand}
    (hcommand : completedIds [command] = []) (h : inbox.trySend command = .ok inbox') :
    completedIds inbox'.queue = completedIds inbox.queue := by
  rw [(Channel.trySend_eq_ok h).2.1, completedIds_append, hcommand, List.append_nil]

variable {owner limits route}

omit [DecidableEq τ] in
theorem Host.handle_cases {h : Host τ α} {inbox : Channel InstanceCommand}
    {command : InstanceCommand} (failed : Bool)
    (hqueue : h.inbox.queue = command :: inbox.queue) :
    HostStep owner limits h (.handle failed) ({ h with inbox := inbox }.handle failed command) := by
  cases command with
  | operationCompleted completion =>
    simp only [Host.handle]
    split_ifs
    · exact .deliver hqueue
    · exact .deliver hqueue
    · exact .ignore hqueue
  | _ => exact .deliver hqueue

theorem Host.step_cases {h h' : Host τ α} {i : HostLabel τ α}
    (hstep : h.step owner limits route i = some h') : HostStep owner limits h i h' := by
  cases i with
  | registry label =>
    simp only [Host.step] at hstep
    split at hstep
    · next registry hregistry =>
      cases hstep
      exact .registry (Registry.step_cases hregistry)
    · cases hstep
  | receive =>
    simp only [Host.step] at hstep
    split at hstep
    · split at hstep
      · next completion completions hrecv =>
        cases hstep
        exact .receive (Channel.queue_of_recv hrecv).1
      · next hrecv =>
        split_ifs at hstep
        cases hstep
        exact .exhausted ((Channel.recv_eq_none_iff _).mp hrecv)
    · cases hstep
  | route =>
    simp only [Host.step] at hstep
    split at hstep
    · next completion hrouter =>
      split at hstep
      · next inbox hroute =>
        cases hstep
        refine .routed hrouter ?_
        simp only [tryRoute] at hroute
        split_ifs at hroute
        · cases hroute
        · split at hroute <;> cases hroute
          exact (Channel.trySend_eq_ok ‹_›).2.1
      · cases hstep
        exact .turnedAway hrouter
    · cases hstep
  | discard =>
    simp only [Host.step] at hstep
    split at hstep
    · next id hrouter =>
      cases hstep
      exact .discard hrouter
    · next id hrouter =>
      cases hstep
      exact .discardLast hrouter
    · cases hstep
  | dropReceiver =>
    simp only [Host.step] at hstep
    split_ifs at hstep
    cases hstep
    exact .dropReceiver
  | post command =>
    cases command with
    | operationCompleted completion => cases hstep
    | _ =>
      simp only [Host.step] at hstep
      split at hstep
      · next inbox hsend =>
        cases hstep
        exact .post (completedIds_post rfl hsend)
      · cases hstep
        exact .post rfl
  | begin =>
    simp only [Host.step] at hstep
    split at hstep
    · cases hstep
      exact .begin
    · cases hstep
  | handle failed =>
    simp only [Host.step] at hstep
    split at hstep
    · next command inbox _ hrecv =>
      cases hstep
      exact Host.handle_cases failed (Channel.queue_of_recv hrecv).1
    · cases hstep
  | drain =>
    simp only [Host.step] at hstep
    split at hstep
    · split at hstep
      · next command inbox hrecv =>
        cases hstep
        exact .drain (Channel.queue_of_recv hrecv).1
      · next hrecv =>
        cases hstep
        exact .drained ((Channel.recv_eq_none_iff _).mp hrecv)
    · cases hstep
  | close =>
    simp only [Host.step] at hstep
    split_ifs at hstep
    cases hstep
    exact .close

/-- The result that the relay discards before it ends. -/
def Router.lastId : Router → List ℕ
  | .discarding id true => [id]
  | _ => []

/-- Where a queue goes away with what it holds, no result is kept for what it holds. -/
def DropsNoResult (h : Host τ α) : HostLabel τ α → Prop
  | .discard => ∀ id ∈ h.router.lastId, ∀ c ∈ h.registry.completions.queue,
      c.id = id ∨ h.registry.results.get c.id = none
  | .dropReceiver => ∀ c ∈ h.registry.completions.queue, h.registry.results.get c.id = none
  | .drain => ∀ id ∈ completedIds (h.inbox.queue.take 1), h.registry.results.get id = none
  | .close => ∀ id ∈ completedIds h.inbox.queue, h.registry.results.get id = none
  | _ => True

instance (h : Host τ α) : (i : HostLabel τ α) → Decidable (DropsNoResult h i)
  | .discard => inferInstanceAs (Decidable (∀ id ∈ h.router.lastId,
      ∀ c ∈ h.registry.completions.queue, c.id = id ∨ h.registry.results.get c.id = none))
  | .dropReceiver => inferInstanceAs (Decidable (∀ c ∈ h.registry.completions.queue,
      h.registry.results.get c.id = none))
  | .drain => inferInstanceAs (Decidable (∀ id ∈ completedIds (h.inbox.queue.take 1),
      h.registry.results.get id = none))
  | .close => inferInstanceAs (Decidable (∀ id ∈ completedIds h.inbox.queue,
      h.registry.results.get id = none))
  | .registry _ => .isTrue trivial
  | .receive => .isTrue trivial
  | .route => .isTrue trivial
  | .post _ => .isTrue trivial
  | .begin => .isTrue trivial
  | .handle _ => .isTrue trivial

/-- The completion that the relay or the bridge has in hand. -/
def Router.heldId : Router → Option ℕ
  | .holding completion => some completion.id
  | .discarding id _ => some id
  | _ => none

/-- What holds of the results in every reachable state. -/
structure Kept (limits : OperationLimits) (h : Host τ α) : Prop where
  tally : ∀ id, Tally h.registry id
  retention : Retention limits h.registry
  held : ∀ id, h.router.heldId = some id → 0 < completionsOf h.registry.sent id
  inbox : ∀ id ∈ completedIds h.inbox.queue, 0 < completionsOf h.registry.sent id
  dropped : ∀ id ∈ h.dropped, 0 < completionsOf h.registry.sent id

/-- No result is kept for a completion that was dropped. -/
def NoOrphan (h : Host τ α) : Prop := ∀ id ∈ h.dropped, h.registry.results.get id = none

omit [DecidableEq τ] in
/-- A step of the registry alone. -/
theorem Kept.registry {h : Host τ α} {registry : Registry τ α} {label : RegistryLabel τ α}
    (hkept : Kept limits h) (hstep : RegistryStep owner limits h.registry label registry) :
    Kept limits { h with registry := registry } := by
  have hmono := completionsOf_mono hstep
  obtain ⟨h1,h2,h3,h4,h5⟩ := hkept
  exact ⟨fun id => (h1 id).step hstep,h2.step h1 hstep,
    fun id hid => (h3 id hid).trans_le (hmono id),fun id hid => (h4 id hid).trans_le (hmono id),
    fun id hid => (h5 id hid).trans_le (hmono id)⟩

omit [DecidableEq τ] in
theorem tally_completions {s : Registry τ α} {id : ℕ} (h : Tally s id)
    (completions : Channel OperationCompletion) :
    Tally { s with completions := completions } id := by
  obtain ⟨h1,h2,h3,h4,h5,h6,h7,h8⟩ := h
  exact ⟨h1,h2,h3,h4,h5,h6,h7,h8⟩

omit [DecidableEq τ] in
theorem Kept.closeCompletions {h : Host τ α} (hkept : Kept limits h) :
    Kept limits h.closeCompletions := by
  obtain ⟨h1,⟨r1,r2,r3,r4,r5⟩,h3,h4,h5⟩ := hkept
  refine ⟨fun id => tally_completions (h1 id) _,⟨r1,by simp [Host.closeCompletions],r3,r4,r5⟩,
    by simp [Host.closeCompletions, Router.heldId],h4,?_⟩
  intro id hid
  rcases List.mem_append.mp hid with hid | hid
  · obtain ⟨c,hc,rfl⟩ := List.mem_map.mp hid
    exact completionsOf_pos (r2 c hc)
  · exact h5 id hid

omit [DecidableEq τ] in
theorem Kept.discard {h : Host τ α} (owner : OperationOwner) (hkept : Kept limits h) {id : ℕ}
    (hid : 0 < completionsOf h.registry.sent id) : Kept limits (h.discard id) := by
  have hdiscard : RegistryStep owner limits h.registry (.discard id) (h.registry.discard id) :=
    .discard
  obtain ⟨h1,h2,h3,h4,h5⟩ := hkept.registry hdiscard
  exact ⟨h1,h2,h3,h4,List.forall_mem_cons.mpr ⟨hid,h5⟩⟩

omit [DecidableEq τ] in
theorem Kept.step {h h' : Host τ α} {i : HostLabel τ α} (hkept : Kept limits h)
    (hstep : HostStep owner limits h i h') : Kept limits h' := by
  have hcopy := hkept
  obtain ⟨h1,h2,h3,h4,h5⟩ := hkept
  cases hstep with
  | registry hstep => exact hcopy.registry hstep
  | @receive completion completions hqueue =>
    obtain ⟨r1,r2,r3,r4,r5⟩ := h2
    rw [hqueue, List.forall_mem_cons] at r2
    refine ⟨fun id => tally_completions (h1 id) _,⟨r1,r2.2,r3,r4,r5⟩,?_,h4,h5⟩
    rintro id hid
    obtain rfl := Option.some.inj hid
    exact completionsOf_pos r2.1
  | exhausted => exact hcopy.closeCompletions
  | @routed completion inbox hrouter hinbox =>
    refine ⟨h1,h2,by simp [Router.heldId],?_,h5⟩
    simp only [hinbox, completedIds_append]
    intro id hid
    rcases List.mem_append.mp hid with hid | hid
    · exact h4 id hid
    · obtain rfl := List.mem_singleton.mp hid
      exact h3 completion.id (by rw [hrouter]; rfl)
  | @turnedAway completion last hrouter =>
    refine ⟨h1,h2,?_,h4,h5⟩
    rintro id hid
    exact h3 id (by rw [hrouter]; exact hid)
  | @discard id hrouter =>
    obtain ⟨h1,h2,h3,h4,h5⟩ := hcopy.discard owner (h3 id (by rw [hrouter]; rfl))
    exact ⟨h1,h2,by simp [Router.heldId],h4,h5⟩
  | @discardLast id hrouter =>
    exact (hcopy.discard owner (h3 id (by rw [hrouter]; rfl))).closeCompletions
  | dropReceiver => exact hcopy.closeCompletions
  | post hinbox => exact ⟨h1,h2,h3,by simpa only [hinbox] using h4,h5⟩
  | begin => exact ⟨h1,h2,h3,h4,h5⟩
  | @deliver _ inbox command _ _ hqueue =>
    rw [hqueue, ← List.singleton_append, completedIds_append, List.forall_mem_append] at h4
    exact ⟨h1,h2,h3,h4.2,h5⟩
  | @ignore _ inbox completion hqueue =>
    rw [hqueue, ← List.singleton_append, completedIds_append, List.forall_mem_append] at h4
    have hrest : Kept limits { h with inbox := inbox } := ⟨h1,h2,h3,h4.2,h5⟩
    exact hrest.discard owner (h4.1 completion.id (List.mem_singleton.mpr rfl))
  | @drain inbox command hqueue =>
    rw [hqueue, ← List.singleton_append, completedIds_append, List.forall_mem_append] at h4
    exact ⟨h1,h2,h3,h4.2,List.forall_mem_append.mpr ⟨h4.1,h5⟩⟩
  | drained => exact ⟨h1,h2,h3,h4,h5⟩
  | close =>
    exact ⟨h1,h2,h3,by simp [completedIds],List.forall_mem_append.mpr ⟨h4,h5⟩⟩

omit [DecidableEq τ] in
theorem noOrphan_closeCompletions {h : Host τ α} (hnone : NoOrphan h)
    (hqueue : ∀ c ∈ h.registry.completions.queue, h.registry.results.get c.id = none) :
    NoOrphan h.closeCompletions := by
  intro id hid
  rcases List.mem_append.mp hid with hid | hid
  · obtain ⟨c,hc,rfl⟩ := List.mem_map.mp hid
    exact hqueue c hc
  · exact hnone id hid

omit [DecidableEq τ] in
theorem noOrphan_discard {h : Host τ α} (hnone : NoOrphan h) (id : ℕ) :
    NoOrphan (h.discard id) := by
  refine List.forall_mem_cons.mpr ⟨OrdMap.get_erase_self _ _,?_⟩
  intro other hother
  change (h.registry.results.erase id).get other = none
  rw [OrdMap.get_erase]
  split_ifs
  · rfl
  · exact hnone other hother

omit [DecidableEq τ] in
/-- A step that drops no kept result leaves none behind. -/
theorem NoOrphan.step {h h' : Host τ α} {i : HostLabel τ α} (hkept : Kept limits h)
    (hnone : NoOrphan h) (hdrops : DropsNoResult h i) (hstep : HostStep owner limits h i h') :
    NoOrphan h' := by
  cases hstep with
  | registry hstep =>
    intro id hid
    have hpos := hkept.dropped id hid
    exact result_stays_gone (hkept.tally id) hstep (by omega) (hnone id hid)
  | receive => exact hnone
  | exhausted hqueue => exact noOrphan_closeCompletions hnone (by simp [hqueue])
  | routed => exact hnone
  | turnedAway => exact hnone
  | @discard id hrouter => exact noOrphan_discard hnone id
  | @discardLast id hrouter =>
    refine noOrphan_closeCompletions (noOrphan_discard hnone id) ?_
    intro c hc
    change (h.registry.results.erase id).get c.id = none
    rw [OrdMap.get_erase]
    split_ifs with hid
    · rfl
    · exact (hdrops id (by simp [hrouter, Router.lastId]) c hc).resolve_left hid
  | dropReceiver => exact noOrphan_closeCompletions hnone hdrops
  | post => exact hnone
  | begin => exact hnone
  | deliver => exact hnone
  | @ignore _ inbox completion hqueue =>
    have hrest : NoOrphan { h with inbox := inbox } := hnone
    exact noOrphan_discard hrest completion.id
  | drain hqueue =>
    refine List.forall_mem_append.mpr ⟨?_,hnone⟩
    simpa [DropsNoResult, hqueue] using hdrops
  | drained => exact hnone
  | close => exact List.forall_mem_append.mpr ⟨hdrops,hnone⟩

theorem kept_of_reachable {C : Host τ α → HostLabel τ α → Prop} {h : Host τ α}
    (hreach : (hostSystem owner limits route).ReachableWhen C h) : Kept limits h := by
  refine hreach.invariant (Kept limits) ?_ (fun _ _ _ hkept _ hstep =>
    hkept.step (Host.step_cases hstep))
  rintro _ ⟨now,counter,registry,capacity,hcounter,hnew,rfl⟩
  exact ⟨tally_new hcounter hnew,retention_new hnew,by simp [Host.new, Router.heldId],
    by simp [Host.new, completedIds],by simp [Host.new]⟩

omit [DecidableEq τ] in
/-- A step that drops a kept result leaves it behind. -/
theorem orphan_of_drop {h h' : Host τ α} {i : HostLabel τ α} (hdrops : ¬DropsNoResult h i)
    (hstep : HostStep owner limits h i h') : ¬NoOrphan h' := by
  intro hnone
  refine hdrops ?_
  cases hstep with
  | @discard id hrouter =>
    intro other hother
    simp [hrouter, Router.lastId] at hother
  | @discardLast id hrouter =>
    intro other hother c hc
    obtain rfl : other = id := by simpa [hrouter, Router.lastId] using hother
    by_cases hid : c.id = other
    · exact Or.inl hid
    · have hgone : (h.registry.results.erase other).get c.id = none :=
        hnone c.id (List.mem_append_left _ (List.mem_map_of_mem hc))
      rw [OrdMap.get_erase_of_ne _ hid] at hgone
      exact Or.inr hgone
  | dropReceiver =>
    exact fun c hc => hnone c.id (List.mem_append_left _ (List.mem_map_of_mem hc))
  | drain hqueue =>
    intro id hid
    rw [hqueue] at hid
    exact hnone id (List.mem_append_left _ (by simpa using hid))
  | drained hqueue => simp [DropsNoResult, hqueue, completedIds]
  | close => exact fun id hid => hnone id (List.mem_append_left _ hid)
  | _ => trivial

/-- A result that is taken under another capability or type stays for its owner. -/
theorem take_mismatch {s : Registry τ α} {capability : CapabilityId} {typeId : τ} {id : ℕ}
    {result : StoredResult τ α} (hresult : s.results.get id = some result)
    (hmismatch : capability ≠ result.capability ∨ typeId ≠ result.value.typeId) :
    (∃ e, s.take capability typeId id = (.error e,s)) ∧
      (s.take result.capability result.value.typeId id).1 = .ok result.value.value := by
  refine ⟨?_,by simp [Registry.take, Registry.takeResult, hresult]⟩
  rcases Registry.take_cases s capability typeId id with hfail | ⟨other,hother,hcapability,htake⟩
  · exact hfail
  · rw [hresult] at hother
    obtain rfl := Option.some.inj hother
    have htype : typeId ≠ result.value.typeId := hmismatch.resolve_left (by simp [hcapability])
    simp [Registry.take, Registry.takeResult, hresult, hcapability, Ne.symm htype] at htake

/-- In every run whose queues go away without kept results, results are bounded, taken at most
once, safe from a wrong capability or type and vouched for by their completions, and none is
kept for a dropped completion. Any other step leaves a result behind. -/
theorem results_never_orphaned {h : Host τ α}
    (hreach : (hostSystem owner limits route).ReachableWhen DropsNoResult h) :
    h.registry.results.entries.length ≤ limits.maxRetainedResults ∧
    (∀ id, h.registry.taken.count id ≤ 1) ∧
    (∀ capability typeId id result, h.registry.results.get id = some result →
      capability ≠ result.capability ∨ typeId ≠ result.value.typeId →
      (∃ e, h.registry.take capability typeId id = (.error e,h.registry)) ∧
        (h.registry.take result.capability result.value.typeId id).1 = .ok result.value.value) ∧
    (∀ c ∈ h.registry.sent, c.terminal = .succeeded →
      (c.id,c.capability) ∈ h.registry.retained) ∧
    (∀ id, id ∈ h.dropped ∨ id ∈ h.registry.undelivered → h.registry.results.get id = none) ∧
    (∀ i h', h.step owner limits route i = some h' → ¬DropsNoResult h i → ¬NoOrphan h') := by
  have hkept := kept_of_reachable hreach
  have hnone : Kept limits h ∧ NoOrphan h := by
    refine hreach.invariant (fun h => Kept limits h ∧ NoOrphan h) ?_ ?_
    · rintro h hinit
      refine ⟨kept_of_reachable (C := fun _ _ => True)
        (System.ReachableWhen.of_init (S := hostSystem owner limits route) hinit),?_⟩
      obtain ⟨now,counter,registry,capacity,-,-,rfl⟩ := hinit
      simp [NoOrphan, Host.new]
    · rintro h i h' ⟨hkept,hnone⟩ hdrops hstep
      have hcases := Host.step_cases hstep
      exact ⟨hkept.step hcases,hnone.step hkept hdrops hcases⟩
  refine ⟨hkept.retention.bounded,fun id => ?_,
    fun _ _ _ _ hresult hmismatch => take_mismatch hresult hmismatch,hkept.retention.sent,
    fun id hid => hid.elim (hnone.2 id) (hkept.retention.undelivered id),
    fun _ _ hstep hdrops => orphan_of_drop hdrops (Host.step_cases hstep)⟩
  have htaken := (hkept.tally id).taken
  have hretained := (hkept.tally id).retained
  have haccepted := (hkept.tally id).accepted
  have hone := (hkept.tally id).once
  omega

def notesOwner : OperationOwner := ⟨"org.acme.notes",3,1⟩

def pairLimits : OperationLimits := ⟨2,2,2,2,1000⟩

def newHost : Option (Host Unit ℕ) :=
  (Registry.new pairLimits 0 1).toOption.map (fun registry => Host.new registry 4)

/-- An operation from its call to the task that runs it. -/
def launch : List (HostLabel Unit ℕ) :=
  [.registry (.submit .storageRead 100),.registry (.insertActive 0),.registry (.trySend 0),
   .registry .acquirePermit,.registry .receiveJob]

/-- The first task from its start to the completion that it sends. -/
def complete (value : ℕ) : List (HostLabel Unit ℕ) :=
  [.registry (.run 0 none),.registry (.run 0 (some (.ok ⟨(),value⟩))),.registry (.run 0 none),
   .registry (.run 0 none),.registry (.run 0 none)]

/-- The actor stops and its queue goes away. -/
def stopActor : List (HostLabel Unit ℕ) := [.begin,.post .shutdown,.handle false,.close]

/-- The relay meets the closed queue. -/
def relayCloses : List (HostLabel Unit ℕ) := [.receive,.route,.discard]

/-- One completion for a stopped actor: its result is discarded. -/
def afterOne : Option (Host Unit ℕ) :=
  newHost.bind (fun h => System.runWhen (Host.step notesOwner pairLimits .relay) DropsNoResult h
    (launch ++ complete 7 ++ stopActor ++ relayCloses))

theorem afterOne_accounted :
    ∃ h, afterOne = some h ∧ h.dropped = [1] ∧ h.registry.results.get 1 = none ∧
      h.registry.results.entries.length ≤ 2 ∧ (1,.storageRead) ∈ h.registry.retained := by
  obtain ⟨h,hh⟩ : ∃ h, afterOne = some h := Option.isSome_iff_exists.mp (by decide +kernel)
  have hdropped : afterOne.map Host.dropped = some [1] := by decide +kernel
  have hsent : afterOne.map (fun h => h.registry.sent) =
      some [⟨1,notesOwner,.storageRead,.succeeded⟩] := by decide +kernel
  rw [hh, Option.map_some, Option.some.injEq] at hdropped hsent
  obtain ⟨start,hstart,hrun⟩ := Option.bind_eq_some_iff.mp hh
  obtain ⟨registry,hnew,rfl⟩ := Option.map_eq_some_iff.mp hstart
  have hinit : (hostSystem notesOwner pairLimits .relay).ReachableWhen DropsNoResult
      (Host.new registry 4) :=
    .of_init ⟨0,1,registry,4,Nat.one_pos,Checked.toOption_eq_some.mp hnew,rfl⟩
  have hkept := results_never_orphaned (System.reachableWhen_runWhen hinit hrun)
  obtain ⟨hbounded,-,-,hvouched,hgone,-⟩ := hkept
  exact ⟨h,hh,hdropped,hgone 1 (Or.inl (by rw [hdropped]; simp)),hbounded,
    hvouched ⟨1,notesOwner,.storageRead,.succeeded⟩ (by rw [hsent]; simp) rfl⟩

/-- Two completions for a stopped actor: the relay ends with the second one in its queue. -/
def afterTwo : Option (Host Unit ℕ) :=
  newHost.bind ((launch ++ launch ++ complete 7 ++ complete 8 ++ stopActor ++
    relayCloses).foldlM (Host.step notesOwner pairLimits .relay))

theorem second_result_orphaned :
    ¬∀ h, (hostSystem notesOwner pairLimits .relay).Reachable h →
      ∀ id, id ∈ h.dropped → (h : Host Unit ℕ).registry.results.get id = none := by
  intro hnone
  obtain ⟨h,hh⟩ : ∃ h, afterTwo = some h := Option.isSome_iff_exists.mp (by decide +kernel)
  have hdropped : afterTwo.map Host.dropped = some [2,1] := by decide +kernel
  have hresult : afterTwo.map (fun h => h.registry.results.get 2) =
      some (some ⟨.storageRead,⟨(),8⟩⟩) := by decide +kernel
  rw [hh, Option.map_some, Option.some.injEq] at hdropped hresult
  obtain ⟨start,hstart,hrun⟩ := Option.bind_eq_some_iff.mp hh
  obtain ⟨registry,hnew,rfl⟩ := Option.map_eq_some_iff.mp hstart
  have hinit : (hostSystem notesOwner pairLimits .relay).Reachable (Host.new registry 4) :=
    .of_init ⟨0,1,registry,4,Nat.one_pos,Checked.toOption_eq_some.mp hnew,rfl⟩
  have hgone := hnone h (System.reachable_foldlM hinit hrun) 2 (by rw [hdropped]; simp)
  rw [hresult] at hgone
  cases hgone

end Floatile.Runtime.Relay
