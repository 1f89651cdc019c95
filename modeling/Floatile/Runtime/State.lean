import Floatile.Lib.Channel
import Floatile.Lib.Checked
import Floatile.Lib.Transition
import Floatile.Services.Authorize
import Floatile.UiSchema.Patch
import Floatile.UiSchema.Schema

/-! The state update of the host and the bounded channel to the user interface. Parsing and
serialising JSON are parameters. -/
namespace Floatile.Runtime

open Floatile.Lib
open Floatile.Lib.Checked (reject)
open Floatile.Lib.Transition
open Floatile.Core
open Floatile.Core.Capability
open Floatile.Core.Authority
open Floatile.Services
open Floatile.UiSchema

def queueCapacity : ℕ := 64

/-- A validated snapshot on its way to the user interface. -/
structure UiUpdate where
  inst : InstanceId
  seq : ℕ
  state : Json

structure UiState where
  state : Json
  schema : JsonSchema
  tx : Channel UiUpdate
  seq : ℕ
  windowStart : ℕ
  windowCount : ℕ

structure InstanceHostState where
  caps : List Grant
  sink : AuditSink
  id : InstanceId
  ui : UiState

inductive UiError where
  | notAllowed
  | updateRateExceeded
  | patchTooLarge
  | invalidJson
  | schemaMismatch (detail : String)
  | internal
  | stateTooLarge
  | queueFull
  deriving DecidableEq, Repr

/-- Result, audit record and host state after a call. -/
structure UpdateOutcome where
  result : Except UiError Unit
  event : AuditEvent
  host : InstanceHostState

/-- A second (in nanoseconds) after its start the rate window begins anew. -/
def rollWindow (ui : UiState) (now : ℕ) : UiState :=
  if 1000000000 ≤ now - ui.windowStart then { ui with windowStart := now, windowCount := 0 }
  else ui

def countUpdate (ui : UiState) : UiState := { ui with windowCount := ui.windowCount + 1 }

@[simp] theorem rollWindow_state (ui : UiState) (now : ℕ) :
    (rollWindow ui now).state = ui.state := by unfold rollWindow; split <;> rfl

@[simp] theorem rollWindow_schema (ui : UiState) (now : ℕ) :
    (rollWindow ui now).schema = ui.schema := by unfold rollWindow; split <;> rfl

@[simp] theorem rollWindow_seq (ui : UiState) (now : ℕ) :
    (rollWindow ui now).seq = ui.seq := by unfold rollWindow; split <;> rfl

@[simp] theorem rollWindow_tx (ui : UiState) (now : ℕ) :
    (rollWindow ui now).tx = ui.tx := by unfold rollWindow; split <;> rfl

@[simp] theorem countUpdate_state (ui : UiState) : (countUpdate ui).state = ui.state := rfl

@[simp] theorem countUpdate_schema (ui : UiState) : (countUpdate ui).schema = ui.schema := rfl

@[simp] theorem countUpdate_seq (ui : UiState) : (countUpdate ui).seq = ui.seq := rfl

@[simp] theorem countUpdate_tx (ui : UiState) : (countUpdate ui).tx = ui.tx := rfl

section Serde

variable (fromStr : String → Option Json) (toVec : Json → Option (List UInt8))

/-- The state after a patch, computed and validated on a copy. -/
def nextState (ui : UiState) (patchJson : String) : Except UiError Json := do
  reject (maxPatchBytes < Text.byteLen patchJson) .patchTooLarge
  match fromStr patchJson with
  | none => .error .invalidJson
  | some patch => do
    reject (patch.isObject = false) .invalidJson
    let next := mergePatch ui.state patch
    (validateValue ui.schema next "$" 0).mapError (fun e => UiError.schemaMismatch e.display)
    match toVec next with
    | none => .error .internal
    | some bytes => do
      reject (maxStateBytes < bytes.length) .stateTooLarge
      .ok next

/-- The mutation at the end of an update: sequence number and state change before the snapshot
is offered to the channel. -/
def commit (host : InstanceHostState) (ui : UiState) (next : Json) :
    Except UiError Unit × InstanceHostState :=
  let ui := { ui with seq := ui.seq + 1, state := next }
  match ui.tx.trySend ⟨host.id,ui.seq,next⟩ with
  | .ok tx => (.ok (),{ host with ui := { ui with tx := tx } })
  | .error _ => (.error .queueFull,{ host with ui := ui })

def updateState (host : InstanceHostState) (patchJson : String) (now : ℕ) : UpdateOutcome :=
  let (decision,event) := authorize host.caps host.sink .uiUpdateState none
    s!"ui update-state patch={Text.byteLen patchJson}B"
  match decision with
  | .error _ => ⟨.error .notAllowed,event,host⟩
  | .ok _ =>
    let ui := rollWindow host.ui now
    if maxUpdateRatePerSec ≤ ui.windowCount then
      ⟨.error .updateRateExceeded,event,{ host with ui := ui }⟩
    else
      let ui := countUpdate ui
      match nextState fromStr toVec ui patchJson with
      | .error e => ⟨.error e,event,{ host with ui := ui }⟩
      | .ok next =>
        let (result,host) := commit host ui next
        ⟨result,event,host⟩

/-- A patch that passes the checks made on the copy. -/
def PatchFits (state : Json) (schema : JsonSchema) (patchJson : String) (next : Json) : Prop :=
  Text.byteLen patchJson ≤ maxPatchBytes ∧
  ∃ patch bytes, fromStr patchJson = some patch ∧ patch.isObject = true ∧
    next = mergePatch state patch ∧ validateValue schema next "$" 0 = .ok () ∧
    toVec next = some bytes ∧ bytes.length ≤ maxStateBytes

theorem nextState_eq_ok_iff (ui : UiState) (patchJson : String) (next : Json) :
    nextState fromStr toVec ui patchJson = .ok next ↔
      PatchFits fromStr toVec ui.state ui.schema patchJson next := by
  rw [nextState, Checked.check_bind_eq_ok, Checked.reject_eq_ok, not_lt, PatchFits]
  refine and_congr_right fun _ => ?_
  constructor
  · intro h
    cases hpatch : fromStr patchJson with
    | none => simp [hpatch] at h
    | some patch =>
      simp only [hpatch, Checked.check_bind_eq_ok, Checked.reject_eq_ok, Bool.not_eq_false,
        Checked.mapError_eq_ok] at h
      obtain ⟨hobject,hvalid,h⟩ := h
      cases hbytes : toVec (mergePatch ui.state patch) with
      | none => simp [hbytes] at h
      | some bytes =>
        simp only [hbytes, Checked.check_bind_eq_ok, Checked.reject_eq_ok, not_lt,
          Except.ok.injEq] at h
        obtain ⟨hsize,rfl⟩ := h
        exact ⟨patch,bytes,rfl,hobject,rfl,hvalid,hbytes,hsize⟩
  · rintro ⟨patch,bytes,hpatch,hobject,rfl,hvalid,hbytes,hsize⟩
    simp [hpatch, hobject, hvalid, hbytes, reject, not_lt.mpr hsize]

/-- All checks of an update pass, so that it goes on to change the state to `next`. -/
def Accepts (host : InstanceHostState) (patchJson : String) (now : ℕ) (next : Json) : Prop :=
  Allows (findGrant host.caps .uiUpdateState) none ∧
  (rollWindow host.ui now).windowCount < maxUpdateRatePerSec ∧
  PatchFits fromStr toVec host.ui.state host.ui.schema patchJson next

/-- Everything an update can do to the state, the sequence number and the channel. -/
inductive UpdateEffect (host : InstanceHostState) (patchJson : String) (now : ℕ)
    (out : UpdateOutcome) : Prop where
  | refused (e : UiError) (hno : ∀ next, ¬Accepts fromStr toVec host patchJson now next)
      (hresult : out.result = .error e) (hstate : out.host.ui.state = host.ui.state)
      (hseq : out.host.ui.seq = host.ui.seq) (htx : out.host.ui.tx = host.ui.tx)
  | sent (next : Json) (hacc : Accepts fromStr toVec host patchJson now next)
      (hroom : host.ui.tx.HasRoom) (hresult : out.result = .ok ())
      (hstate : out.host.ui.state = next) (hseq : out.host.ui.seq = host.ui.seq + 1)
      (htx : out.host.ui.tx = host.ui.tx.push hroom ⟨host.id,host.ui.seq + 1,next⟩)
  | dropped (next : Json) (hacc : Accepts fromStr toVec host patchJson now next)
      (hroom : ¬host.ui.tx.HasRoom) (hresult : out.result = .error .queueFull)
      (hstate : out.host.ui.state = next) (hseq : out.host.ui.seq = host.ui.seq + 1)
      (htx : out.host.ui.tx = host.ui.tx)

theorem updateState_effect (host : InstanceHostState) (patchJson : String) (now : ℕ) :
    UpdateEffect fromStr toVec host patchJson now
      (updateState fromStr toVec host patchJson now) := by
  have hauth := authorize_eq_ok host.caps host.sink .uiUpdateState none
    s!"ui update-state patch={Text.byteLen patchJson}B"
  unfold updateState
  generalize authorize host.caps host.sink .uiUpdateState none
    s!"ui update-state patch={Text.byteLen patchJson}B" = decision at hauth
  obtain ⟨decision,event⟩ := decision
  cases decision with
  | error e =>
    refine .refused .notAllowed (fun next hacc => ?_) rfl rfl rfl rfl
    have hallowed := hauth.mpr hacc.1
    cases hallowed
  | ok u =>
    have hallowed := hauth.mp rfl
    by_cases hrate : maxUpdateRatePerSec ≤ (rollWindow host.ui now).windowCount
    · simp only [hrate, ↓reduceIte]
      exact .refused .updateRateExceeded (fun next hacc => absurd hacc.2.1 (not_lt.mpr hrate)) rfl
        (by simp) (by simp) (by simp)
    · simp only [hrate, ↓reduceIte]
      have hfits := nextState_eq_ok_iff fromStr toVec (countUpdate (rollWindow host.ui now))
        patchJson
      rw [countUpdate_state, countUpdate_schema, rollWindow_state, rollWindow_schema] at hfits
      cases hnext : nextState fromStr toVec (countUpdate (rollWindow host.ui now)) patchJson with
      | error e =>
        refine .refused e (fun next hacc => ?_) rfl (by simp) (by simp) (by simp)
        have hok := (hfits next).mpr hacc.2.2
        rw [hnext] at hok
        cases hok
      | ok next =>
        have hacc : Accepts fromStr toVec host patchJson now next :=
          ⟨hallowed,not_le.mp hrate,(hfits next).mp hnext⟩
        by_cases hroom : host.ui.tx.HasRoom
        · refine .sent next hacc hroom ?_ ?_ ?_ ?_ <;>
            simp [commit, Channel.trySend_of_hasRoom _ hroom]
        · obtain ⟨e,he⟩ := Channel.trySend_of_not_hasRoom host.ui.tx hroom
            ⟨host.id,host.ui.seq + 1,next⟩
          refine .dropped next hacc hroom ?_ ?_ ?_ ?_ <;> simp [commit, he]

/-- The host together with what the user interface has received and the number of updates that
succeeded. -/
structure UiSystem where
  host : InstanceHostState
  delivered : List UiUpdate
  succeeded : ℕ

inductive UiEvent where
  | update (patchJson : String) (now : ℕ)
  | drain
  | dropReceiver

def UiSystem.withTx (s : UiSystem) (tx : Channel UiUpdate) : UiSystem :=
  { s with host := { s.host with ui := { s.host.ui with tx := tx } } }

def UiSystem.next (s : UiSystem) : UiEvent → UiSystem
  | .update patchJson now =>
    let out := updateState fromStr toVec s.host patchJson now
    match out.result with
    | .ok _ => ⟨out.host,s.delivered,s.succeeded + 1⟩
    | .error _ => ⟨out.host,s.delivered,s.succeeded⟩
  | .drain =>
    match s.host.ui.tx.recv with
    | none => s
    | some (update,tx) => { s.withTx tx with delivered := s.delivered ++ [update] }
  | .dropReceiver => s.withTx s.host.ui.tx.close

/-- A new instance: the given state, no update sent. -/
def UiSystem.Initial (initial : Json) (s : UiSystem) : Prop :=
  s.host.ui.state = initial ∧ s.host.ui.seq = 0 ∧ s.host.ui.windowCount = 0 ∧
    s.host.ui.tx = Channel.empty queueCapacity ∧ s.delivered = [] ∧ s.succeeded = 0

def uiSystem (initial : Json) : System UiSystem UiEvent :=
  System.ofFunction (UiSystem.Initial initial) (UiSystem.next fromStr toVec)

theorem reachable_uiEvents {initial : Json} {s : UiSystem}
    (h : (uiSystem fromStr toVec initial).Reachable s) (es : List UiEvent) :
    (uiSystem fromStr toVec initial).Reachable (es.foldl (UiSystem.next fromStr toVec) s) :=
  System.reachable_foldl h es

/-- An update that passes all checks finds room in the channel. -/
def RoomWhenAccepted (s : UiSystem) : UiEvent → Prop
  | .update patchJson now =>
    ∀ next, Accepts fromStr toVec s.host patchJson now next → s.host.ui.tx.HasRoom
  | _ => True

/-- The receiver is there and has taken everything that was sent. -/
def UiSystem.Drained (s : UiSystem) : Prop :=
  s.host.ui.tx.isOpen = true ∧ s.host.ui.tx.queue = []

/-- The newest snapshot that left the host carries its state, or there is none yet. -/
def LastSent (initial : Json) (s : UiSystem) : Prop :=
  match (s.delivered ++ s.host.ui.tx.queue).getLast? with
  | some update => update.state = s.host.ui.state ∧ update.seq = s.host.ui.seq
  | none => s.succeeded = 0 ∧ s.host.ui.state = initial

/-- While the receiver is there, the newest snapshot is up to date. -/
def UiInvariant (initial : Json) (s : UiSystem) : Prop :=
  s.host.ui.tx.isOpen = true → LastSent initial s

theorem uiInvariant_next {initial : Json} {s : UiSystem} {e : UiEvent}
    (hs : UiInvariant initial s) (he : RoomWhenAccepted fromStr toVec s e) :
    UiInvariant initial (s.next fromStr toVec e) := by
  intro hopen
  cases e with
  | update patchJson now =>
    unfold UiSystem.next at hopen ⊢
    rcases updateState_effect fromStr toVec s.host patchJson now with
      ⟨e,-,hresult,hstate,hseq,htx⟩ | ⟨next,-,hroom,hresult,hstate,hseq,htx⟩ |
      ⟨next,hacc,hroom,-,-,-,-⟩
    · simp only [hresult, htx] at hopen ⊢
      have hlast := hs hopen
      unfold LastSent at hlast ⊢
      simpa only [htx, hstate, hseq] using hlast
    · simp only [hresult] at hopen ⊢
      unfold LastSent
      rw [htx, Channel.queue_push, ← List.append_assoc, List.getLast?_concat]
      exact ⟨hstate.symm,hseq.symm⟩
    · exact absurd (he next hacc) hroom
  | drain =>
    unfold UiSystem.next at hopen ⊢
    cases hrecv : s.host.ui.tx.recv with
    | none =>
      simp only [hrecv] at hopen ⊢
      exact hs hopen
    | some r =>
      obtain ⟨update,tx⟩ := r
      obtain ⟨hqueue,htxopen,-⟩ := Channel.queue_of_recv hrecv
      simp only [hrecv, UiSystem.withTx] at hopen ⊢
      have hlast := hs (htxopen ▸ hopen)
      unfold LastSent at hlast ⊢
      rw [hqueue] at hlast
      simpa using hlast
  | dropReceiver => simp [UiSystem.next, UiSystem.withTx] at hopen

/-- In a run in which every accepted update finds room, an update that returns an error leaves
state and sequence number as they were, precisely when it is not accepted into a full or closed
channel; and once the channel is drained, the last delivered snapshot carries the state. -/
theorem updateState_atomic (initial : Json) (s : UiSystem)
    (h : (uiSystem fromStr toVec initial).ReachableWhen (RoomWhenAccepted fromStr toVec) s) :
    (∀ patchJson now,
      (∀ e, (updateState fromStr toVec s.host patchJson now).result = .error e →
        (updateState fromStr toVec s.host patchJson now).host.ui.state = s.host.ui.state ∧
        (updateState fromStr toVec s.host patchJson now).host.ui.seq = s.host.ui.seq) ↔
      RoomWhenAccepted fromStr toVec s (.update patchJson now)) ∧
    (s.Drained →
      (∃ update, s.delivered.getLast? = some update ∧ update.state = s.host.ui.state) ∨
      (s.succeeded = 0 ∧ s.host.ui.state = initial)) := by
  have hinv : UiInvariant initial s := by
    refine h.invariant (UiInvariant initial) ?_ ?_
    · rintro s ⟨hstate,-,-,htx,hdelivered,hsucceeded⟩ -
      simp [LastSent, htx, hdelivered, hsucceeded, hstate]
    · rintro s e s' hs he rfl
      exact uiInvariant_next fromStr toVec hs he
  refine ⟨fun patchJson now => ?_,?_⟩
  · rcases updateState_effect fromStr toVec s.host patchJson now with
      ⟨e,hno,hresult,hstate,hseq,-⟩ | ⟨next,-,hroom,hresult,-,-,-⟩ |
      ⟨next,hacc,hroom,hresult,-,hseq,-⟩
    · exact iff_of_true (fun _ _ => ⟨hstate,hseq⟩) (fun next hacc => absurd hacc (hno next))
    · exact iff_of_true (fun e he => by rw [hresult] at he; cases he) (fun _ _ => hroom)
    · refine iff_of_false (fun hsame => ?_) (fun hall => hroom (hall next hacc))
      have hkept := (hsame _ hresult).2
      omega
  · rintro ⟨hopen,hqueue⟩
    have hlast := hinv hopen
    unfold LastSent at hlast
    rw [hqueue, List.append_nil] at hlast
    cases hd : s.delivered.getLast? with
    | none =>
      rw [hd] at hlast
      exact Or.inr hlast
    | some update =>
      rw [hd] at hlast
      exact Or.inl ⟨update,rfl,hlast.1⟩

end Serde

/-- The JSON library on the empty object. -/
def parseEmptyObject (s : String) : Option Json := if s = "{}" then some (.object []) else none

def writeEmptyObject : Json → Option (List UInt8)
  | .object [] => some [0x7B,0x7D]
  | _ => none

/-- A new instance with an empty state that admits any field. -/
def newInstance : UiSystem where
  host := ⟨[⟨.uiUpdateState,none,.derivedFromInstall⟩],⟨"org.example.clock",1⟩,⟨1⟩,
    ⟨.object [],.object [] [] true,Channel.empty queueCapacity,0,0,0⟩⟩
  delivered := []
  succeeded := 0

theorem newInstance_initial : UiSystem.Initial (.object []) newInstance :=
  ⟨rfl,rfl,rfl,rfl,rfl,rfl⟩

/-- One update, not yet taken by the user interface. -/
def sentInstance : UiSystem :=
  newInstance.next parseEmptyObject writeEmptyObject (.update "{}" 1)

theorem sentInstance_delivered :
    (∃ update, (sentInstance.next parseEmptyObject writeEmptyObject .drain).delivered.getLast? =
        some update ∧ update.state = .object []) ∨
      (sentInstance.succeeded = 0 ∧ sentInstance.host.ui.state = .object []) := by
  have hsent : (uiSystem parseEmptyObject writeEmptyObject (.object [])).ReachableWhen
      (RoomWhenAccepted parseEmptyObject writeEmptyObject) sentInstance :=
    (System.ReachableWhen.of_init newInstance_initial).next (i := .update "{}" 1)
      (fun _ _ => by decide) rfl
  have hdrained := hsent.next (i := UiEvent.drain) trivial rfl
  exact (updateState_atomic parseEmptyObject writeEmptyObject (.object []) _ hdrained).2 ⟨rfl,rfl⟩

/-- One update a second, as many as the channel holds. -/
def stalledUpdates : List UiEvent :=
  (List.range queueCapacity).map (fun i => .update "{}" ((i + 1) * 1000000000))

def stalledInstance : UiSystem :=
  stalledUpdates.foldl (UiSystem.next parseEmptyObject writeEmptyObject) newInstance

/-- When the user interface takes none of them, the update after that returns an error and has
nevertheless advanced the sequence number. -/
theorem stalledInstance_not_atomic :
    (uiSystem parseEmptyObject writeEmptyObject (.object [])).Reachable stalledInstance ∧
    (updateState parseEmptyObject writeEmptyObject stalledInstance.host "{}"
      65000000000).result = .error .queueFull ∧
    stalledInstance.host.ui.seq = 64 ∧
    (updateState parseEmptyObject writeEmptyObject stalledInstance.host "{}"
      65000000000).host.ui.seq = 65 := by
  refine ⟨?_,?_,?_,?_⟩
  · unfold stalledInstance
    exact reachable_uiEvents parseEmptyObject writeEmptyObject
      ⟨newInstance,newInstance_initial,Relation.ReflTransGen.refl⟩ stalledUpdates
  · decide +kernel
  · decide +kernel
  · decide +kernel

end Floatile.Runtime
