import Floatile.Core.Capability
import Floatile.Core.Connection
import Floatile.Lib.Checked
import Floatile.Lib.Trace
import Mathlib.Data.String.Basic

/-! The services that a broker executes inside the process: log, clock, timers, storage, metrics
and theme. Times are in nanoseconds; the clock is read once in a call. -/
namespace Floatile.Services

open Floatile.Core
open Floatile.Core.Capability
open Floatile.Lib Floatile.Lib.Trace
open Floatile.Lib.Checked (Fails)

/-- What a service does beyond computing an answer. Transport requests are sent by the work of
an operation, which runs after the call that submitted it. -/
inductive ServiceEffect where
  | storageAccess (key : String)
  | timerSchedule (id : ℕ)
  | vaultRead (credential : CredentialRef)
  | healthChange (connection : ConnectionId) (health : ConnectionHealth)
  | transportRequest (url : String)
  | operationSubmit (capability : CapabilityId)
  deriving DecidableEq

inductive LogError where
  | rateExceeded
  | messageTooLarge
  deriving DecidableEq, Repr

inductive TimerError where
  | notAllowed
  | budgetExceeded
  | invalidDelay
  | invalidTimerId
  | unavailable
  deriving DecidableEq, Repr

inductive StorageError where
  | notAllowed
  | invalidKey
  | quotaExceeded
  | unavailable
  | internal
  deriving DecidableEq, Repr

inductive MetricsError where
  | notAllowed
  | rateExceeded
  | unavailable
  deriving DecidableEq, Repr

inductive ThemeError where
  | notAllowed
  | unknownToken
  | invalidSubscription
  | unavailable
  deriving DecidableEq, Repr

def LogError.ofDenyReason (_ : DenyReason) : LogError := .rateExceeded

def TimerError.ofDenyReason : DenyReason → TimerError
  | .quotaExceeded => .budgetExceeded
  | _ => .notAllowed

def StorageError.ofDenyReason : DenyReason → StorageError
  | .quotaExceeded => .quotaExceeded
  | _ => .notAllowed

def MetricsError.ofDenyReason : DenyReason → MetricsError
  | .quotaExceeded => .rateExceeded
  | _ => .notAllowed

def ThemeError.ofDenyReason (_ : DenyReason) : ThemeError := .notAllowed

def minute : ℕ := 60 * 10^9

/-- Uses counted since the start of the current minute. -/
structure RateWindow where
  started : ℕ
  used : ℕ
  deriving DecidableEq, Repr

def RateWindow.roll (window : RateWindow) (now : ℕ) : RateWindow :=
  if minute ≤ now - window.started then ⟨now,0⟩ else window

def RateWindow.count (window : RateWindow) : RateWindow := { window with used := window.used + 1 }

/-- A later minute, or the same minute with at least the same uses. -/
def RateWindow.Before (window later : RateWindow) : Prop :=
  window.started < later.started ∨ later.started = window.started ∧ window.used ≤ later.used

namespace RateWindow

theorem Before.refl (window : RateWindow) : window.Before window := .inr ⟨rfl,le_rfl⟩

theorem Before.trans {a b c : RateWindow} (h : a.Before b) (h' : b.Before c) : a.Before c := by
  unfold Before at *
  omega

theorem before_roll (window : RateWindow) (now : ℕ) : window.Before (window.roll now) := by
  unfold roll
  split_ifs with hminute
  · have : 0 < minute := by decide
    exact .inl (by dsimp only; omega)
  · exact .refl window

theorem before_count (window : RateWindow) : window.Before window.count :=
  .inr ⟨rfl,Nat.le_succ _⟩

end RateWindow

inductive LogLevel where
  | debug
  | info
  | warn
  | error
  deriving DecidableEq, Repr

def maxMessageChars : ℕ := 4096

/-- The entries written so far stand for the tracing output. -/
structure LogService where
  maxPerMinute : ℕ
  window : RateWindow
  written : List (LogLevel × String)

def LogService.new (now : ℕ) : LogService := ⟨60,⟨now,0⟩,[]⟩

def LogService.log (s : LogService) (now : ℕ) (level : LogLevel) (message : String) :
    Outcome LogService ServiceEffect (Except LogError Unit) :=
  let window := s.window.roll now
  if s.maxPerMinute ≤ window.used then ⟨.error .rateExceeded,{ s with window := window },[]⟩
  else
    let s := { s with window := window.count }
    if maxMessageChars < Text.charCount message then ⟨.error .messageTooLarge,s,[]⟩
    else ⟨.ok (),{ s with written := (level,message) :: s.written },[]⟩

def LogService.Accepts (s : LogService) (now : ℕ) (message : String) : Prop :=
  (s.window.roll now).used < s.maxPerMinute ∧ Text.charCount message ≤ maxMessageChars

theorem LogService.log_fails_iff (s : LogService) (now : ℕ) (level : LogLevel)
    (message : String) : Fails (s.log now level message).result ↔ ¬s.Accepts now message := by
  unfold LogService.log LogService.Accepts
  dsimp only
  split_ifs with hrate hlength
  · simp [not_lt.mpr hrate]
  · simp [not_le.mpr hlength]
  · simp [not_le.mp hrate, not_lt.mp hlength]

structure ClockSnapshot where
  unixMillis : ℕ
  utcOffsetMinutes : ℤ
  deriving DecidableEq, Repr

/-- The wall clock in milliseconds, cut off at 64 bits. -/
def clockSnapshot (unixMillis : ℕ) : ClockSnapshot := ⟨min unixMillis (2^64 - 1),0⟩

/-- An active timer, with the flag that its cancellation raises. -/
structure ActiveTimer where
  flag : ℕ
  deriving DecidableEq

/-- A task that sleeps until its timer is due and then looks at the flag. -/
structure SleepingTask where
  id : ℕ
  flag : ℕ
  due : ℕ
  deriving DecidableEq

structure TimerService where
  nextId : ℕ
  active : OrdMap ℕ ActiveTimer
  maxPerMinute : ℕ
  maxActive : ℕ
  window : RateWindow
  flags : ℕ
  cancelled : List ℕ
  sleeping : List SleepingTask

def TimerService.new (now : ℕ) : TimerService where
  nextId := 1
  active := OrdMap.empty
  maxPerMinute := 60
  maxActive := 8
  window := ⟨now,0⟩
  flags := 0
  cancelled := []
  sleeping := []

def TimerService.setQuota (s : TimerService) (maxPerMinute maxActive : ℕ) : TimerService :=
  { s with maxPerMinute := maxPerMinute, maxActive := maxActive }

/-- Identifiers are 32 bits wide and skip zero. -/
def nextTimerId (id : ℕ) : ℕ := max ((id + 1) % 2^32) 1

def TimerService.schedule (s : TimerService) (now delayMs : ℕ) :
    Outcome TimerService ServiceEffect (Except TimerError ℕ) :=
  if delayMs = 0 then ⟨.error .invalidDelay,s,[]⟩
  else
    let s := { s with window := s.window.roll now }
    if s.maxPerMinute ≤ s.window.used then ⟨.error .budgetExceeded,s,[]⟩
    else if s.maxActive ≤ s.active.entries.length then ⟨.error .budgetExceeded,s,[]⟩
    else
      let id := s.nextId
      let s := { s with
        window := s.window.count
        nextId := nextTimerId id
        active := s.active.insert id ⟨s.flags⟩
        flags := s.flags + 1
        sleeping := ⟨id,s.flags,now + delayMs * 10^6⟩ :: s.sleeping }
      ⟨.ok id,s,[.timerSchedule id]⟩

def TimerService.CanSchedule (s : TimerService) (now delayMs : ℕ) : Prop :=
  delayMs ≠ 0 ∧ (s.window.roll now).used < s.maxPerMinute ∧ s.active.entries.length < s.maxActive

instance (s : TimerService) (now delayMs : ℕ) : Decidable (s.CanSchedule now delayMs) :=
  inferInstanceAs (Decidable (_ ∧ _ ∧ _))

theorem TimerService.schedule_fails_iff (s : TimerService) (now delayMs : ℕ) :
    Fails (s.schedule now delayMs).result ↔ ¬s.CanSchedule now delayMs := by
  unfold TimerService.schedule TimerService.CanSchedule
  dsimp only
  split_ifs with hdelay hrate hactive
  · simp [hdelay]
  · simp [not_lt.mpr hrate]
  · simp [not_lt.mpr hactive]
  · simp [hdelay, not_le.mp hrate, not_le.mp hactive]

/-- A timer that cannot be scheduled changes the window at most. -/
theorem TimerService.schedule_cases (s : TimerService) (now delayMs : ℕ) :
    (Fails (s.schedule now delayMs).result ∧
      ∃ window, (s.schedule now delayMs).state = { s with window := window }) ∨
    (s.CanSchedule now delayMs ∧ (s.schedule now delayMs).result = .ok s.nextId ∧
      (s.schedule now delayMs).state = { s with
        window := (s.window.roll now).count
        nextId := nextTimerId s.nextId
        active := s.active.insert s.nextId ⟨s.flags⟩
        flags := s.flags + 1
        sleeping := ⟨s.nextId,s.flags,now + delayMs * 10^6⟩ :: s.sleeping }) := by
  unfold TimerService.schedule TimerService.CanSchedule
  dsimp only
  split_ifs with hdelay hrate hactive
  · exact .inl ⟨Checked.fails_error _,s.window,rfl⟩
  · exact .inl ⟨Checked.fails_error _,s.window.roll now,rfl⟩
  · exact .inl ⟨Checked.fails_error _,s.window.roll now,rfl⟩
  · exact .inr ⟨⟨hdelay,not_le.mp hrate,not_le.mp hactive⟩,rfl,rfl⟩

def TimerService.cancel (s : TimerService) (id : ℕ) :
    Outcome TimerService ServiceEffect (Except TimerError Unit) :=
  match s.active.get id with
  | some timer => ⟨.ok (),{ s with
      active := s.active.erase id
      cancelled := timer.flag :: s.cancelled },[]⟩
  | none => ⟨.error .invalidTimerId,s,[]⟩

theorem TimerService.cancel_fails_iff (s : TimerService) (id : ℕ) :
    Fails (s.cancel id).result ↔ s.active.get id = none := by
  unfold TimerService.cancel
  cases s.active.get id <;> simp

theorem TimerService.cancel_cases (s : TimerService) (id : ℕ) :
    (s.active.get id = none ∧ (s.cancel id).state = s) ∨
    ∃ timer, s.active.get id = some timer ∧ (s.cancel id).state = { s with
      active := s.active.erase id
      cancelled := timer.flag :: s.cancelled } := by
  unfold TimerService.cancel
  cases hget : s.active.get id with
  | none => exact .inl ⟨rfl,rfl⟩
  | some timer => exact .inr ⟨timer,rfl,rfl⟩

def TimerService.complete (s : TimerService) (id : ℕ) : TimerService :=
  { s with active := s.active.erase id }

structure StorageService where
  data : OrdMap String String
  totalBytes : ℕ
  maxBytes : ℕ

def StorageService.new (maxBytes : ℕ) : StorageService := ⟨OrdMap.empty,0,maxBytes⟩

def validKey (key : String) : Except StorageError Unit :=
  if key.isEmpty || Text.containsChar key '\x00' || 256 < Text.charCount key then
    .error .invalidKey
  else .ok ()

def StorageService.get (s : StorageService) (key : String) :
    Outcome StorageService ServiceEffect (Except StorageError (Option String)) :=
  match validKey key with
  | .error e => ⟨.error e,s,[]⟩
  | .ok () => ⟨.ok (s.data.get key),s,[.storageAccess key]⟩

theorem StorageService.get_fails_iff (s : StorageService) (key : String) :
    Fails (s.get key).result ↔ Fails (validKey key) := by
  unfold StorageService.get
  cases validKey key <;> simp

/-- The total after a value is stored under a key. -/
def StorageService.totalWith (s : StorageService) (key value : String) : ℕ :=
  s.totalBytes - ((s.data.get key).map Text.byteLen).getD 0 + Text.byteLen value

def StorageService.set (s : StorageService) (key value : String) :
    Outcome StorageService ServiceEffect (Except StorageError Unit) :=
  match validKey key with
  | .error e => ⟨.error e,s,[]⟩
  | .ok () =>
    let newTotal := s.totalWith key value
    if s.maxBytes < newTotal then ⟨.error .quotaExceeded,s,[.storageAccess key]⟩
    else ⟨.ok (),{ s with
      totalBytes := newTotal
      data := s.data.insert key value },[.storageAccess key]⟩

theorem StorageService.set_fails_iff (s : StorageService) (key value : String) :
    Fails (s.set key value).result ↔
      Fails (validKey key) ∨ s.maxBytes < s.totalWith key value := by
  unfold StorageService.set
  cases validKey key with
  | error e => simp
  | ok u =>
    dsimp only
    split_ifs with hquota <;> simp [hquota]

def StorageService.delete (s : StorageService) (key : String) :
    Outcome StorageService ServiceEffect (Except StorageError Unit) :=
  match validKey key with
  | .error e => ⟨.error e,s,[]⟩
  | .ok () =>
    match s.data.get key with
    | some value => ⟨.ok (),{ s with
        data := s.data.erase key
        totalBytes := s.totalBytes - Text.byteLen value },[.storageAccess key]⟩
    | none => ⟨.ok (),s,[.storageAccess key]⟩

theorem StorageService.delete_fails_iff (s : StorageService) (key : String) :
    Fails (s.delete key).result ↔ Fails (validKey key) := by
  unfold StorageService.delete
  cases validKey key with
  | error e => simp
  | ok u => cases s.data.get key <;> simp

/-- What the platform reports about the process. -/
structure ProcessMetrics where
  rssBytes : ℕ
  cpuTime : ℕ
  deriving DecidableEq, Repr

structure MemorySnapshot where
  rssKib : ℕ
  virtualKib : ℕ
  deriving DecidableEq, Repr

structure MetricsService where
  last : Option (ℕ × ℕ)
  lastSample : Option ℕ
  minInterval : ℕ
  deriving DecidableEq, Repr

def MetricsService.new (sampleRateHz : ℕ) : MetricsService :=
  ⟨none,none,if sampleRateHz = 0 then 0 else 10^9 / sampleRateHz⟩

def asSecsFloat (nanos : ℕ) : Float :=
  Float.ofNat (nanos / 10^9) + Float.ofNat (nanos % 10^9) / 1e9

def computeCpuPercent (cpuSecs wallSecs : Float) : Float :=
  if wallSecs ≤ 0 then 0
  else
    let percent := cpuSecs / wallSecs * 100
    if percent < 0 then 0 else if 100 < percent then 100 else percent

def MetricsService.tooEarly (s : MetricsService) (now : ℕ) : Bool :=
  match s.lastSample with
  | some prev => now - prev < s.minInterval
  | none => false

def MetricsService.cpuPercent (s : MetricsService) (now : ℕ) (process : Option ProcessMetrics) :
    Outcome MetricsService ServiceEffect (Except MetricsError Float) :=
  if s.tooEarly now then ⟨.error .rateExceeded,s,[]⟩
  else
    let s := { s with lastSample := some now }
    match process with
    | none => ⟨.error .unavailable,s,[]⟩
    | some sample =>
      let s' := { s with last := some (now,sample.cpuTime) }
      match s.last with
      | none => ⟨.ok 0,s',[]⟩
      | some (prevNow,prevCpu) =>
        let wall := asSecsFloat (now - prevNow)
        if wall ≤ 0 then ⟨.ok 0,s',[]⟩
        else
          let cpu := asSecsFloat sample.cpuTime - asSecsFloat prevCpu
          ⟨.ok (computeCpuPercent cpu wall),s',[]⟩

theorem MetricsService.cpuPercent_fails_iff (s : MetricsService) (now : ℕ)
    (process : Option ProcessMetrics) :
    Fails (s.cpuPercent now process).result ↔ s.tooEarly now = true ∨ process = none := by
  unfold MetricsService.cpuPercent
  cases htooEarly : s.tooEarly now with
  | true => simp
  | false =>
    cases process with
    | none => simp
    | some sample =>
      cases s.last with
      | none => simp
      | some prev =>
        simp only [Bool.false_eq_true, if_false]
        split_ifs <;> simp

def MetricsService.memory (s : MetricsService) (process : Option ProcessMetrics) :
    Outcome MetricsService ServiceEffect (Except MetricsError MemorySnapshot) :=
  match process with
  | none => ⟨.error .unavailable,s,[]⟩
  | some sample => ⟨.ok ⟨sample.rssBytes / 1024,0⟩,s,[]⟩

theorem MetricsService.memory_fails_iff (s : MetricsService) (process : Option ProcessMetrics) :
    Fails (s.memory process).result ↔ process = none := by
  cases process <;> simp [MetricsService.memory]

def defaultTokens : List (String × String) :=
  [("color.background","#1e1e2e"),("color.foreground","#cdd6f4"),("color.accent","#89b4fa"),
    ("font.monospace","monospace")]

structure ThemeService where
  tokens : OrdMap String String
  subscriptions : OrdMap ℕ Unit
  nextSubscription : ℕ

def ThemeService.new : ThemeService := ⟨OrdMap.ofList defaultTokens,OrdMap.empty,1⟩

def ThemeService.getToken (s : ThemeService) (name : String) :
    Outcome ThemeService ServiceEffect (Except ThemeError (Option String)) :=
  match s.tokens.get name with
  | none => ⟨.error .unknownToken,s,[]⟩
  | some token => ⟨.ok (some token),s,[]⟩

theorem ThemeService.getToken_fails_iff (s : ThemeService) (name : String) :
    Fails (s.getToken name).result ↔ s.tokens.get name = none := by
  unfold ThemeService.getToken
  cases s.tokens.get name <;> simp

def ThemeService.subscribe (s : ThemeService) :
    Outcome ThemeService ServiceEffect (Except ThemeError ℕ) :=
  let id := s.nextSubscription
  ⟨.ok id,{ s with
    nextSubscription := nextTimerId id
    subscriptions := s.subscriptions.insert id () },[]⟩

def ThemeService.unsubscribe (s : ThemeService) (id : ℕ) :
    Outcome ThemeService ServiceEffect (Except ThemeError Unit) :=
  match s.subscriptions.get id with
  | some () => ⟨.ok (),{ s with subscriptions := s.subscriptions.erase id },[]⟩
  | none => ⟨.error .invalidSubscription,s,[]⟩

theorem ThemeService.unsubscribe_fails_iff (s : ThemeService) (id : ℕ) :
    Fails (s.unsubscribe id).result ↔ s.subscriptions.get id = none := by
  unfold ThemeService.unsubscribe
  cases s.subscriptions.get id <;> simp

end Floatile.Services
