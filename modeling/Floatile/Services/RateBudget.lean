import Floatile.Services.Confinement

/-! How many requests an instance starts for the operations admitted in one rate window. The
budget is charged once for an operation, whatever the number of its attempts, and is that of the
last network grant. -/
namespace Floatile.Services

open Floatile.Core
open Floatile.Core.Capability Floatile.Core.Operation
open Floatile.Lib Floatile.Lib.Transition
open Floatile.Services.Operation

/-- The rate of the network grant that authorizes requests. -/
def networkRate (caps : List Grant) : ℕ :=
  match (findGrant caps .networkHttps).bind Grant.params with
  | some (.network _ maxRequestsPerMinute _ _) => maxRequestsPerMinute
  | _ => 0

def networkRateOf (g : Grant) : Option ℕ :=
  match g.capability, g.params with
  | .networkHttps, some (.network _ maxRequestsPerMinute _ _) => some maxRequestsPerMinute
  | _, _ => none

def networkRates (caps : List Grant) : List ℕ := caps.filterMap networkRateOf

/-- The rate that a broker takes from its grants: that of the last network grant. -/
def chargedRate (caps : List Grant) : ℕ := (networkRates caps).getLast?.getD 0

theorem read_httpsRateMax (q : Quotas) (g : Grant) :
    (q.read g).httpsRateMax = (networkRateOf g).getD q.httpsRateMax := by
  obtain ⟨capability,params,source⟩ := g
  unfold Quotas.read networkRateOf
  cases capability <;> rcases params with _ | params <;> first | rfl | cases params <;> rfl

theorem quotas_httpsRateMax (caps : List Grant) (q : Quotas) :
    (caps.foldl Quotas.read q).httpsRateMax =
      (networkRates caps).getLast?.getD q.httpsRateMax := by
  induction caps generalizing q with
  | nil => rfl
  | cons g caps ih =>
    rw [List.foldl_cons, ih, read_httpsRateMax, networkRates, networkRates, List.filterMap_cons]
    cases networkRateOf g with
    | none => rfl
    | some rate => simp [List.getLast?_cons]

/-- Inherent capabilities are added without parameters. -/
theorem networkRates_mergeInherent (caps : List Grant) :
    networkRates (mergeInherent caps) = networkRates caps := by
  unfold mergeInherent
  induction capabilityRegistry.filter (fun d => d.exposure = .inherent) generalizing caps with
  | nil => rfl
  | cons d defs ih =>
    rw [List.foldl_cons, ih]
    split_ifs
    · rfl
    · simp [networkRates, networkRateOf]

theorem networkRateOf_of_ne {g : Grant} (h : g.capability ≠ .networkHttps) :
    networkRateOf g = none := by
  unfold networkRateOf
  split
  · contradiction
  · rfl

/-- A single network grant is charged with the rate that it authorizes. -/
theorem chargedRate_eq_of_single {caps : List Grant}
    (h : (caps.filter (fun g => g.capability = .networkHttps)).length ≤ 1) :
    chargedRate caps = networkRate caps := by
  have hrates : networkRates caps =
      networkRates (caps.filter (fun g => g.capability = .networkHttps)) := by
    unfold networkRates
    rw [List.filterMap_filter]
    refine List.filterMap_congr fun g _ => ?_
    by_cases hg : g.capability = .networkHttps
    · simp [hg]
    · simp [hg, networkRateOf_of_ne hg]
  have hfound : findGrant caps .networkHttps =
      (caps.filter (fun g => g.capability = .networkHttps)).head? := by
    rw [findGrant, List.head?_filter]
  unfold chargedRate networkRate
  rw [hrates, hfound]
  cases hgrants : caps.filter (fun g => g.capability = .networkHttps) with
  | nil => rfl
  | cons g others =>
    have hmem : g ∈ caps.filter (fun g => g.capability = .networkHttps) := by simp [hgrants]
    have hg : g.capability = .networkHttps := by simpa using List.of_mem_filter hmem
    rw [hgrants] at h
    obtain rfl : others = [] := List.length_eq_zero_iff.mp (by simpa using h)
    simp only [networkRates, networkRateOf, List.filterMap_cons, List.filterMap_nil,
      List.head?_cons, Option.bind_some, hg]
    cases g.params with
    | none => rfl
    | some params => cases params <;> rfl

theorem RateWindow.roll_cases (rate : RateWindow) (now : ℕ) :
    rate.roll now = rate ∨ rate.started < (rate.roll now).started ∧ (rate.roll now).used = 0 := by
  unfold RateWindow.roll
  split_ifs with hminute
  · have : 0 < minute := by decide
    exact .inr ⟨by dsimp only; omega,rfl⟩
  · exact .inl rfl

def AttemptPhase.isSleeping : AttemptPhase → Bool
  | .sleeping _ _ => true
  | _ => false

namespace HttpsHost

variable {υ : Type} {lib : HttpLibrary υ}

/-- The calls of the transport for the operations admitted in a window. -/
def executesIn (s : HttpsHost υ) (window : ℕ) : ℕ :=
  s.handed.countP (fun r => r.window = window)

def firstsIn (s : HttpsHost υ) (window : ℕ) : ℕ :=
  s.handed.countP (fun r => r.window = window ∧ r.attempt = 0)

def admittedIn (s : HttpsHost υ) (window : ℕ) : ℕ := s.admitted.count window

/-- The admitted operations that have not started yet. -/
def freshIn (s : HttpsHost υ) (window : ℕ) : ℕ :=
  s.tasks.entries.countP (fun e => e.2.phase = .fresh ∧ e.2.window = window)

/-- No operation is attempted again. -/
def FirstAttempts (s : HttpsHost υ) : HttpsLabel → Prop
  | .advance n _ => ∀ polled ∈ s.polled n, ∀ attempt wake,
    polled.2.2.phase ≠ .sleeping attempt wake
  | _ => True

instance (s : HttpsHost υ) (i : HttpsLabel) : Decidable (s.FirstAttempts i) :=
  match i with
  | .advance n _ => decidable_of_iff
      (∀ polled ∈ s.polled n, polled.2.2.phase.isSleeping = false) <| by
        refine forall₂_congr fun polled _ => ?_
        cases polled.2.2.phase <;> simp [AttemptPhase.isSleeping]
  | .guest _ _ | .timerCompleted _ | .registry _ => inferInstanceAs (Decidable True)

/-- The operations of a window are within its budget, and every one of them starts once. -/
structure WithinRate (s : HttpsHost υ) (window : ℕ) : Prop where
  once : s.firstsIn window + s.freshIn window ≤ s.admittedIn window
  first : ∀ r ∈ s.handed, r.attempt = 0
  past : ∀ w ∈ s.admitted, w ≤ s.broker.httpsRate.started
  current : s.admittedIn s.broker.httpsRate.started ≤ s.broker.httpsRate.used
  charged : s.admittedIn window ≤ s.broker.httpsRateMax

/-- Without further attempts, the requests are the first ones. -/
theorem executesIn_eq {s : HttpsHost υ} (h : ∀ r ∈ s.handed, r.attempt = 0) (window : ℕ) :
    s.executesIn window = s.firstsIn window := by
  unfold executesIn firstsIn
  refine List.countP_congr fun r hr => ?_
  simp [h r hr]

theorem admittedIn_of_past {s : HttpsHost υ} {window : ℕ} (h : ∀ w ∈ s.admitted, w < window) :
    s.admittedIn window = 0 :=
  List.count_eq_zero_of_not_mem fun hmem => (h window hmem).false

/-- A step without a request that starts nothing new. -/
theorem WithinRate.of_eq {s s' : HttpsHost υ} {window : ℕ} (h : s.WithinRate window)
    (hkept : s.broker.Kept s'.broker) (hhanded : s'.handed = s.handed)
    (hadmitted : s'.admitted = s.admitted) (hfresh : s'.freshIn window ≤ s.freshIn window) :
    s'.WithinRate window := by
  obtain ⟨honce,hfirst,hpast,hcurrent,hcharged⟩ := h
  have hwindow := hkept.httpsRate
  unfold RateWindow.Before at hwindow
  refine ⟨?_,hhanded ▸ hfirst,?_,?_,?_⟩
  · simp only [firstsIn, admittedIn, hhanded, hadmitted] at honce ⊢
    omega
  · intro w hw
    have := hpast w (hadmitted ▸ hw)
    omega
  · obtain hlater | ⟨hsame,hused⟩ := hwindow
    · have hnone : s'.admittedIn s'.broker.httpsRate.started = 0 := by
        refine admittedIn_of_past fun w hw => ?_
        exact (hpast w (hadmitted ▸ hw)).trans_lt hlater
      rw [hnone]
      exact Nat.zero_le _
    · simp only [admittedIn, hadmitted, hsame] at hcurrent ⊢
      exact hcurrent.trans hused
  · rw [admittedIn, hadmitted, hkept.httpsRateMax]
    exact hcharged

theorem freshIn_of_get {s : HttpsHost υ} {id : ℕ} {task : HttpTask υ}
    (h : s.tasks.get id = some task) (window : ℕ) :
    s.freshIn window = (s.tasks.erase id).entries.countP
        (fun e => e.2.phase = .fresh ∧ e.2.window = window) +
      if task.phase = .fresh ∧ task.window = window then 1 else 0 := by
  unfold freshIn
  rw [OrdMap.countP_of_get _ _ h]
  simp only [decide_eq_true_eq]

/-- What is admitted in the minute that a submission is charged to, before it. -/
theorem WithinRate.admitted_le {s : HttpsHost υ} {window : ℕ} (h : s.WithinRate window)
    (now : ℕ) : s.admittedIn (s.broker.httpsRate.roll now).started ≤
      (s.broker.httpsRate.roll now).used := by
  obtain hsame | ⟨hlater,-⟩ := RateWindow.roll_cases s.broker.httpsRate now
  · rw [hsame]
    exact h.current
  · rw [admittedIn_of_past fun w hw => (h.past w hw).trans_lt hlater]
    exact Nat.zero_le _

/-- A submission is admitted only while the budget of its window lasts. -/
theorem withinRate_guest {s : HttpsHost υ} {window : ℕ} {w : Surroundings} {call : BrokerCall}
    (h : s.WithinRate window) : (s.guest lib w call).WithinRate window := by
  rcases s.guest_cases lib w call with
    ⟨prepared,templateId,connectionId,query,https,id,operations,state,rfl,-,-,-,hroom,-,-,hguest⟩ |
      hguest
  · have hadmitted := h.admitted_le w.now
    have hbefore := s.broker.httpsRate.before_roll w.now
    obtain ⟨honce,hfirst,hpast,hcurrent,hcharged⟩ := h
    have herase := OrdMap.countP_erase_le
      (fun e : ℕ × HttpTask υ => decide (e.2.phase = .fresh ∧ e.2.window = window)) s.tasks id
    unfold RateWindow.Before at hbefore
    rw [hguest]
    refine ⟨?_,hfirst,?_,?_,?_⟩
    · simp only [firstsIn, freshIn, admittedIn, OrdMap.countP_insert, List.count_cons,
        decide_eq_true_eq, true_and, beq_iff_eq] at honce herase ⊢
      omega
    · intro x hx
      obtain rfl | hx := List.mem_cons.mp hx
      · exact le_rfl
      · have := hpast x hx
        simp only [RateWindow.count]
        omega
    · simp only [admittedIn, RateWindow.count, List.count_cons, beq_self_eq_true, if_true]
        at hadmitted ⊢
      omega
    · by_cases hwindow : (s.broker.httpsRate.roll w.now).started = window
      · subst hwindow
        simp only [admittedIn, List.count_cons, beq_self_eq_true, if_true] at hadmitted ⊢
        omega
      · simp only [admittedIn, List.count_cons, beq_iff_eq, hwindow, if_false] at hcharged ⊢
        omega
  · rw [hguest]
    exact h.of_eq (Broker.kept_call lib w s.broker call) rfl rfl le_rfl

/-- The first attempt of an operation. -/
theorem withinRate_execute {s : HttpsHost υ} {window : ℕ} {job : OperationJob}
    {task : HttpTask υ} (h : s.WithinRate window) (htask : s.tasks.get job.id = some task)
    (hfresh : task.phase = .fresh) : (s.execute job task 0).WithinRate window := by
  obtain ⟨honce,hfirst,hpast,hcurrent,hcharged⟩ := h
  have hbefore := freshIn_of_get htask window
  have hafter : (s.execute job task 0).freshIn window = (s.tasks.erase job.id).entries.countP
      (fun e => e.2.phase = .fresh ∧ e.2.window = window) := by
    simp [freshIn, execute, OrdMap.countP_insert]
  have hfirsts : (s.execute job task 0).firstsIn window = s.firstsIn window +
      if task.window = window then 1 else 0 := by
    simp [firstsIn, execute, List.countP_cons]
  have hadmitted : (s.execute job task 0).admittedIn window = s.admittedIn window := rfl
  refine ⟨?_,?_,hpast,hcurrent,hcharged⟩
  · simp only [hfresh, true_and] at hbefore
    rw [hfirsts, hafter, hadmitted]
    omega
  · intro r hr
    obtain rfl | hr := List.mem_cons.mp hr
    · rfl
    · exact hfirst r hr

theorem withinRate_advance {s s' : HttpsHost υ} {window n : ℕ}
    {answer : Except HttpServiceError HttpResponse} (h : s.WithinRate window)
    (hcond : s.FirstAttempts (.advance n answer)) (hstep : s.advance n answer = some s') :
    s'.WithinRate window := by
  obtain ⟨operations,job,task,hpolled,hcases⟩ := advance_cases hstep
  obtain ⟨-,-,htask⟩ := polled_eq_some hpolled
  obtain ⟨attempt,rfl,⟨hphase,rfl⟩ | ⟨last,wake,hphase,-⟩⟩ |
    ⟨hhanded,hadmitted,-,hkept,htasks⟩ := hcases
  · exact withinRate_execute h htask hphase
  · exact absurd hphase (hcond _ hpolled last wake)
  · refine h.of_eq hkept hhanded hadmitted ?_
    have herase := OrdMap.countP_erase_le
      (fun e : ℕ × HttpTask υ => decide (e.2.phase = .fresh ∧ e.2.window = window))
      s.tasks job.id
    obtain heq | ⟨last,wake,heq⟩ := htasks
    · rw [freshIn, heq]
      exact herase
    · rw [freshIn, heq, OrdMap.countP_insert]
      simp only [reduceCtorEq, false_and, decide_false, Bool.false_eq_true, if_false,
        Nat.add_zero]
      exact herase

theorem withinRate_step {s s' : HttpsHost υ} {window : ℕ} {i : HttpsLabel}
    (h : s.WithinRate window) (hcond : s.FirstAttempts i) (hstep : s.step lib i = some s') :
    s'.WithinRate window := by
  have hkept := kept_step hstep
  cases i with
  | guest w call =>
    cases hstep
    exact withinRate_guest h
  | timerCompleted id =>
    cases hstep
    exact h.of_eq hkept rfl rfl le_rfl
  | registry label =>
    simp only [step] at hstep
    split_ifs at hstep
    cases hstep
    exact h.of_eq hkept rfl rfl le_rfl
  | advance n answer => exact withinRate_advance h hcond hstep

/-- In a run in which no operation is attempted again, the requests for the operations admitted in
a window are no more than the network grant allows in a minute, if the grant that the broker
charges allows no more than it. -/
theorem executes_within_rate {setup : HttpsSetup} {s : HttpsHost υ}
    (hgrants : chargedRate setup.grants.caps ≤ networkRate setup.grants.caps)
    (h : (httpsSystem lib setup).ReachableWhen FirstAttempts s) (window : ℕ) :
    s.executesIn window ≤ networkRate setup.grants.caps := by
  obtain ⟨hwithin,hmax⟩ : s.WithinRate window ∧
      s.broker.httpsRateMax = chargedRate setup.grants.caps := by
    apply h.invariant (fun s => s.WithinRate window ∧
      s.broker.httpsRateMax = chargedRate setup.grants.caps)
    · rintro s ⟨now,owner,limits,counter,state,broker,-,-,hbroker,rfl⟩
      obtain ⟨-,-,-,hmax⟩ := HttpsSetup.broker_eq_ok hbroker
      rw [quotas_httpsRateMax, networkRates_mergeInherent] at hmax
      refine ⟨⟨le_rfl,?_,?_,Nat.zero_le _,Nat.zero_le _⟩,hmax⟩
      · intro r hr
        cases hr
      · intro w hw
        cases hw
    · rintro s i s' ⟨hwithin,hmax⟩ hcond hstep
      exact ⟨withinRate_step hwithin hcond hstep,(kept_step hstep).httpsRateMax.trans hmax⟩
  have honce := hwithin.once
  have hcharged := hwithin.charged
  rw [executesIn_eq hwithin.first]
  omega

/-- The host after its clock has gone on. -/
def waited (s : HttpsHost υ) (n : ℕ) : HttpsHost υ :=
  { s with broker := { s.broker with operations := s.broker.operations.map (fun operations =>
    { operations with state := { operations.state with now := operations.state.now + n } }) } }

theorem foldlM_tick (s : HttpsHost υ) (n : ℕ) :
    (List.replicate n (.registry .tick)).foldlM (step lib) s = some (s.waited n) := by
  induction n generalizing s with
  | zero =>
    have hsame : s.waited 0 = s := by simp [waited]
    rw [hsame]
    rfl
  | succ n ih =>
    have htick : s.step lib (.registry .tick) = some (s.waited 1) := rfl
    rw [List.replicate_succ, List.foldlM_cons, htick, Option.bind_eq_bind, Option.bind_some, ih]
    cases hoperations : s.broker.operations with
    | none => simp [waited, hoperations]
    | some operations =>
      simp only [waited, hoperations, Option.map_some, Nat.add_assoc, Nat.add_comm 1 n]

end HttpsHost

/-- A request that uses up the budget of one request in a minute. -/
theorem balance_within_rate :
    ∃ s, (balanceStart balanceUrl 0).bind (fun s =>
        System.runWhen (HttpsHost.step textUrls) HttpsHost.FirstAttempts s submitBalance) =
          some s ∧ s.executesIn 0 = 1 ∧
      s.executesIn 0 ≤ networkRate (balanceSetup balanceUrl 0).grants.caps := by
  obtain ⟨s,hs⟩ : ∃ s, (balanceStart balanceUrl 0).bind (fun s =>
      System.runWhen (HttpsHost.step textUrls) HttpsHost.FirstAttempts s submitBalance) =
        some s := Option.isSome_iff_exists.mp (by decide +kernel)
  have hexecutes : ((balanceStart balanceUrl 0).bind (fun s =>
      System.runWhen (HttpsHost.step textUrls) HttpsHost.FirstAttempts s submitBalance)).map
        (fun s => s.executesIn 0) = some 1 := by decide +kernel
  rw [hs, Option.map_some, Option.some.injEq] at hexecutes
  obtain ⟨start,hstart,hrun⟩ := Option.bind_eq_some_iff.mp hs
  have hreach := System.reachableWhen_runWhen (.of_init (init_balanceStart hstart)) hrun
  have hgrants : chargedRate (balanceSetup balanceUrl 0).grants.caps ≤
      networkRate (balanceSetup balanceUrl 0).grants.caps :=
    (chargedRate_eq_of_single (by decide)).le
  exact ⟨s,hs,hexecutes,HttpsHost.executes_within_rate hgrants hreach 0⟩

/-- The first attempt fails and the delay of the retry passes. -/
def failBalance : Option (HttpsHost TextUrl) :=
  (balanceRun balanceUrl 1 (submitBalance ++ [.advance 0 (.error .unavailable)])).map
    (fun s => s.waited (millis balanceTemplate.retryBaseDelayMs))

def retryBalance : Option (HttpsHost TextUrl) :=
  failBalance.bind (fun s => s.step textUrls (.advance 0 (.error .unavailable)))

theorem reachable_retryBalance {s : HttpsHost TextUrl} (h : retryBalance = some s) :
    (httpsSystem textUrls (balanceSetup balanceUrl 1)).Reachable s := by
  obtain ⟨before,hbefore,hretry⟩ := Option.bind_eq_some_iff.mp h
  obtain ⟨failed,hfailed,rfl⟩ := Option.map_eq_some_iff.mp hbefore
  have hreach := reachable_balanceRun hfailed
  have hwaited := System.reachable_foldlM hreach
    (HttpsHost.foldlM_tick failed (millis balanceTemplate.retryBaseDelayMs))
  exact hwaited.next trivial hretry

theorem retry_exceeds_rate :
    ¬∀ s, (httpsSystem textUrls (balanceSetup balanceUrl 1)).Reachable s → ∀ window,
      s.executesIn window ≤ networkRate (balanceSetup balanceUrl 1).grants.caps := by
  intro hwithin
  obtain ⟨s,hs⟩ : ∃ s, retryBalance = some s := Option.isSome_iff_exists.mp (by rfl)
  have hexecutes : retryBalance.map (fun s => s.executesIn 0) = some 2 := by rfl
  have hrate : networkRate (balanceSetup balanceUrl 1).grants.caps = 1 := by rfl
  rw [hs, Option.map_some, Option.some.injEq] at hexecutes
  have hle := hwithin s (reachable_retryBalance hs) 0
  rw [hexecutes, hrate] at hle
  omega

end Floatile.Services
