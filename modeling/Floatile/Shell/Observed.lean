import Floatile.Shell.StopSafety

/-! What the shell reports of the instances: a session has the desired generation and the observed
state is its own, as long as nothing is started over a session or over its own launch. -/
namespace Floatile.Shell

open Floatile.Core Floatile.Lib Floatile.Lib.Transition

inductive ObservedInstanceState where
  | starting
  | running
  | failed
  | stopped
  deriving DecidableEq, Repr

structure ObservedInstanceStatus where
  instanceId : ℕ
  state : ObservedInstanceState
  code : Option String
  deriving DecidableEq, Repr

inductive RuntimeUiLifecycleEvent where
  | running
  | failed (code detail : String)
  | stopped
  deriving DecidableEq

/-- The observed states. The second field records which sessions have reported that they run. -/
structure Observed where
  statuses : OrdMap ℕ ObservedInstanceStatus
  reported : OrdMap ℕ Unit

namespace Observed

def empty : Observed := ⟨OrdMap.empty,OrdMap.empty⟩

def setObserved (o : Observed) (id : ℕ) (state : ObservedInstanceState) (code : Option String) :
    Observed :=
  { o with statuses := o.statuses.insert id ⟨id,state,code⟩ }

/-- The session of an instance is gone, or a new one. -/
def forget (o : Observed) (id : ℕ) : Observed := { o with reported := o.reported.erase id }

/-- What an action reports. A start keeps the session that is there, if there is one. -/
def applyAction (scheduled : ℕ → Bool) (o : Observed) : SupervisorAction → Observed
  | .stop id => (o.setObserved id .stopped none).forget id
  | .failure none _ _ _ => o
  | .failure (some id) _ code _ => (o.setObserved id .failed (some code)).forget id
  | .start id _ =>
    let o := o.setObserved id .starting none
    if scheduled id then o else o.setObserved id .failed (some "FINSTANCE_SCHEDULE")

/-- What a step of the supervisor reports. -/
def afterStep {Config : Type} (o : Observed) (s : Supervisor Config) :
    SupervisorLabel Config → Observed
  | .apply scheduled =>
    match s.actions.recv with
    | some (batch,_) => batch.foldl (applyAction scheduled) o
    | none => o
  | .drop => empty
  | _ => o

/-- The end of a launch, with the code of its failure if it failed. -/
def finishLaunch (o : Observed) (ui : Interface) (task : Launch) (failure : Option String) :
    Observed :=
  if ui.desiredGenerations.get task.id = some task.generation then
    match failure with
    | none => o.forget task.id
    | some code => o.setObserved task.id .failed (some code)
  else o

/-- A session reports what became of it. -/
def lifecycle (o : Observed) (id : ℕ) : RuntimeUiLifecycleEvent → Observed
  | .running => { o.setObserved id .running none with reported := o.reported.insert id () }
  | .failed code _ => (o.setObserved id .failed (some code)).forget id
  | .stopped => (o.setObserved id .stopped none).forget id

end Observed

/-- The supervisor with the states that it reports. -/
structure ObservedSupervisor (Config : Type) where
  supervisor : Supervisor Config
  observed : Observed

/-- Steps of the supervisor, with the ends of launches and sessions as they are reported. -/
inductive ObservedLabel (Config : Type) where
  | supervisor (label : SupervisorLabel Config)
  | finishLaunch (n : ℕ) (failure : Option String)
  | lifecycle (id : ℕ) (event : RuntimeUiLifecycleEvent)

namespace ObservedSupervisor

variable {Config : Type} [DecidableEq Config]

def new (table : OrdMap ℕ (InstanceRow Config)) : ObservedSupervisor Config :=
  ⟨Supervisor.new table,Observed.empty⟩

/-- The ends of launches and sessions have labels of their own. -/
def reportedElsewhere : SupervisorLabel Config → Bool
  | .finishLaunch _ _ => true
  | .sessionEnded _ => true
  | _ => false

def step (s : ObservedSupervisor Config) :
    ObservedLabel Config → Option (ObservedSupervisor Config)
  | .supervisor label =>
    if reportedElsewhere label then none
    else (s.supervisor.step label).map
      (fun next => ⟨next,s.observed.afterStep s.supervisor label⟩)
  | .finishLaunch n failure =>
    match s.supervisor.ui.tasks[n]? with
    | none => none
    | some task => (s.supervisor.step (.finishLaunch n failure.isNone)).map
        (fun next => ⟨next,s.observed.finishLaunch s.supervisor.ui task failure⟩)
  | .lifecycle id event =>
    -- only sessions are asked for events
    match s.supervisor.ui.sessions.get id, event with
    | none, _ => none
    | some _, .running => some { s with observed := s.observed.lifecycle id .running }
    | some _, event => (s.supervisor.step (.sessionEnded id)).map
        (fun next => ⟨next,s.observed.lifecycle id event⟩)

end ObservedSupervisor

/-- The interface with what it reports. -/
structure Described (ui : Interface) (o : Observed) : Prop where
  session : ∀ id generation, ui.sessions.get id = some generation →
    ui.desiredGenerations.get id = some generation ∧
    o.statuses.get id = some ⟨id,if (o.reported.get id).isSome then .running else .starting,none⟩
  launch : ∀ task ∈ ui.tasks, ui.desiredGenerations.get task.id = some task.generation →
    o.statuses.get task.id = some ⟨task.id,.starting,none⟩ ∧ ui.sessions.get task.id = none
  once : ui.tasks.Nodup

namespace Described

variable {ui ui' : Interface} {o o' : Observed}

theorem nothing : Described Interface.empty Observed.empty := by
  refine ⟨?_,?_,List.nodup_nil⟩
  · intro id generation h
    cases h
  · intro task h
    cases h

/-- Nothing changes but one instance, which has neither a session nor a launch of its desired
generation afterwards. -/
theorem without (h : Described ui o) (id : ℕ)
    (hother : ∀ i, i ≠ id → ui'.sessions.get i = ui.sessions.get i ∧
      ui'.desiredGenerations.get i = ui.desiredGenerations.get i ∧
      o'.statuses.get i = o.statuses.get i ∧ o'.reported.get i = o.reported.get i)
    (hsession : ui'.sessions.get id = none)
    (hlaunch : ∀ task ∈ ui'.tasks, task.id = id →
      ui'.desiredGenerations.get id ≠ some task.generation)
    (htasks : ui'.tasks.Sublist ui.tasks) : Described ui' o' := by
  refine ⟨fun i generation hi => ?_,fun task htask hdesired => ?_,htasks.nodup h.once⟩
  · have hne : i ≠ id := by
      rintro rfl
      rw [hsession] at hi
      cases hi
    obtain ⟨hs,hd,hst,hr⟩ := hother i hne
    rw [hs] at hi
    rw [hd, hst, hr]
    exact h.session i generation hi
  · have hne : task.id ≠ id := by
      intro heq
      exact hlaunch task htask heq (heq ▸ hdesired)
    obtain ⟨hs,hd,hst,-⟩ := hother task.id hne
    rw [hd] at hdesired
    rw [hs, hst]
    exact h.launch task (htasks.subset htask) hdesired

theorem stop (h : Described ui o) (id : ℕ) (state : ObservedInstanceState) (code : Option String) :
    Described ⟨ui.sessions.erase id,ui.desiredGenerations.erase id,ui.tasks⟩
      ((o.setObserved id state code).forget id) := by
  refine h.without id (fun i hi => ?_) (OrdMap.get_erase_self _ _) ?_ (List.Sublist.refl _)
  · simp only [Observed.setObserved, Observed.forget, OrdMap.get_erase_of_ne _ hi,
      OrdMap.get_insert_of_ne _ hi, and_self]
  · intro task _ _ hdesired
    rw [OrdMap.get_erase_self] at hdesired
    cases hdesired

/-- A start that finds its place free: its launch is the only one of the desired generation. -/
theorem start (h : Described ui o) {id generation : ℕ} (scheduled : ℕ → Bool)
    (hsession : ui.sessions.get id = none) (hfresh : (⟨id,generation⟩ : Launch) ∉ ui.tasks) :
    Described (ui.applyAction scheduled (.start id generation))
      (o.applyAction scheduled (.start id generation)) := by
  have hother : ∀ i, i ≠ id →
      (ui.desiredGenerations.insert id generation).get i = ui.desiredGenerations.get i ∧
      (o.applyAction scheduled (.start id generation)).statuses.get i = o.statuses.get i ∧
      (o.applyAction scheduled (.start id generation)).reported.get i = o.reported.get i := by
    intro i hi
    cases hscheduled : scheduled id <;>
      simp [Observed.applyAction, hscheduled, Observed.setObserved, OrdMap.get_insert_of_ne _ hi]
  have hold : ∀ task ∈ ui.tasks, task.id = id →
      (ui.desiredGenerations.insert id generation).get id ≠ some task.generation := by
    rintro ⟨i,g⟩ htask rfl hdesired
    rw [OrdMap.get_insert_self] at hdesired
    obtain rfl := Option.some.inj hdesired
    exact hfresh htask
  have hrest : Described ⟨ui.sessions,ui.desiredGenerations.insert id generation,ui.tasks⟩
      (o.applyAction scheduled (.start id generation)) :=
    h.without id (fun i hi => ⟨rfl,hother i hi⟩) hsession hold (List.Sublist.refl _)
  rw [Interface.applyAction]
  cases hscheduled : scheduled id with
  | false => exact hrest
  | true =>
    refine ⟨hrest.session,fun task htask hdesired => ?_,?_⟩
    · rcases List.mem_append.mp htask with htask | htask
      · exact hrest.launch task htask hdesired
      · obtain rfl := List.mem_singleton.mp htask
        refine ⟨?_,hsession⟩
        simp [Observed.applyAction, hscheduled, Observed.setObserved, OrdMap.get_insert_self]
    · exact List.nodup_append.mpr ⟨h.once,by simp,by
        rintro task htask _ hmem rfl
        obtain rfl := List.mem_singleton.mp hmem
        exact hfresh htask⟩

end Described

/-- A start finds no session of its instance, and no launch of its generation. -/
def SupervisorAction.Fresh (ui : Interface) : SupervisorAction → Prop
  | .start id generation => ui.sessions.get id = none ∧ ⟨id,generation⟩ ∉ ui.tasks
  | _ => True

/-- Every start of a list of actions finds its place free when its turn comes. -/
def FreshStarts (scheduled : ℕ → Bool) : Interface → List SupervisorAction → Prop
  | _, [] => True
  | ui, action :: actions =>
    action.Fresh ui ∧ FreshStarts scheduled (ui.applyAction scheduled action) actions

instance (ui : Interface) : (action : SupervisorAction) → Decidable (action.Fresh ui)
  | .start id _ => inferInstanceAs (Decidable (ui.sessions.get id = none ∧ _))
  | .stop _ => .isTrue trivial
  | .failure _ _ _ _ => .isTrue trivial

def freshStartsDecidable (scheduled : ℕ → Bool) :
    (ui : Interface) → (actions : List SupervisorAction) → Decidable (FreshStarts scheduled ui actions)
  | _, [] => .isTrue trivial
  | ui, action :: actions =>
    have := freshStartsDecidable scheduled (ui.applyAction scheduled action) actions
    inferInstanceAs (Decidable (_ ∧ _))

instance (scheduled : ℕ → Bool) (ui : Interface) (actions : List SupervisorAction) :
    Decidable (FreshStarts scheduled ui actions) := freshStartsDecidable scheduled ui actions

theorem Described.applyAction {ui : Interface} {o : Observed} (h : Described ui o)
    (scheduled : ℕ → Bool) {action : SupervisorAction} (hfresh : action.Fresh ui) :
    Described (ui.applyAction scheduled action) (o.applyAction scheduled action) := by
  cases action with
  | stop id => exact h.stop id .stopped none
  | failure id pluginId code detail =>
    cases id with
    | none => exact h
    | some id => exact h.stop id .failed (some code)
  | start id generation => exact h.start scheduled hfresh.1 hfresh.2

theorem Described.applyActions {ui : Interface} {o : Observed} (h : Described ui o)
    {scheduled : ℕ → Bool} {actions : List SupervisorAction}
    (hfresh : FreshStarts scheduled ui actions) :
    Described (ui.applyActions scheduled actions)
      (actions.foldl (Observed.applyAction scheduled) o) := by
  induction actions generalizing ui o with
  | nil => exact h
  | cons action actions ih => exact ih (h.applyAction scheduled hfresh.1) hfresh.2

/-- The end of a launch: no other launch has its instance and its generation. -/
theorem Described.finishLaunch {ui ui' : Interface} {o : Observed} (h : Described ui o) {n : ℕ}
    {task : Launch} (htask : ui.tasks[n]? = some task) {failure : Option String}
    (hfinish : ui.finishLaunch n failure.isNone = some ui') :
    Described ui' (o.finishLaunch ui task failure) := by
  have hrest : ∀ t ∈ ui.tasks.eraseIdx n, t ∈ ui.tasks ∧ t ≠ task := by
    intro t ht
    obtain ⟨i,hi,hti⟩ := List.mem_eraseIdx_iff_getElem?.mp ht
    refine ⟨List.mem_of_getElem? hti,?_⟩
    rintro rfl
    exact hi ((List.getElem?_inj (List.getElem?_eq_some_iff.mp hti).1 h.once).mp
      (hti.trans htask.symm))
  have hother : ∀ t ∈ ui.tasks.eraseIdx n, t.id = task.id →
      ui.desiredGenerations.get task.id = some task.generation →
      ui.desiredGenerations.get task.id ≠ some t.generation := by
    rintro ⟨id,generation⟩ ht rfl hdesired hsame
    rw [hdesired] at hsame
    obtain rfl := Option.some.inj hsame
    exact (hrest _ ht).2 rfl
  have hsublist : (ui.tasks.eraseIdx n).Sublist ui.tasks := List.eraseIdx_sublist _ _
  simp only [Interface.finishLaunch, htask] at hfinish
  unfold Observed.finishLaunch
  by_cases hdesired : ui.desiredGenerations.get task.id = some task.generation
  · obtain ⟨hstatus,hnone⟩ := h.launch task (List.mem_of_getElem? htask) hdesired
    rw [if_pos hdesired]
    cases failure with
    | some code =>
      rw [if_neg (by simp)] at hfinish
      obtain rfl := Option.some.inj hfinish
      refine h.without task.id (fun i hi => ?_) hnone
        (fun t ht hid => hother t ht hid hdesired) hsublist
      simp only [Observed.setObserved, OrdMap.get_insert_of_ne _ hi, and_self]
    | none =>
      rw [if_pos ⟨rfl,hdesired⟩] at hfinish
      obtain rfl := Option.some.inj hfinish
      refine ⟨fun i generation hi => ?_,fun t ht hmatch => ?_,hsublist.nodup h.once⟩
      · simp only [OrdMap.get_insert] at hi
        split_ifs at hi with hid
        · obtain rfl := Option.some.inj hi
          subst hid
          refine ⟨hdesired,?_⟩
          simp only [Observed.forget, OrdMap.get_erase_self, Option.isSome_none,
            Bool.false_eq_true, if_false]
          exact hstatus
        · simp only [Observed.forget, OrdMap.get_erase_of_ne _ hid]
          exact h.session i generation hi
      · have hne : t.id ≠ task.id := by
          intro hid
          exact hother t ht hid hdesired (hid ▸ hmatch)
        obtain ⟨hstart,hgone⟩ := h.launch t (hrest t ht).1 hmatch
        exact ⟨hstart,(OrdMap.get_insert_of_ne _ hne _).trans hgone⟩
  · rw [if_neg hdesired]
    rw [if_neg (fun hkept => hdesired hkept.2)] at hfinish
    obtain rfl := Option.some.inj hfinish
    exact ⟨h.session,fun t ht hmatch => h.launch t (hrest t ht).1 hmatch,hsublist.nodup h.once⟩

/-- A session runs. -/
theorem Described.running {ui : Interface} {o : Observed} (h : Described ui o) {id generation : ℕ}
    (hsession : ui.sessions.get id = some generation) :
    Described ui (o.lifecycle id .running) := by
  refine ⟨fun i g hi => ?_,fun task htask hdesired => ?_,h.once⟩
  · refine ⟨(h.session i g hi).1,?_⟩
    by_cases hid : i = id
    · subst hid
      simp [Observed.lifecycle, Observed.setObserved]
    · simp only [Observed.lifecycle, Observed.setObserved, OrdMap.get_insert_of_ne _ hid]
      exact (h.session i g hi).2
  · obtain ⟨hstatus,hnone⟩ := h.launch task htask hdesired
    have hne : task.id ≠ id := by
      rintro rfl
      rw [hsession] at hnone
      cases hnone
    simp only [Observed.lifecycle, Observed.setObserved, OrdMap.get_insert_of_ne _ hne]
    exact ⟨hstatus,hnone⟩

/-- The end of a session, which was the one of its instance. -/
theorem Described.ended {ui : Interface} {o : Observed} (h : Described ui o) {id generation : ℕ}
    (hsession : ui.sessions.get id = some generation) (state : ObservedInstanceState)
    (code : Option String) :
    Described (ui.sessionEnded id) ((o.setObserved id state code).forget id) := by
  refine h.without id (fun i hi => ?_) (OrdMap.get_erase_self _ _) ?_ (List.Sublist.refl _)
  · simp only [Interface.sessionEnded, Observed.setObserved, Observed.forget,
      OrdMap.get_erase_of_ne _ hi, OrdMap.get_insert_of_ne _ hi, and_self]
  · rintro task htask rfl hdesired
    obtain ⟨-,hnone⟩ := h.launch task htask hdesired
    rw [hsession] at hnone
    cases hnone

section Runs

variable {Config : Type} [DecidableEq Config]

/-- The next batch starts instances only where nothing is in the way. -/
def NothingInTheWay (s : ObservedSupervisor Config) : ObservedLabel Config → Prop
  | .supervisor (.apply scheduled) => ∀ batch actions,
    s.supervisor.actions.recv = some (batch,actions) → FreshStarts scheduled s.supervisor.ui batch
  | _ => True

def observedSystem : System (ObservedSupervisor Config) (ObservedLabel Config) :=
  .ofPartial (fun s => ∃ table, s = ObservedSupervisor.new table) ObservedSupervisor.step

/-- Forgetting the observed states leaves a step of the supervisor, if anything. -/
theorem step_supervisor {s s' : ObservedSupervisor Config} {label : ObservedLabel Config}
    (h : s.step label = some s') :
    s'.supervisor = s.supervisor ∨ ∃ i, s.supervisor.step i = some s'.supervisor := by
  cases label with
  | supervisor i =>
    simp only [ObservedSupervisor.step] at h
    split_ifs at h
    obtain ⟨next,hnext,rfl⟩ := Option.map_eq_some_iff.mp h
    exact Or.inr ⟨i,hnext⟩
  | finishLaunch n failure =>
    simp only [ObservedSupervisor.step] at h
    split at h
    · cases h
    · obtain ⟨next,hnext,rfl⟩ := Option.map_eq_some_iff.mp h
      exact Or.inr ⟨_,hnext⟩
  | lifecycle id event =>
    simp only [ObservedSupervisor.step] at h
    split at h
    · cases h
    · cases h
      exact Or.inl rfl
    · obtain ⟨next,hnext,rfl⟩ := Option.map_eq_some_iff.mp h
      exact Or.inr ⟨_,hnext⟩

/-- The states that the observed supervisor reaches are states of the supervisor. -/
theorem reachable_supervisor {s : ObservedSupervisor Config}
    {C : ObservedSupervisor Config → ObservedLabel Config → Prop}
    (h : observedSystem.ReachableWhen C s) : supervisorSystem.Reachable s.supervisor := by
  refine h.invariant (fun s => supervisorSystem.Reachable s.supervisor) ?_ ?_
  · rintro s ⟨table,rfl⟩
    exact .of_init ⟨table,rfl⟩
  · intro s label s' hs _ hstep
    rcases step_supervisor hstep with hsame | ⟨i,hi⟩
    · rw [hsame]
      exact hs
    · exact hs.next trivial hi

omit [DecidableEq Config] in
/-- What the worker prepares does not touch the interface. -/
theorem prepareAction_ui {s s' : Supervisor Config} {now : ℕ} {sqlError : Option String}
    {todo : List (DesiredAction Config)} {prepared : List SupervisorAction}
    {snapshot : Snapshot Config} {next : Known Config}
    (h : s.prepareAction now sqlError todo prepared snapshot next = some s') : s'.ui = s.ui := by
  unfold Supervisor.prepareAction at h
  split at h
  · cases h
  · cases h
    rfl
  · dsimp only at h
    split at h
    · cases h
      rfl
    · split at h <;> cases h <;> rfl

/-- The steps of the worker and of the other writers. -/
def OfWorker : SupervisorLabel Config → Prop
  | .apply _ | .finishLaunch _ _ | .sessionEnded _ | .drop => False
  | _ => True

theorem step_ui {s s' : Supervisor Config} {label : SupervisorLabel Config}
    (hlabel : OfWorker label) (h : s.step label = some s') : s'.ui = s.ui := by
  cases label with
  | apply scheduled => exact hlabel.elim
  | finishLaunch n launched => exact hlabel.elim
  | sessionEnded id => exact hlabel.elim
  | drop => exact hlabel.elim
  | change id row =>
    cases h
    rfl
  | list sqlError =>
    simp only [Supervisor.step] at h
    split at h
    · split at h
      · cases h
        rfl
      · split_ifs at h
        · cases h
          rfl
        · cases h
          rfl
    · cases h
  | prepare now sqlError =>
    simp only [Supervisor.step] at h
    split at h
    · exact prepareAction_ui h
    · cases h
  | fetch sqlError loadError =>
    simp only [Supervisor.step] at h
    split at h
    · cases h
      rfl
    · cases h
  | send =>
    simp only [Supervisor.step] at h
    split at h
    · split at h <;> cases h <;> rfl
    · split at h <;> cases h <;> rfl
    · cases h
  | waitForCommand =>
    simp only [Supervisor.step] at h
    split at h <;> cases h <;> rfl
  | timeout =>
    simp only [Supervisor.step] at h
    split at h <;> cases h
    rfl
  | retry id =>
    simp only [Supervisor.step] at h
    split at h <;> cases h <;> rfl

/-- A step keeps what the interface reports. -/
theorem Described.step {s s' : ObservedSupervisor Config} {label : ObservedLabel Config}
    (h : Described s.supervisor.ui s.observed) (hfree : NothingInTheWay s label)
    (hstep : s.step label = some s') : Described s'.supervisor.ui s'.observed := by
  cases label with
  | supervisor i =>
    simp only [ObservedSupervisor.step] at hstep
    split_ifs at hstep with hown
    obtain ⟨next,hnext,rfl⟩ := Option.map_eq_some_iff.mp hstep
    cases i with
    | apply scheduled =>
      simp only [Supervisor.step] at hnext
      cases hrecv : s.supervisor.actions.recv with
      | none =>
        rw [hrecv] at hnext
        cases hnext
      | some received =>
        obtain ⟨batch,actions⟩ := received
        rw [hrecv] at hnext
        cases hnext
        simp only [Observed.afterStep, hrecv]
        exact h.applyActions (hfree batch actions hrecv)
    | drop =>
      cases hnext
      exact Described.nothing
    | finishLaunch n launched => exact absurd rfl hown
    | sessionEnded id => exact absurd rfl hown
    | _ =>
      simp only [Observed.afterStep]
      have hui := step_ui (by trivial) hnext
      rw [hui]
      exact h
  | finishLaunch n failure =>
    simp only [ObservedSupervisor.step] at hstep
    cases htask : s.supervisor.ui.tasks[n]? with
    | none =>
      rw [htask] at hstep
      cases hstep
    | some task =>
      rw [htask] at hstep
      obtain ⟨next,hnext,rfl⟩ := Option.map_eq_some_iff.mp hstep
      simp only [Supervisor.step] at hnext
      split at hnext
      · next ui hfinish =>
        cases hnext
        exact h.finishLaunch htask hfinish
      · cases hnext
  | lifecycle id event =>
    simp only [ObservedSupervisor.step] at hstep
    cases hsession : s.supervisor.ui.sessions.get id with
    | none =>
      rw [hsession] at hstep
      cases hstep
    | some generation =>
      rw [hsession] at hstep
      cases event with
      | running =>
        cases hstep
        exact h.running hsession
      | failed code detail =>
        cases hstep
        exact h.ended hsession .failed (some code)
      | stopped =>
        cases hstep
        exact h.ended hsession .stopped none

/-- In every run in which nothing is started over a session or over its own launch, each instance
has at most one session, with the desired generation, and the observed state is the one that the
session has reported. -/
theorem sessions_described {s : ObservedSupervisor Config}
    (h : observedSystem.ReachableWhen NothingInTheWay s) :
    (s.supervisor.ui.sessions.entries.map Prod.fst).Nodup ∧
    ∀ id generation, s.supervisor.ui.sessions.get id = some generation →
      s.supervisor.ui.desiredGenerations.get id = some generation ∧
      s.observed.statuses.get id = some ⟨id,
        if (s.observed.reported.get id).isSome then .running else .starting,none⟩ := by
  have hdescribed : Described s.supervisor.ui s.observed := by
    refine h.invariant (fun s => Described s.supervisor.ui s.observed) ?_
      (fun _ _ _ hd hfree hstep => hd.step hfree hstep)
    rintro s ⟨table,rfl⟩
    exact Described.nothing
  refine ⟨?_,hdescribed.session⟩
  exact (List.pairwise_map.mpr s.supervisor.ui.sessions.ordered).imp (fun hlt => hlt.ne)

end Runs

/-- The instance is started and its session reports that it runs. -/
def observedClock : List (ObservedLabel Unit) := [
  .supervisor (.list none),.supervisor (.prepare 10 none),.supervisor (.fetch none none),
  .supervisor .send,.supervisor (.apply fun _ => true),.finishLaunch 0 none,.lifecycle 1 .running]

instance (s : ObservedSupervisor Unit) :
    (label : ObservedLabel Unit) → Decidable (NothingInTheWay s label)
  | .supervisor (.apply scheduled) =>
    match h : s.supervisor.actions.recv with
    | none => .isTrue fun batch actions hrecv => by
        rw [h] at hrecv
        cases hrecv
    | some (batch,_) => decidable_of_iff (FreshStarts scheduled s.supervisor.ui batch)
        ⟨fun hfresh batch' actions hrecv => by
          rw [h] at hrecv
          obtain ⟨rfl,-⟩ := Prod.mk.inj (Option.some.inj hrecv)
          exact hfresh,fun hfree => hfree batch _ h⟩
  | .supervisor (.change _ _) | .supervisor (.list _) | .supervisor (.prepare _ _)
  | .supervisor (.fetch _ _) | .supervisor .send | .supervisor .waitForCommand
  | .supervisor .timeout | .supervisor (.retry _) | .supervisor (.finishLaunch _ _)
  | .supervisor (.sessionEnded _) | .supervisor .drop => .isTrue trivial
  | .finishLaunch _ _ => .isTrue trivial
  | .lifecycle _ _ => .isTrue trivial

def runningClock : Option (ObservedSupervisor Unit) :=
  System.runWhen ObservedSupervisor.step NothingInTheWay (ObservedSupervisor.new clockTable)
    observedClock

theorem runningClock_described : ∃ s, runningClock = some s ∧
    s.supervisor.ui.sessions.get 1 = some 1 ∧
    s.supervisor.ui.desiredGenerations.get 1 = some 1 ∧
    s.observed.statuses.get 1 = some ⟨1,
      if (s.observed.reported.get 1).isSome then .running else .starting,none⟩ := by
  obtain ⟨s,hs⟩ : ∃ s, runningClock = some s := Option.isSome_iff_exists.mp (by decide +kernel)
  have hsession : runningClock.map (fun s => s.supervisor.ui.sessions.get 1) = some (some 1) := by
    decide +kernel
  rw [hs, Option.map_some, Option.some.injEq] at hsession
  have hinit : (observedSystem : System (ObservedSupervisor Unit) _).ReachableWhen NothingInTheWay
      (ObservedSupervisor.new clockTable) := .of_init ⟨clockTable,rfl⟩
  exact ⟨s,hs,hsession,(sessions_described (System.reachableWhen_runWhen hinit hs)).2 1 1 hsession⟩

/-- The running instance is retried, and its next launch begins. -/
def retriedClock : List (ObservedLabel Unit) := [
  .supervisor (.retry 1),.supervisor .waitForCommand,.supervisor (.list none),
  .supervisor (.prepare 10 none),.supervisor (.fetch none none),.supervisor .send,
  .supervisor (.apply fun _ => true)]

def restartedClock : Option (ObservedSupervisor Unit) :=
  (observedClock ++ retriedClock).foldlM ObservedSupervisor.step (ObservedSupervisor.new clockTable)

theorem restartedClock_not_described : ∃ s, restartedClock = some s ∧
    observedSystem.Reachable s ∧
    s.supervisor.ui.sessions.get 1 = some 1 ∧
    s.supervisor.ui.desiredGenerations.get 1 = some 2 ∧
    s.observed.statuses.get 1 = some ⟨1,.starting,none⟩ ∧
    (s.observed.reported.get 1).isSome = true := by
  obtain ⟨s,hs⟩ : ∃ s, restartedClock = some s := Option.isSome_iff_exists.mp (by decide +kernel)
  have hfinal : restartedClock.map (fun s => (s.supervisor.ui.sessions.get 1,
      s.supervisor.ui.desiredGenerations.get 1,s.observed.statuses.get 1,
      (s.observed.reported.get 1).isSome)) =
        some (some 1,some 2,some ⟨1,.starting,none⟩,true) := by decide +kernel
  rw [hs, Option.map_some, Option.some.injEq] at hfinal
  simp only [Prod.mk.injEq] at hfinal
  exact ⟨s,hs,System.reachable_foldlM (.of_init ⟨clockTable,rfl⟩) hs,hfinal⟩

end Floatile.Shell
