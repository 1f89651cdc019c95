import Floatile.Core.Instance
import Floatile.Lib.Channel
import Floatile.Lib.SortedMap
import Floatile.Lib.Transition
import Mathlib.Data.Nat.Basic

/-! The supervisor of persistent instances: a worker that plans from snapshots of the database,
the queue of its actions, and the user interface that applies them. -/
namespace Floatile.Shell

open Floatile.Core
open Floatile.Lib

structure InstanceFingerprint (Config : Type) where
  pluginId : String
  version : String
  digest : String
  config : Config
  deriving DecidableEq

/-- A row of the table of instances. The key of the row is the id of the instance. -/
structure InstanceRow (Config : Type) where
  fingerprint : InstanceFingerprint Config
  desiredState : InstanceDesiredState
  generation : ℕ
  updatedAt : ℕ
  deriving DecidableEq

/-- A snapshot lists the instances by increasing id. -/
abbrev Snapshot (Config : Type) := List (ℕ × InstanceRow Config)

abbrev Known (Config : Type) := OrdMap ℕ (InstanceFingerprint Config)

inductive SupervisorCommand where
  | retry (id : ℕ)
  | stop
  deriving DecidableEq

inductive DesiredAction (Config : Type) where
  | stop (id : ℕ)
  | start (id : ℕ) (row : InstanceRow Config)

inductive SupervisorAction where
  | stop (id : ℕ)
  | start (id generation : ℕ)
  | failure (instanceId : Option ℕ) (pluginId : Option String) (code detail : String)
  deriving DecidableEq

section Plan

variable {Config : Type} [DecidableEq Config]

/-- The actions for one instance of a snapshot and the map that remembers it. -/
def planInstance (known : Known Config) (plan : List (DesiredAction Config) × Known Config)
    (entry : ℕ × InstanceRow Config) : List (DesiredAction Config) × Known Config :=
  let (actions,next) := plan
  let (id,row) := entry
  if row.desiredState = .stopped then
    if (known.get id).isSome then (actions ++ [.stop id],next) else (actions,next)
  else if known.get id ≠ some row.fingerprint then
    let actions := if (known.get id).isSome then actions ++ [.stop id] else actions
    (actions ++ [.start id row],next.insert id row.fingerprint)
  else (actions,next.insert id row.fingerprint)

def planSnapshot (instances : Snapshot Config) (known : Known Config) :
    List (DesiredAction Config) × Known Config :=
  let snapshotIds := instances.map Prod.fst
  let gone := (known.entries.map Prod.fst).filter (fun id => id ∉ snapshotIds)
  instances.foldl (planInstance known) (gone.map .stop,OrdMap.empty)

end Plan

/-- A launch that has been scheduled for an instance at a generation. -/
structure Launch where
  id : ℕ
  generation : ℕ
  deriving DecidableEq

/-- The windows of the instances. A session is kept with the generation it was launched for. -/
structure Interface where
  sessions : OrdMap ℕ ℕ
  desiredGenerations : OrdMap ℕ ℕ
  tasks : List Launch

namespace Interface

def empty : Interface := ⟨OrdMap.empty,OrdMap.empty,[]⟩

/-- Applies one action. The launch of a start is `scheduled` unless the executor refuses it; a batch
starts an instance once at most. -/
def applyAction (ui : Interface) (scheduled : ℕ → Bool) : SupervisorAction → Interface
  | .stop id => { ui with
      desiredGenerations := ui.desiredGenerations.erase id
      sessions := ui.sessions.erase id }
  | .failure none _ _ _ => ui
  | .failure (some id) _ _ _ => { ui with
      desiredGenerations := ui.desiredGenerations.erase id
      sessions := ui.sessions.erase id }
  | .start id generation => { ui with
      desiredGenerations := ui.desiredGenerations.insert id generation
      tasks := if scheduled id then ui.tasks ++ [⟨id,generation⟩] else ui.tasks }

def applyActions (ui : Interface) (scheduled : ℕ → Bool) (actions : List SupervisorAction) :
    Interface :=
  actions.foldl (fun ui action => ui.applyAction scheduled action) ui

/-- A launch ends. Its session is kept while its generation is still the desired one. -/
def finishLaunch (ui : Interface) (n : ℕ) (launched : Bool) : Option Interface :=
  match ui.tasks[n]? with
  | none => none
  | some task =>
    let ui' := { ui with tasks := ui.tasks.eraseIdx n }
    if launched ∧ ui.desiredGenerations.get task.id = some task.generation then
      some { ui' with sessions := ui'.sessions.insert task.id task.generation }
    else some ui'

/-- A session reports that its runtime has failed or stopped. -/
def sessionEnded (ui : Interface) (id : ℕ) : Interface :=
  { ui with sessions := ui.sessions.erase id }

end Interface

/-- What the worker is doing. `next` is the map that is remembered once the actions are sent. -/
inductive Worker (Config : Type) where
  | polling
  | preparing (todo : List (DesiredAction Config)) (prepared : List SupervisorAction)
      (snapshot : Snapshot Config) (next : Known Config)
  | fetching (id : ℕ) (pluginId : String) (todo : List (DesiredAction Config))
      (prepared : List SupervisorAction) (snapshot : Snapshot Config) (next : Known Config)
  | reporting (detail : String)
  | waiting
  | ended

/-- The supervisor with the table of instances that it shares with other writers. The last three
fields record the snapshots planned so far with the number of batches sent up to each, the
number of batches applied, and the instances forgotten by a retry since the last snapshot. -/
structure Supervisor (Config : Type) where
  table : OrdMap ℕ (InstanceRow Config)
  worker : Worker Config
  known : Known Config
  commands : Channel SupervisorCommand
  actions : Channel (List SupervisorAction)
  ui : Interface
  snapshots : List (ℕ × Snapshot Config)
  applied : ℕ
  retried : List ℕ

/-- The other writers change or delete a row; the rest are steps of the worker and of the
interface. A statement of the database fails with the given text. -/
inductive SupervisorLabel (Config : Type) where
  | change (id : ℕ) (row : Option (InstanceRow Config))
  | list (sqlError : Option String)
  | prepare (now : ℕ) (sqlError : Option String)
  | fetch (sqlError : Option String) (loadError : Option (String × String))
  | send
  | waitForCommand
  | timeout
  | retry (id : ℕ)
  | apply (scheduled : ℕ → Bool)
  | finishLaunch (n : ℕ) (launched : Bool)
  | sessionEnded (id : ℕ)
  | drop

def actionQueueCapacity : ℕ := 16

def commandQueueCapacity : ℕ := 16

namespace Supervisor

variable {Config : Type} [DecidableEq Config]

def new (table : OrdMap ℕ (InstanceRow Config)) : Supervisor Config where
  table := table
  worker := .polling
  known := OrdMap.empty
  commands := Channel.empty commandQueueCapacity
  actions := Channel.empty actionQueueCapacity
  ui := Interface.empty
  snapshots := []
  applied := 0
  retried := []

/-- Batches sent so far. -/
def sent (s : Supervisor Config) : ℕ := s.applied + s.actions.queue.length

/-- Remembers a snapshot whose actions have been sent. -/
def remember (s : Supervisor Config) (snapshot : Snapshot Config) (next : Known Config) :
    Supervisor Config :=
  { s with
    worker := .waiting
    known := next
    snapshots := (s.sent,snapshot) :: s.snapshots }

def storeFailure (instanceId : Option ℕ) (pluginId : Option String) (detail : String) :
    SupervisorAction := .failure instanceId pluginId "FINSTANCE_STORE" detail

/-- The row with its generation advanced. -/
def advanceGeneration (table : OrdMap ℕ (InstanceRow Config)) (id updatedAt : ℕ) :
    Option (OrdMap ℕ (InstanceRow Config)) :=
  match table.get id with
  | none => none
  | some row =>
    if row.updatedAt ≤ updatedAt ∧ row.generation < 2^63 - 1 then
      some (table.insert id { row with generation := row.generation + 1, updatedAt := updatedAt })
    else none

/-- The first desired action becomes one of the interface, or its generation is advanced. -/
def prepareAction (s : Supervisor Config) (now : ℕ) (sqlError : Option String)
    (todo : List (DesiredAction Config)) (prepared : List SupervisorAction)
    (snapshot : Snapshot Config) (next : Known Config) : Option (Supervisor Config) :=
  match todo with
  | [] => none
  | .stop id :: todo =>
    some { s with worker := .preparing todo (prepared ++ [.stop id]) snapshot next }
  | .start id row :: todo =>
    let pluginId := row.fingerprint.pluginId
    match sqlError with
    | some detail => some { s with
        worker := .preparing todo (prepared ++ [storeFailure (some id) (some pluginId) detail])
          snapshot next }
    | none =>
      match advanceGeneration s.table id (max now row.updatedAt) with
      | some table => some { s with
          table := table
          worker := .fetching id pluginId todo prepared snapshot next }
      | none =>
        let failure := SupervisorAction.failure (some id) (some pluginId) "FINSTANCE_GENERATION"
          "实例不存在、时间戳过期或 generation 已耗尽"
        some { s with worker := .preparing todo (prepared ++ [failure]) snapshot next }

/-- The action for an instance whose generation has been advanced. -/
def fetchedAction (table : OrdMap ℕ (InstanceRow Config)) (id : ℕ) (pluginId : String)
    (sqlError : Option String) (loadError : Option (String × String)) : SupervisorAction :=
  match sqlError with
  | some detail => storeFailure (some id) (some pluginId) detail
  | none =>
    match table.get id with
    | none => .failure (some id) (some pluginId) "FINSTANCE_MISSING"
        "推进 generation 后实例记录消失"
    | some row =>
      match loadError with
      | some (code,detail) => .failure (some id) (some pluginId) code detail
      | none => .start id row.generation

def step (s : Supervisor Config) : SupervisorLabel Config → Option (Supervisor Config)
  | .change id row => some { s with
      table := match row with
        | some row => s.table.insert id row
        | none => s.table.erase id }
  | .list sqlError =>
    match s.worker with
    | .polling =>
      match sqlError with
      | some detail => some { s with worker := .reporting detail }
      | none =>
        let snapshot := s.table.entries
        let (desired,next) := planSnapshot snapshot s.known
        if desired.length = 0 then some ({ s with retried := [] }.remember snapshot next)
        else some { s with worker := .preparing desired [] snapshot next, retried := [] }
    | _ => none
  | .prepare now sqlError =>
    match s.worker with
    | .preparing todo prepared snapshot next =>
      s.prepareAction now sqlError todo prepared snapshot next
    | _ => none
  | .fetch sqlError loadError =>
    match s.worker with
    | .fetching id pluginId todo prepared snapshot next =>
      let action := fetchedAction s.table id pluginId sqlError loadError
      some { s with worker := .preparing todo (prepared ++ [action]) snapshot next }
    | _ => none
  | .send =>
    -- a full queue blocks the worker; without a receiver it ends
    match s.worker with
    | .preparing [] prepared snapshot next =>
      match s.actions.trySend prepared with
      | .ok actions => some ({ s with actions := actions }.remember snapshot next)
      | .error .full => none
      | .error .closed => some { s with worker := .ended }
    | .reporting detail =>
      match s.actions.trySend [storeFailure none none detail] with
      | .ok actions => some { s with actions := actions, worker := .waiting }
      | .error .full => none
      | .error .closed => some { s with worker := .ended }
    | _ => none
  | .waitForCommand =>
    match s.worker, s.commands.recv with
    | .waiting, some (.retry id,commands) => some { s with
        commands := commands
        known := s.known.erase id
        retried := id :: s.retried
        worker := .polling }
    | .waiting, some (.stop,commands) => some { s with commands := commands, worker := .ended }
    | _, _ => none
  | .timeout =>
    match s.worker with
    | .waiting => some { s with worker := .polling }
    | _ => none
  | .retry id =>
    match s.commands.trySend (.retry id) with
    | .ok commands => some { s with commands := commands }
    | .error _ => some s
  | .apply scheduled =>
    match s.actions.recv with
    | some (batch,actions) => some { s with
        actions := actions
        ui := s.ui.applyActions scheduled batch
        applied := s.applied + 1 }
    | none => none
  | .finishLaunch n launched =>
    match s.ui.finishLaunch n launched with
    | some ui => some { s with ui := ui }
    | none => none
  | .sessionEnded id => some { s with ui := s.ui.sessionEnded id }
  | .drop => some { s with
      ui := Interface.empty
      actions := s.actions.close
      commands := match s.commands.trySend .stop with
        | .ok commands => commands
        | .error _ => s.commands }

end Supervisor

end Floatile.Shell
