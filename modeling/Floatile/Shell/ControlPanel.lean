import Floatile.Lib.Channel
import Floatile.Shell.ConfigForm
import Floatile.Store.Identity
import Floatile.Store.Records
import Floatile.Store.Rollback

/-! The control panel: a window with snapshots of the instances and a form, a worker that carries
out commands on the database, and the queues between the two. Other processes write to the same
database in between. -/
namespace Floatile.Shell.ControlPanel

open Floatile.Core
open Floatile.Lib
open Floatile.Lib.Transition
open Floatile.Shell.ConfigForm
open Floatile.Store
open Floatile.Store.InstanceUpdate (Later)

structure InstallationRecord where
  pluginId : String
  name : String
  version : String
  fields : List ConfigField

structure InstanceRecord where
  id : ℕ
  row : PluginInstance
  fields : List ConfigField

inductive ControlFailure where
  | installationMissing
  | instanceMissing
  | mustBeStopped
  | concurrentUpdate
  | schemaInvalid
  | form (error : ControlError)
  | catalog (error : InstallationCatalogError)
  | config (error : ConfigValidationError)
  | store (error : StoreError)

/-- What the user is told of the last command. -/
abbrev Notice := Except ControlFailure Unit

structure ControlSnapshot where
  installations : List InstallationRecord
  instances : List InstanceRecord
  notice : Option Notice

inductive ControlCommand where
  | create (pluginId version : String) (fields : List ConfigField)
  | configure (instanceId : ℕ) (fields : List ConfigField)
  | setDesired (instanceId : ℕ) (desired : InstanceDesiredState)
  | delete (instanceId : ℕ)
  | stop

inductive Selection where
  | none
  | installation (pluginId version : String)
  | pluginInstance (instanceId : ℕ)

def controlQueueCapacity : ℕ := 16

def snapshotQueueCapacity : ℕ := 2

section Worker

variable {Version : Type} (lib : InstallLib Version) (configLib : ConfigLib) (texts : TextLib)

def configSchema (installed : InstalledInstallation) : Except ControlFailure (Option Json) :=
  match installed.manifest.config with
  | none => .ok none
  | some config =>
    match (installed.file config.schema.text).bind configLib.fromSlice with
    | none => .error .schemaInvalid
    | some schema => .ok (some schema)

def installationRecord (installed : InstalledInstallation) :
    Except ControlFailure InstallationRecord := do
  let schema ← configSchema configLib installed
  .ok ⟨installed.metadata.id,installed.manifest.name,installed.metadata.version,
    formFields texts schema none⟩

/-- The form of an instance, which its installation gives. -/
def instanceFields (dirs : Dirs) (row : PluginInstance) : Except ControlFailure (List ConfigField) := do
  match ← (loadReference lib dirs row.installation).mapError ControlFailure.catalog with
  | none => .error .installationMissing
  | some installed => do
    let schema ← configSchema configLib installed
    .ok (formFields texts schema (some row.config))

def requireInstance (t : InstanceTables) (id : ℕ) : Except ControlFailure PluginInstance := do
  match ← (t.get id).mapError ControlFailure.store with
  | none => .error .instanceMissing
  | some row => .ok row

def requireStopped (row : PluginInstance) : Except ControlFailure Unit :=
  if row.desiredState = .stopped then .ok () else .error .mustBeStopped

def requireInstalled (found : Except InstallationCatalogError (Option InstalledInstallation)) :
    Except ControlFailure InstalledInstallation := do
  match ← found.mapError ControlFailure.catalog with
  | none => .error .installationMissing
  | some installed => .ok installed

/-- The configuration that the form describes, if the installation accepts it. -/
def readForm (installed : InstalledInstallation) (fields : List ConfigField) :
    Except ControlFailure InstanceConfig := do
  let config ← (configFromFields texts configLib fields).mapError ControlFailure.form
  (installed.validateConfig configLib config).mapError ControlFailure.config
  .ok config

/-- A command writes in a statement of its own, after it has read the instance. -/
inductive PanelWrite where
  | update (u : InstanceUpdate)
  | delete (id : ℕ)

def PanelWrite.run (t : InstanceTables) : PanelWrite → Except StoreError (Bool × InstanceTables)
  | .update u => (u.apply lib t).map (Prod.map UpdateReport.done fun t => t)
  | .delete id => t.delete id

/-- The instances that the panel creates are stopped. -/
def createInstance (dirs : Dirs) (t : InstanceTables) (pluginId version : String)
    (fields : List ConfigField) (now : ℕ) : Except ControlFailure InstanceTables := do
  let installed ← requireInstalled (loadExact lib dirs pluginId version)
  let config ← readForm configLib texts installed fields
  let reference ← (installed.reference lib).mapError ControlFailure.catalog
  let created ← (t.create lib reference config .stopped now).mapError ControlFailure.store
  .ok created.2

/-- What a command on an instance is going to write. -/
def checkCommand (dirs : Dirs) (t : InstanceTables) (now : ℕ) :
    ControlCommand → Except ControlFailure PanelWrite
  | .configure id fields => do
    let row ← requireInstance t id
    requireStopped row
    let installed ← requireInstalled (loadReference lib dirs row.installation)
    let config ← readForm configLib texts installed fields
    .ok (.update (.updateConfig id config (max now row.updatedAt)))
  | .setDesired id desired => do
    let row ← requireInstance t id
    .ok (.update (.setDesiredState id desired (max now row.updatedAt)))
  | .delete id => do
    let row ← requireInstance t id
    requireStopped row
    .ok (.delete id)
  | .create _ _ _ => .error .instanceMissing
  | .stop => .error .instanceMissing

variable [LinearOrder Version]

def failureOf {α : Type} : Except ControlFailure α → Option Notice
  | .error e => some (.error e)
  | .ok _ => none

/-- `fault` is the failure of the statement that lists the instances. -/
def loadSnapshot (dirs : Dirs) (t : InstanceTables) (fault : Option StoreError)
    (notice : Option Notice) : ControlSnapshot :=
  match (listHighest lib dirs).mapError ControlFailure.catalog >>=
      fun installed => installed.mapM (installationRecord configLib texts) with
  | .error e => ⟨[],[],some (.error e)⟩
  | .ok installations =>
    match fault with
    | some e => ⟨installations,[],some (.error (.store e))⟩
    | none =>
      let forms := t.instances.entries.map fun e => (e,instanceFields lib configLib texts dirs e.2)
      ⟨installations,forms.map (fun e => ⟨e.1.1,e.1.2,e.2.toOption.getD []⟩),
        notice.or (forms.findSome? (fun e => failureOf e.2))⟩

end Worker

def selectedInstallation (snapshot : ControlSnapshot) (pluginId version : String) :
    Option InstallationRecord :=
  snapshot.installations.find? fun r => r.pluginId = pluginId ∧ r.version = version

def hasInstance (snapshot : ControlSnapshot) (id : ℕ) : Bool :=
  snapshot.instances.any fun r => r.id = id

/-- A selection that the snapshot does not have any more is dropped. -/
def normalizeSelection (snapshot : ControlSnapshot) : Selection → Selection
  | .none => .none
  | .installation pluginId version =>
    if (selectedInstallation snapshot pluginId version).isSome then .installation pluginId version
    else .none
  | .pluginInstance id => if hasInstance snapshot id then .pluginInstance id else .none

def editField (fields : List ConfigField) (index : ℕ) (value : String) (present : Bool) :
    List ConfigField :=
  match fields[index]? with
  | none => fields
  | some field => fields.set index { field with value := value, present := field.required || present }

inductive WorkerPhase where
  | opening
  | load (notice : Option Notice)
  | wait
  | check (command : ControlCommand)
  | write (command : ControlCommand) (write : PanelWrite)
  | ended

def WorkerPhase.current : WorkerPhase → List ControlCommand
  | .check command => [command]
  | .write command _ => [command]
  | _ => []

/-- `shown` lists the snapshots that the window has shown, `asked` the commands that have been put
into the queue, and `done` those that are carried out; `lost` were left over when the worker ended. -/
structure Panel where
  tables : InstanceTables
  commands : Channel ControlCommand
  snapshots : Channel ControlSnapshot
  worker : WorkerPhase
  snapshot : ControlSnapshot
  fields : List ConfigField
  selection : Selection
  closed : Bool
  shown : List ControlSnapshot
  asked : List ControlCommand
  done : List (ControlCommand × Notice)
  lost : List ControlCommand

/-- What other processes do to the instances. -/
inductive OtherWrite where
  | update (u : InstanceUpdate)
  | create (installation : InstallationRef) (config : InstanceConfig)
      (desired : InstanceDesiredState) (now : ℕ)
  | delete (id : ℕ)

inductive PanelLabel where
  | drain
  | selectInstallation (index : ℕ)
  | selectInstance (index : ℕ)
  | edit (index : ℕ) (value : String) (present : Bool)
  | create
  | save
  | setDesired (desired : InstanceDesiredState)
  | delete
  | close
  | openStore (fault : Option StoreError)
  | load (dirs : Dirs) (fault : Option StoreError)
  | take
  | timeout
  | disconnect
  | check (dirs : Dirs) (now : ℕ)
  | write
  | other (w : OtherWrite)

namespace Panel

def emptySnapshot : ControlSnapshot := ⟨[],[],none⟩

def started (t : InstanceTables) : Panel where
  tables := t
  commands := Channel.empty controlQueueCapacity
  snapshots := Channel.empty snapshotQueueCapacity
  worker := .opening
  snapshot := emptySnapshot
  fields := []
  selection := .none
  closed := false
  shown := [emptySnapshot]
  asked := []
  done := []
  lost := []

variable (s : Panel)

/-- A command that finds no room in the queue is dropped. -/
def tryCommand (command : ControlCommand) : Panel :=
  match s.commands.trySend command with
  | .ok commands => { s with commands := commands, asked := s.asked ++ [command] }
  | .error _ => s

def selectedInstanceId : Option ℕ :=
  match s.selection with
  | .pluginInstance id => if hasInstance s.snapshot id then some id else none
  | _ => none

def onInstance (command : ℕ → ControlCommand) : Panel :=
  match s.selectedInstanceId with
  | some id => s.tryCommand (command id)
  | none => s

/-- The newest of the waiting snapshots replaces the one that is shown. -/
def drain : Panel :=
  match s.snapshots.queue.getLast? with
  | none => s
  | some snapshot => { s with
    snapshots := ⟨s.snapshots.capacity,[],s.snapshots.isOpen,Nat.zero_le _⟩
    snapshot := snapshot
    selection := normalizeSelection snapshot s.selection
    shown := s.shown ++ [snapshot] }

def createSelected : Panel :=
  match s.selection with
  | .installation pluginId version =>
    match selectedInstallation s.snapshot pluginId version with
    | some record => s.tryCommand (.create record.pluginId record.version s.fields)
    | none => s
  | _ => s

def finish (t : InstanceTables) (command : ControlCommand) (result : Notice) : Panel :=
  { s with tables := t, worker := .load (some result), done := s.done ++ [(command,result)] }

variable {Version : Type} (lib : InstallLib Version) (configLib : ConfigLib) (texts : TextLib)

def checkStep (dirs : Dirs) (now : ℕ) (command : ControlCommand) : Panel :=
  match command with
  | .create pluginId version fields =>
    match createInstance lib configLib texts dirs s.tables pluginId version fields now with
    | .error e => s.finish s.tables command (.error e)
    | .ok t => s.finish t command (.ok ())
  | _ =>
    match checkCommand lib configLib texts dirs s.tables now command with
    | .error e => s.finish s.tables command (.error e)
    | .ok write => { s with worker := .write command write }

/-- A write that changes no row has lost a race. -/
def writeStep (command : ControlCommand) (write : PanelWrite) : Panel :=
  match write.run lib s.tables with
  | .error e => s.finish s.tables command (.error (.store e))
  | .ok (false,t) => s.finish t command (.error .concurrentUpdate)
  | .ok (true,t) => s.finish t command (.ok ())

/-- The worker ends, and the receiver of its commands is dropped with what is in it. -/
def endWorker : Panel :=
  { s with worker := .ended, commands := s.commands.close, lost := s.commands.queue }

def announce (snapshot : ControlSnapshot) : Panel :=
  match s.snapshots.trySend snapshot with
  | .ok snapshots => { s with snapshots := snapshots }
  | .error _ => s

/-- The worker opens the database, or tells the user that it cannot. -/
def openStep : Option StoreError → Panel
  | none => { s with worker := .load none }
  | some e => (s.announce ⟨[],[],some (.error (.store e))⟩).endWorker

/-- The worker takes the next command, and ends at the last one. -/
def takeStep (command : ControlCommand) (commands : Channel ControlCommand) : Panel :=
  match command with
  | .stop =>
    endWorker { s with commands := commands, done := s.done ++ [(command,.ok ())] }
  | _ => { s with worker := .check command, commands := commands }

def otherStep : OtherWrite → InstanceTables
  | .update u => u.next lib s.tables
  | .create installation config desired now =>
    match s.tables.create lib installation config desired now with
    | .ok (_,t) => t
    | .error _ => s.tables
  | .delete id =>
    match s.tables.delete id with
    | .ok (_,t) => t
    | .error _ => s.tables

variable [LinearOrder Version]

def step : PanelLabel → Option Panel
  | .drain => if s.closed then none else some s.drain
  | .selectInstallation index =>
    if s.closed then none
    else
      match s.snapshot.installations[index]? with
      | some record => some { s with
        fields := record.fields, selection := .installation record.pluginId record.version }
      | none => some s
  | .selectInstance index =>
    if s.closed then none
    else
      match s.snapshot.instances[index]? with
      | some record => some { s with fields := record.fields, selection := .pluginInstance record.id }
      | none => some s
  | .edit index value present =>
    if s.closed then none else some { s with fields := editField s.fields index value present }
  | .create => if s.closed then none else some s.createSelected
  | .save => if s.closed then none else some (s.onInstance fun id => .configure id s.fields)
  | .setDesired desired =>
    if s.closed then none else some (s.onInstance fun id => .setDesired id desired)
  | .delete => if s.closed then none else some (s.onInstance fun id => .delete id)
  | .close => if s.closed then none else some { s.tryCommand .stop with closed := true }
  | .openStore fault =>
    match s.worker with
    | .opening => some (s.openStep fault)
    | _ => none
  | .load dirs fault =>
    match s.worker with
    | .load notice =>
      let snapshot := loadSnapshot lib configLib texts dirs s.tables fault notice
      some ({ s with worker := .wait }.announce snapshot)
    | _ => none
  | .take =>
    match s.worker, s.commands.recv with
    | .wait, some (command,commands) => some (s.takeStep command commands)
    | _, _ => none
  | .timeout =>
    match s.worker with
    | .wait => if s.commands.queue = [] then some { s with worker := .load none } else none
    | _ => none
  | .disconnect =>
    match s.worker with
    | .wait =>
      if s.commands.queue = [] ∧ s.closed = true then some s.endWorker else none
    | _ => none
  | .check dirs now =>
    match s.worker with
    | .check command => some (s.checkStep lib configLib texts dirs now command)
    | _ => none
  | .write =>
    match s.worker with
    | .write command write => some (s.writeStep lib command write)
    | _ => none
  | .other w => some { s with tables := s.otherStep lib w }

end Panel

/-- The rows have ids that were given out. -/
def IdsIssued (t : InstanceTables) : Prop :=
  ∀ id row, t.instances.get id = some row → id < t.nextId

def panelSystem {Version : Type} [LinearOrder Version] (lib : InstallLib Version)
    (configLib : ConfigLib) (texts : TextLib) : System Panel PanelLabel :=
  System.ofPartial (fun s => ∃ t, IdsIssued t ∧ s = Panel.started t)
    (fun s => s.step lib configLib texts)

/-- Rows come under new ids, and stay those of the same instance. -/
structure Grows (t t' : InstanceTables) : Prop where
  nextId : t.nextId ≤ t'.nextId
  rows : ∀ id row', t'.instances.get id = some row' →
    (∃ row, t.instances.get id = some row ∧ ∃ n, Later row row' n) ∨ t.nextId ≤ id ∧ id < t'.nextId

theorem Grows.refl (t : InstanceTables) : Grows t t :=
  ⟨le_refl _,fun _ row hrow => Or.inl ⟨row,hrow,0,Later.refl row⟩⟩

theorem Grows.of_instances {t t' : InstanceTables} (hnext : t'.nextId = t.nextId)
    (h : ∀ id row, t'.instances.get id = some row → t.instances.get id = some row) : Grows t t' :=
  ⟨hnext.ge,fun id row hrow => Or.inl ⟨row,h id row hrow,0,Later.refl row⟩⟩

section Writes

variable {Version : Type} {lib : InstallLib Version} {t t' : InstanceTables}

theorem grows_of_update {u : InstanceUpdate} {report : UpdateReport}
    (h : u.apply lib t = .ok (report,t')) : Grows t t' := by
  have hnext : u.next lib t = t' := by
    rw [InstanceUpdate.next, h]
  refine ⟨(InstanceTables.update_spec h).1.ge,?_⟩
  intro id row' hrow'
  cases hrow : t.instances.get id with
  | some row =>
    obtain ⟨row'',hrow'',hlater⟩ : ∃ row'', (u.next lib t).instances.get id = some row'' ∧
        Later row row'' (u.advances lib t id).toNat := InstanceUpdate.next_later u hrow
    rw [hnext, hrow'] at hrow''
    obtain rfl := Option.some.inj hrow''
    exact Or.inl ⟨row,rfl,_,hlater⟩
  | none =>
    rcases InstanceUpdate.apply_cases h with ⟨-,rfl⟩ | ⟨row,hwrites,-,rfl⟩
    · cases hrow.symm.trans hrow'
    · rw [InstanceUpdate.get_written] at hrow'
      split_ifs at hrow' with hid
      · rw [hid] at hrow
        cases hrow.symm.trans hwrites.found
      · cases hrow.symm.trans hrow'

/-- The row that `create` inserts. -/
theorem get_of_create {installation : InstallationRef} {config : InstanceConfig}
    {desired : InstanceDesiredState} {now id : ℕ}
    (h : t.create lib installation config desired now = .ok (id,t')) :
    id = t.nextId ∧ t'.nextId = t.nextId + 1 ∧ t.instances.get id = none ∧
      ∀ i, t'.instances.get i = if i = id then some ⟨installation,config,desired,0,now,now⟩
        else t.instances.get i := by
  simp only [InstanceTables.create, Checked.bind_eq_ok] at h
  obtain ⟨_,-,created,hcreated,next,hnext,_,hfresh,hok⟩ := h
  obtain rfl := allocateId_eq_ok hnext
  obtain rfl := (sqliteI64_eq_ok.mp hcreated).2
  rw [Checked.reject_eq_ok, Bool.not_eq_true, Option.isSome_eq_false_iff, Option.isNone_iff_eq_none]
    at hfresh
  obtain ⟨rfl,rfl⟩ := Prod.mk.inj (Except.ok.inj hok)
  exact ⟨rfl,rfl,hfresh,fun i => OrdMap.get_insert _ _ _ _⟩

theorem grows_of_create {installation : InstallationRef} {config : InstanceConfig}
    {desired : InstanceDesiredState} {now id : ℕ}
    (h : t.create lib installation config desired now = .ok (id,t')) : Grows t t' := by
  obtain ⟨rfl,hnext,-,hget⟩ := get_of_create h
  refine ⟨by omega,?_⟩
  intro i row' hrow'
  rw [hget] at hrow'
  split_ifs at hrow' with hi
  · exact Or.inr ⟨by omega,by omega⟩
  · exact Or.inl ⟨row',hrow',0,Later.refl row'⟩

/-- Nothing but the row of the instance goes. -/
theorem get_of_delete {changed : Bool} {id : ℕ} (h : t.delete id = .ok (changed,t')) :
    t'.nextId = t.nextId ∧ t'.instances.get id = none ∧
      (∀ i, i ≠ id → t'.instances.get i = t.instances.get i) ∧
      (changed = false → t'.instances = t.instances) := by
  obtain ⟨hnext,-,-,hother⟩ := InstanceTables.delete_spec h
  simp only [InstanceTables.delete, Checked.bind_eq_ok, sqliteI64] at h
  obtain ⟨id',hid,h⟩ := h
  split_ifs at hid
  cases hid
  split_ifs at h with hsome
  · cases h
    exact ⟨hnext,OrdMap.get_erase_self _ _,hother,fun hfalse => Bool.noConfusion hfalse⟩
  · cases h
    exact ⟨hnext,by simpa using hsome,hother,fun _ => rfl⟩

theorem grows_of_delete {changed : Bool} {id : ℕ} (h : t.delete id = .ok (changed,t')) :
    Grows t t' := by
  obtain ⟨hnext,hgone,hother,-⟩ := get_of_delete h
  refine Grows.of_instances hnext ?_
  intro i row hrow
  by_cases hi : i = id
  · rw [hi, hgone] at hrow
    cases hrow
  · rwa [hother i hi] at hrow

theorem grows_of_run {w : PanelWrite} {changed : Bool} (h : w.run lib t = .ok (changed,t')) :
    Grows t t' := by
  cases w with
  | update u =>
    rw [PanelWrite.run, Checked.map_eq_ok] at h
    obtain ⟨⟨report,s⟩,happly,heq⟩ := h
    cases heq
    exact grows_of_update happly
  | delete id => exact grows_of_delete h

theorem grows_of_other (s : Panel) (w : OtherWrite) : Grows s.tables (s.otherStep lib w) := by
  cases w with
  | update u =>
    change Grows s.tables (u.next lib s.tables)
    unfold InstanceUpdate.next
    split
    · rename_i happly
      exact grows_of_update happly
    · exact Grows.refl _
  | create installation config desired now =>
    unfold Panel.otherStep
    dsimp only
    split
    · rename_i hcreate
      exact grows_of_create hcreate
    · exact Grows.refl _
  | delete id =>
    unfold Panel.otherStep
    dsimp only
    split
    · rename_i hdelete
      exact grows_of_delete hdelete
    · exact Grows.refl _

end Writes

/-- The form of the base after the user has edited values. -/
def Edited (base fields : List ConfigField) : Prop :=
  List.Forall₂ (fun b f => f.key = b.key ∧ f.label = b.label ∧ f.kind = b.kind ∧
    f.required = b.required) base fields

/-- The command is one that the user could give with one of the snapshots before them. -/
def Aimed (shown : List ControlSnapshot) : ControlCommand → Prop
  | .create pluginId version fields => ∃ snapshot ∈ shown, ∃ r ∈ snapshot.installations,
    r.pluginId = pluginId ∧ r.version = version ∧ Edited r.fields fields
  | .configure id fields => ∃ snapshot ∈ shown, ∃ r ∈ snapshot.instances,
    r.id = id ∧ Edited r.fields fields
  | .setDesired id _ => ∃ snapshot ∈ shown, ∃ r ∈ snapshot.instances, r.id = id
  | .delete id => ∃ snapshot ∈ shown, ∃ r ∈ snapshot.instances, r.id = id
  | .stop => True

/-- The form belongs to the selection. -/
def SelectionFits (shown : List ControlSnapshot) (fields : List ConfigField) : Selection → Prop
  | .none => True
  | .installation pluginId version => Aimed shown (.create pluginId version fields)
  | .pluginInstance id => Aimed shown (.configure id fields)

/-- The row of the instance was this one, if it is still there. -/
def Was (t : InstanceTables) (id : ℕ) (row : PluginInstance) : Prop :=
  id < t.nextId ∧ ∀ row', t.instances.get id = some row' → ∃ n, Later row row' n

/-- What a snapshot says of an instance is what its row was. -/
def Known (t : InstanceTables) (r : InstanceRecord) : Prop := Was t r.id r.row

/-- The form describes the configuration, and the installation accepts it. -/
def Describes (configLib : ConfigLib) (texts : TextLib) (installed : InstalledInstallation)
    (fields : List ConfigField) (config : InstanceConfig) : Prop :=
  configFromFields texts configLib fields = .ok config ∧
    installed.validateConfig configLib config = .ok ()

/-- The write is the one that the command asks for, and the row that the command has read passed the
checks. -/
def Intended {Version : Type} (lib : InstallLib Version) (configLib : ConfigLib) (texts : TextLib)
    (t : InstanceTables) : ControlCommand → PanelWrite → Prop
  | .configure id fields, w => ∃ row dirs installed config now, Was t id row ∧
    row.desiredState = .stopped ∧ loadReference lib dirs row.installation = .ok (some installed) ∧
    Describes configLib texts installed fields config ∧
    w = .update (.updateConfig id config (max now row.updatedAt))
  | .setDesired id desired, w => ∃ row now, Was t id row ∧
    w = .update (.setDesiredState id desired (max now row.updatedAt))
  | .delete id, w => ∃ row, Was t id row ∧ row.desiredState = .stopped ∧ w = .delete id
  | .create _ _ _, _ => False
  | .stop, _ => False

theorem Edited.refl (fields : List ConfigField) : Edited fields fields :=
  List.forall₂_same.mpr fun _ _ => ⟨rfl,rfl,rfl,rfl⟩

theorem Edited.editField {base fields : List ConfigField} (h : Edited base fields) (index : ℕ)
    (value : String) (present : Bool) : Edited base (editField fields index value present) := by
  rw [ControlPanel.editField]
  cases hfield : fields[index]? with
  | none => exact h
  | some field =>
    dsimp only
    induction h generalizing index with
    | nil => exact List.Forall₂.nil
    | cons hhead htail ih =>
      cases index with
      | zero =>
        obtain rfl := Option.some.inj hfield
        exact List.Forall₂.cons hhead htail
      | succ index => exact List.Forall₂.cons hhead (ih index hfield)

theorem Aimed.mono {shown shown' : List ControlSnapshot} {c : ControlCommand} (h : Aimed shown c)
    (hsub : ∀ snapshot ∈ shown, snapshot ∈ shown') : Aimed shown' c := by
  cases c with
  | create pluginId version fields =>
    obtain ⟨snapshot,hmem,hrest⟩ := h
    exact ⟨snapshot,hsub snapshot hmem,hrest⟩
  | configure id fields =>
    obtain ⟨snapshot,hmem,hrest⟩ := h
    exact ⟨snapshot,hsub snapshot hmem,hrest⟩
  | setDesired id desired =>
    obtain ⟨snapshot,hmem,hrest⟩ := h
    exact ⟨snapshot,hsub snapshot hmem,hrest⟩
  | delete id =>
    obtain ⟨snapshot,hmem,hrest⟩ := h
    exact ⟨snapshot,hsub snapshot hmem,hrest⟩
  | stop => trivial

theorem SelectionFits.mono {shown shown' : List ControlSnapshot} {fields : List ConfigField}
    {selection : Selection} (h : SelectionFits shown fields selection)
    (hsub : ∀ snapshot ∈ shown, snapshot ∈ shown') : SelectionFits shown' fields selection := by
  cases selection with
  | none => trivial
  | installation pluginId version =>
    exact Aimed.mono (c := .create pluginId version fields) h hsub
  | pluginInstance id => exact Aimed.mono (c := .configure id fields) h hsub

theorem SelectionFits.normalize {shown : List ControlSnapshot} {fields : List ConfigField}
    {selection : Selection} (h : SelectionFits shown fields selection) (snapshot : ControlSnapshot) :
    SelectionFits shown fields (normalizeSelection snapshot selection) := by
  cases selection with
  | none => trivial
  | installation pluginId version =>
    rw [normalizeSelection]
    split_ifs
    · exact h
    · trivial
  | pluginInstance id =>
    rw [normalizeSelection]
    split_ifs
    · exact h
    · trivial

theorem SelectionFits.editField {shown : List ControlSnapshot} {fields : List ConfigField}
    {selection : Selection} (h : SelectionFits shown fields selection) (index : ℕ) (value : String)
    (present : Bool) : SelectionFits shown (editField fields index value present) selection := by
  cases selection with
  | none => trivial
  | installation pluginId version =>
    obtain ⟨snapshot,hmem,r,hr,hid,hversion,hedited⟩ := h
    exact ⟨snapshot,hmem,r,hr,hid,hversion,hedited.editField index value present⟩
  | pluginInstance id =>
    obtain ⟨snapshot,hmem,r,hr,hid,hedited⟩ := h
    exact ⟨snapshot,hmem,r,hr,hid,hedited.editField index value present⟩

theorem Was.grow {t t' : InstanceTables} {id : ℕ} {read : PluginInstance} (h : Was t id read)
    (hgrows : Grows t t') : Was t' id read := by
  refine ⟨lt_of_lt_of_le h.1 hgrows.nextId,?_⟩
  intro row' hrow'
  rcases hgrows.rows id row' hrow' with ⟨row,hrow,n,hlater⟩ | ⟨hle,-⟩
  · obtain ⟨m,hearlier⟩ := h.2 row hrow
    exact ⟨m + n,hearlier.trans hlater⟩
  · exact absurd h.1 (Nat.not_lt.mpr hle)

theorem IdsIssued.was {t : InstanceTables} (h : IdsIssued t) {id : ℕ} {row : PluginInstance}
    (hrow : t.instances.get id = some row) : Was t id row := by
  refine ⟨h id row hrow,?_⟩
  intro row' hrow'
  obtain rfl := Option.some.inj (hrow.symm.trans hrow')
  exact ⟨0,Later.refl _⟩

theorem Intended.grow {Version : Type} {lib : InstallLib Version} {configLib : ConfigLib}
    {texts : TextLib} {t t' : InstanceTables} {c : ControlCommand} {w : PanelWrite}
    (h : Intended lib configLib texts t c w) (hgrows : Grows t t') :
    Intended lib configLib texts t' c w := by
  cases c with
  | configure id fields =>
    obtain ⟨row,dirs,installed,config,now,hwas,hrest⟩ := h
    exact ⟨row,dirs,installed,config,now,hwas.grow hgrows,hrest⟩
  | setDesired id desired =>
    obtain ⟨row,now,hwas,hwrite⟩ := h
    exact ⟨row,now,hwas.grow hgrows,hwrite⟩
  | delete id =>
    obtain ⟨row,hwas,hrest⟩ := h
    exact ⟨row,hwas.grow hgrows,hrest⟩
  | create pluginId version fields => exact h
  | stop => exact h

theorem IdsIssued.grow {t t' : InstanceTables} (h : IdsIssued t) (hgrows : Grows t t') :
    IdsIssued t' := by
  intro id row' hrow'
  rcases hgrows.rows id row' hrow' with ⟨row,hrow,-⟩ | ⟨-,hlt⟩
  · exact lt_of_lt_of_le (h id row hrow) hgrows.nextId
  · exact hlt

theorem known_loadSnapshot {Version : Type} [LinearOrder Version] {lib : InstallLib Version}
    {configLib : ConfigLib} {texts : TextLib} {dirs : Dirs} {t : InstanceTables}
    {fault : Option StoreError} {notice : Option Notice} (h : IdsIssued t) :
    ∀ r ∈ (loadSnapshot lib configLib texts dirs t fault notice).instances, Known t r := by
  intro r hr
  rw [loadSnapshot] at hr
  split at hr
  · cases hr
  · split at hr
    · cases hr
    · simp only [List.map_map, List.mem_map] at hr
      obtain ⟨e,he,rfl⟩ := hr
      exact h.was (SortedMap.find_of_mem t.instances.ordered he)

structure Faithful {Version : Type} (lib : InstallLib Version) (configLib : ConfigLib)
    (texts : TextLib) (s : Panel) : Prop where
  order : s.asked = s.done.map Prod.fst ++ s.worker.current ++ s.commands.queue ++ s.lost
  live : s.commands.isOpen = true → s.lost = []
  working : s.worker ≠ .ended → s.commands.isOpen = true
  capacity : s.commands.capacity = controlQueueCapacity
  aimed : ∀ c ∈ s.asked, Aimed s.shown c
  here : s.snapshot ∈ s.shown
  fits : SelectionFits s.shown s.fields s.selection
  issued : IdsIssued s.tables
  shown : ∀ snapshot ∈ s.shown, ∀ r ∈ snapshot.instances, Known s.tables r
  waiting : ∀ snapshot ∈ s.snapshots.queue, ∀ r ∈ snapshot.instances, Known s.tables r
  intended : ∀ c w, s.worker = .write c w → Intended lib configLib texts s.tables c w

section Faithful

variable {Version : Type} {lib : InstallLib Version} {configLib : ConfigLib} {texts : TextLib}
  {s t : Panel}

theorem faithful_started {tables : InstanceTables} (h : IdsIssued tables) :
    Faithful lib configLib texts (Panel.started tables) := by
  refine ⟨rfl,fun _ => rfl,fun _ => rfl,rfl,nofun,List.mem_singleton_self _,trivial,h,?_,nofun,nofun⟩
  intro snapshot hmem r hr
  obtain rfl := List.mem_singleton.mp hmem
  cases hr

theorem Faithful.tryCommand (h : Faithful lib configLib texts s) {c : ControlCommand}
    (haimed : Aimed s.shown c) : Faithful lib configLib texts (s.tryCommand c) := by
  rw [Panel.tryCommand]
  split
  · rename_i commands hsend
    obtain ⟨⟨hopen,-⟩,hqueue,hsame,hcapacity⟩ := Channel.trySend_eq_ok hsend
    have hlost := h.live hopen
    refine ⟨?_,fun _ => hlost,fun hw => hsame.trans (h.working hw),hcapacity.trans h.capacity,?_,
      h.here,h.fits,h.issued,h.shown,h.waiting,h.intended⟩
    · dsimp only
      rw [h.order, hqueue, hlost, List.append_nil, List.append_nil, List.append_assoc _ s.commands.queue]
    · intro c' hc'
      rcases List.mem_append.mp hc' with hc' | hc'
      · exact h.aimed c' hc'
      · obtain rfl := List.mem_singleton.mp hc'
        exact haimed
  · exact h

theorem Faithful.onInstance (h : Faithful lib configLib texts s) {command : ℕ → ControlCommand}
    (haimed : ∀ id, Aimed s.shown (.configure id s.fields) → Aimed s.shown (command id)) :
    Faithful lib configLib texts (s.onInstance command) := by
  rw [Panel.onInstance]
  split
  · rename_i id hselected
    refine h.tryCommand (haimed id ?_)
    rw [Panel.selectedInstanceId] at hselected
    split at hselected
    · rename_i id' hselection
      split_ifs at hselected
      cases hselected
      have hfits := h.fits
      rw [hselection] at hfits
      exact hfits
    · cases hselected
  · exact h

theorem Faithful.createSelected (h : Faithful lib configLib texts s) :
    Faithful lib configLib texts s.createSelected := by
  rw [Panel.createSelected]
  split
  · rename_i pluginId version hselection
    split
    · rename_i record hrecord
      have hfits := h.fits
      rw [hselection] at hfits
      have hfound := List.find?_some hrecord
      obtain ⟨rfl,rfl⟩ := of_decide_eq_true hfound
      exact h.tryCommand hfits
    · exact h
  · exact h

theorem Faithful.drain (h : Faithful lib configLib texts s) : Faithful lib configLib texts s.drain := by
  rw [Panel.drain]
  split
  · exact h
  · rename_i snapshot hlast
    have hmem : snapshot ∈ s.snapshots.queue := List.mem_of_getLast? hlast
    have hsub : ∀ x ∈ s.shown, x ∈ s.shown ++ [snapshot] := fun x hx => List.mem_append_left _ hx
    refine ⟨h.order,h.live,h.working,h.capacity,fun c hc => (h.aimed c hc).mono hsub,?_,
      (h.fits.mono hsub).normalize snapshot,h.issued,?_,nofun,h.intended⟩
    · exact List.mem_append_right _ (List.mem_singleton_self _)
    · intro x hx r hr
      rcases List.mem_append.mp hx with hx | hx
      · exact h.shown x hx r hr
      · obtain rfl := List.mem_singleton.mp hx
        exact h.waiting x hmem r hr

/-- The tables grow, and the worker is done with its command. -/
theorem Faithful.finish (h : Faithful lib configLib texts s) {c : ControlCommand}
    (hcurrent : s.worker.current = [c]) {tables : InstanceTables} (hgrows : Grows s.tables tables)
    (result : Notice) : Faithful lib configLib texts (s.finish tables c result) := by
  have hworker : s.worker ≠ .ended := by
    intro hended
    rw [hended] at hcurrent
    cases hcurrent
  refine ⟨?_,h.live,fun _ => h.working hworker,h.capacity,h.aimed,h.here,h.fits,h.issued.grow hgrows,
    fun x hx r hr => (h.shown x hx r hr).grow hgrows,fun x hx r hr => (h.waiting x hx r hr).grow hgrows,
    nofun⟩
  change s.asked = (s.done ++ [(c,result)]).map Prod.fst ++ [] ++ s.commands.queue ++ s.lost
  rw [h.order, hcurrent, List.map_append, List.append_nil]
  rfl

theorem Faithful.other (h : Faithful lib configLib texts s) {tables : InstanceTables}
    (hgrows : Grows s.tables tables) : Faithful lib configLib texts { s with tables := tables } :=
  ⟨h.order,h.live,h.working,h.capacity,h.aimed,h.here,h.fits,h.issued.grow hgrows,
    fun x hx r hr => (h.shown x hx r hr).grow hgrows,fun x hx r hr => (h.waiting x hx r hr).grow hgrows,
    fun c w hworker => (h.intended c w hworker).grow hgrows⟩

theorem requireInstalled_eq_ok {found : Except InstallationCatalogError (Option InstalledInstallation)}
    {installed : InstalledInstallation} (h : requireInstalled found = .ok installed) :
    found = .ok (some installed) := by
  rw [requireInstalled] at h
  cases found with
  | error e => cases h
  | ok found =>
    cases found with
    | none => cases h
    | some found =>
      obtain rfl := Except.ok.inj h
      rfl

theorem requireInstance_eq_ok {tables : InstanceTables} {id : ℕ} {row : PluginInstance}
    (h : requireInstance tables id = .ok row) : tables.instances.get id = some row := by
  simp only [requireInstance, Checked.bind_eq_ok, Checked.mapError_eq_ok] at h
  obtain ⟨found,hfound,hok⟩ := h
  cases found with
  | none => cases hok
  | some found =>
    obtain rfl := Except.ok.inj hok
    rw [InstanceTables.get, Checked.bind_eq_ok] at hfound
    obtain ⟨id',hid,hget⟩ := hfound
    obtain rfl := (sqliteI64_eq_ok.mp hid).2
    exact Except.ok.inj hget

theorem requireStopped_eq_ok {row : PluginInstance} (h : requireStopped row = .ok ()) :
    row.desiredState = .stopped := by
  rw [requireStopped] at h
  split_ifs at h with hstopped
  exact hstopped

theorem readForm_eq_ok {installed : InstalledInstallation} {fields : List ConfigField}
    {config : InstanceConfig} (h : readForm configLib texts installed fields = .ok config) :
    Describes configLib texts installed fields config := by
  simp only [readForm, Checked.bind_eq_ok, Checked.mapError_eq_ok] at h
  obtain ⟨read,hread,_,hvalid,hok⟩ := h
  cases hok
  exact ⟨hread,hvalid⟩

theorem createInstance_eq_ok {dirs : Dirs} {tables tables' : InstanceTables}
    {pluginId version : String} {fields : List ConfigField} {now : ℕ}
    (h : createInstance lib configLib texts dirs tables pluginId version fields now = .ok tables') :
    ∃ installed config reference id, loadExact lib dirs pluginId version = .ok (some installed) ∧
      Describes configLib texts installed fields config ∧
      installed.reference lib = .ok reference ∧
      tables.create lib reference config .stopped now = .ok (id,tables') := by
  simp only [createInstance, Checked.bind_eq_ok, Checked.mapError_eq_ok] at h
  obtain ⟨installed,hinstalled,config,hconfig,reference,hreference,⟨id,created⟩,hcreate,hok⟩ := h
  cases hok
  exact ⟨installed,config,reference,id,requireInstalled_eq_ok hinstalled,readForm_eq_ok hconfig,
    hreference,hcreate⟩

theorem checkCommand_intended {dirs : Dirs} {tables : InstanceTables} {now : ℕ} {c : ControlCommand}
    {w : PanelWrite} (hissued : IdsIssued tables)
    (h : checkCommand lib configLib texts dirs tables now c = .ok w) :
    Intended lib configLib texts tables c w := by
  cases c with
  | create pluginId version fields => cases h
  | configure id fields =>
    simp only [checkCommand, Checked.bind_eq_ok] at h
    obtain ⟨row,hrow,_,hstopped,installed,hinstalled,config,hconfig,hok⟩ := h
    exact ⟨row,dirs,installed,config,now,hissued.was (requireInstance_eq_ok hrow),
      requireStopped_eq_ok hstopped,requireInstalled_eq_ok hinstalled,readForm_eq_ok hconfig,
      (Except.ok.inj hok).symm⟩
  | setDesired id desired =>
    simp only [checkCommand, Checked.bind_eq_ok] at h
    obtain ⟨row,hrow,hok⟩ := h
    exact ⟨row,now,hissued.was (requireInstance_eq_ok hrow),(Except.ok.inj hok).symm⟩
  | delete id =>
    simp only [checkCommand, Checked.bind_eq_ok] at h
    obtain ⟨row,hrow,_,hstopped,hok⟩ := h
    exact ⟨row,hissued.was (requireInstance_eq_ok hrow),requireStopped_eq_ok hstopped,
      (Except.ok.inj hok).symm⟩
  | stop => cases h

variable (lib configLib texts) in
/-- The command is checked, and a write is prepared or the command is done. -/
theorem checkStep_cases (s : Panel) (hissued : IdsIssued s.tables) (dirs : Dirs) (now : ℕ)
    (c : ControlCommand) :
    (∃ pluginId version fields tables, c = .create pluginId version fields ∧
      createInstance lib configLib texts dirs s.tables pluginId version fields now = .ok tables ∧
      s.checkStep lib configLib texts dirs now c = s.finish tables c (.ok ())) ∨
    (∃ e, s.checkStep lib configLib texts dirs now c = s.finish s.tables c (.error e)) ∨
    ∃ w, Intended lib configLib texts s.tables c w ∧
      s.checkStep lib configLib texts dirs now c = { s with worker := .write c w } := by
  cases c with
  | create pluginId version fields =>
    unfold Panel.checkStep
    dsimp only
    split
    · exact Or.inr (Or.inl ⟨_,rfl⟩)
    · rename_i tables hcreate
      exact Or.inl ⟨_,_,_,tables,rfl,hcreate,rfl⟩
  | configure id fields =>
    unfold Panel.checkStep
    dsimp only
    split
    · exact Or.inr (Or.inl ⟨_,rfl⟩)
    · rename_i w hcheck
      exact Or.inr (Or.inr ⟨w,checkCommand_intended hissued hcheck,rfl⟩)
  | setDesired id desired =>
    unfold Panel.checkStep
    dsimp only
    split
    · exact Or.inr (Or.inl ⟨_,rfl⟩)
    · rename_i w hcheck
      exact Or.inr (Or.inr ⟨w,checkCommand_intended hissued hcheck,rfl⟩)
  | delete id =>
    unfold Panel.checkStep
    dsimp only
    split
    · exact Or.inr (Or.inl ⟨_,rfl⟩)
    · rename_i w hcheck
      exact Or.inr (Or.inr ⟨w,checkCommand_intended hissued hcheck,rfl⟩)
  | stop => exact Or.inr (Or.inl ⟨_,rfl⟩)

variable (lib) in
theorem writeStep_cases (s : Panel) (c : ControlCommand) (w : PanelWrite) :
    (∃ e, s.writeStep lib c w = s.finish s.tables c (.error e)) ∨
    ∃ changed tables, w.run lib s.tables = .ok (changed,tables) ∧
      ∃ result, s.writeStep lib c w = s.finish tables c result ∧
        (changed = true → result = .ok ()) := by
  rw [Panel.writeStep]
  split
  · exact Or.inl ⟨_,rfl⟩
  · rename_i tables hrun
    exact Or.inr ⟨false,tables,hrun,_,rfl,nofun⟩
  · rename_i tables hrun
    exact Or.inr ⟨true,tables,hrun,_,rfl,fun _ => rfl⟩

theorem Faithful.takeStep (h : Faithful lib configLib texts s) (hworker : s.worker = .wait)
    {c : ControlCommand} {commands : Channel ControlCommand}
    (hrecv : s.commands.recv = some (c,commands)) : Faithful lib configLib texts (s.takeStep c commands) := by
  obtain ⟨hqueue,hopen,hcapacity⟩ := Channel.queue_of_recv hrecv
  have hwas : s.commands.isOpen = true := h.working (by rw [hworker]; nofun)
  have hlost := h.live hwas
  have horder : s.asked = s.done.map Prod.fst ++ (c :: commands.queue) := by
    rw [h.order, hworker, hqueue, hlost, List.append_nil]
    change _ ++ [] ++ _ = _
    rw [List.append_nil]
  -- Every command but the last one is taken in the same way.
  have htaken : Faithful lib configLib texts { s with worker := .check c, commands := commands } := by
    refine ⟨?_,fun _ => hlost,fun _ => hopen.trans hwas,hcapacity.trans h.capacity,h.aimed,h.here,h.fits,
      h.issued,h.shown,h.waiting,nofun⟩
    dsimp only [WorkerPhase.current]
    rw [horder, hlost, List.append_nil, List.append_assoc]
    rfl
  cases c with
  | stop =>
    refine ⟨?_,nofun,fun hno => absurd rfl hno,hcapacity.trans h.capacity,h.aimed,h.here,h.fits,
      h.issued,h.shown,h.waiting,nofun⟩
    dsimp only [Panel.takeStep, Panel.endWorker, WorkerPhase.current, Channel.queue_close]
    rw [horder, List.map_append, List.append_nil, List.append_nil, List.append_assoc]
    rfl
  | create pluginId version fields => exact htaken
  | configure id fields => exact htaken
  | setDesired id desired => exact htaken
  | delete id => exact htaken

/-- A snapshot has shown the instance as it was, or as it is. -/
def Displayed (s : Panel) (id : ℕ) (row : PluginInstance) (r : InstanceRecord) : Prop :=
  (∃ snapshot ∈ s.shown, r ∈ snapshot.instances) ∧ r.id = id ∧ ∃ n, Later r.row row n

/-- What a command does to the row of an instance, and the checks before it: of the row that the
command has read, and of the installation. -/
inductive Effect (lib : InstallLib Version) (configLib : ConfigLib) (texts : TextLib) (s : Panel)
    (id : ℕ) : ControlCommand → Option PluginInstance → Option PluginInstance → Prop where
  | configure {row read : PluginInstance} {r : InstanceRecord} {fields : List ConfigField}
      {dirs : Dirs} {installed : InstalledInstallation} {config : InstanceConfig} {now : ℕ}
      (hshown : Displayed s id row r) (hedited : Edited r.fields fields)
      (hread : ∃ n, Later read row n) (hstopped : read.desiredState = .stopped)
      (hload : loadReference lib dirs read.installation = .ok (some installed))
      (hform : Describes configLib texts installed fields config) :
      Effect lib configLib texts s id (.configure id fields) (some row)
        (some { row with config := config, updatedAt := max now read.updatedAt })
  | setDesired {row read : PluginInstance} {r : InstanceRecord} {desired : InstanceDesiredState}
      {now : ℕ} (hshown : Displayed s id row r) (hread : ∃ n, Later read row n) :
      Effect lib configLib texts s id (.setDesired id desired) (some row)
        (some { row with desiredState := desired, updatedAt := max now read.updatedAt })
  | delete {row read : PluginInstance} {r : InstanceRecord} (hshown : Displayed s id row r)
      (hread : ∃ n, Later read row n) (hstopped : read.desiredState = .stopped) :
      Effect lib configLib texts s id (.delete id) (some row) none
  | create {pluginId version : String} {fields : List ConfigField} {snapshot : ControlSnapshot}
      {r : InstallationRecord} {dirs : Dirs} {installed : InstalledInstallation}
      {config : InstanceConfig} {reference : InstallationRef} {now : ℕ}
      (hshown : snapshot ∈ s.shown ∧ r ∈ snapshot.installations ∧ r.pluginId = pluginId ∧
        r.version = version) (hedited : Edited r.fields fields)
      (hload : loadExact lib dirs pluginId version = .ok (some installed))
      (hform : Describes configLib texts installed fields config)
      (hreference : installed.reference lib = .ok reference) :
      Effect lib configLib texts s id (.create pluginId version fields) none
        (some ⟨reference,config,.stopped,0,now,now⟩)

/-- A step of the panel changes rows only as its command asks, and a command that fails changes
none. -/
structure OwnStep (lib : InstallLib Version) (configLib : ConfigLib) (texts : TextLib)
    (s t : Panel) : Prop where
  changed : ∀ id, t.tables.instances.get id ≠ s.tables.instances.get id →
    ∃ c, s.worker.current = [c] ∧
      Effect lib configLib texts s id c (s.tables.instances.get id) (t.tables.instances.get id)
  failed : ∀ c e, t.done = s.done ++ [(c,.error e)] →
    ∀ id, t.tables.instances.get id = s.tables.instances.get id

theorem OwnStep.of_tables (h : t.tables = s.tables) : OwnStep lib configLib texts s t := by
  refine ⟨fun id hne => absurd ?_ hne,fun _ _ _ _ => ?_⟩
  · rw [h]
  · rw [h]

theorem tables_tryCommand (s : Panel) (c : ControlCommand) : (s.tryCommand c).tables = s.tables := by
  rw [Panel.tryCommand]
  split <;> rfl

theorem tables_onInstance (s : Panel) (command : ℕ → ControlCommand) :
    (s.onInstance command).tables = s.tables := by
  rw [Panel.onInstance]
  split
  · exact tables_tryCommand s _
  · rfl

theorem tables_createSelected (s : Panel) : s.createSelected.tables = s.tables := by
  rw [Panel.createSelected]
  split
  · split
    · exact tables_tryCommand s _
    · rfl
  · rfl

theorem tables_drain (s : Panel) : s.drain.tables = s.tables := by
  rw [Panel.drain]
  split <;> rfl

theorem tables_announce (s : Panel) (snapshot : ControlSnapshot) :
    (s.announce snapshot).tables = s.tables := by
  rw [Panel.announce]
  split <;> rfl

theorem tables_openStep (s : Panel) (fault : Option StoreError) :
    (s.openStep fault).tables = s.tables := by
  cases fault with
  | none => rfl
  | some e => exact tables_announce s _

theorem tables_takeStep (s : Panel) (c : ControlCommand) (commands : Channel ControlCommand) :
    (s.takeStep c commands).tables = s.tables := by
  cases c <;> rfl

/-- The command that the worker is at was asked for. -/
theorem Faithful.aimed_current (h : Faithful lib configLib texts s) {c : ControlCommand}
    (hcurrent : s.worker.current = [c]) : Aimed s.shown c := by
  refine h.aimed c ?_
  rw [h.order, hcurrent]
  simp

/-- The row that a command changes is that of an instance that was shown. -/
theorem Faithful.displayed (h : Faithful lib configLib texts s) {id : ℕ} {row : PluginInstance}
    {snapshot : ControlSnapshot} {r : InstanceRecord} (hmem : snapshot ∈ s.shown)
    (hr : r ∈ snapshot.instances) (hid : r.id = id) (hrow : s.tables.instances.get id = some row) :
    Displayed s id row r :=
  ⟨⟨snapshot,hmem,hr⟩,hid,(h.shown snapshot hmem r hr).2 row (hid ▸ hrow)⟩

theorem Faithful.ownStep_create (h : Faithful lib configLib texts s) {pluginId version : String}
    {fields : List ConfigField} {dirs : Dirs} {now : ℕ} {tables : InstanceTables}
    (hcurrent : s.worker.current = [.create pluginId version fields])
    (hcreate : createInstance lib configLib texts dirs s.tables pluginId version fields now = .ok tables) :
    OwnStep lib configLib texts s (s.finish tables (.create pluginId version fields) (.ok ())) := by
  obtain ⟨installed,config,reference,id,hload,hform,hreference,hcreated⟩ :=
    createInstance_eq_ok hcreate
  obtain ⟨-,-,hfresh,hget⟩ := get_of_create hcreated
  obtain ⟨snapshot,hmem,r,hr,hpluginId,hversion,hedited⟩ := h.aimed_current hcurrent
  refine ⟨?_,?_⟩
  · intro i hne
    change tables.instances.get i ≠ _ at hne
    change ∃ c, _ ∧ Effect lib configLib texts s i c _ (tables.instances.get i)
    rw [hget] at hne ⊢
    split_ifs at hne ⊢ with hi
    · refine ⟨_,hcurrent,?_⟩
      rw [hi, hfresh]
      exact Effect.create ⟨hmem,hr,hpluginId,hversion⟩ hedited hload hform hreference
    · exact absurd rfl hne
  · intro c e hdone
    obtain ⟨-,hno⟩ := Prod.mk.inj (List.singleton_injective (List.append_cancel_left hdone))
    cases hno

/-- Only the row of the instance changes, from the one that is there. -/
theorem get_of_update {u : InstanceUpdate} {tables : InstanceTables} {changed : Bool}
    (hrun : (PanelWrite.update u).run lib s.tables = .ok (changed,tables)) {i : ℕ}
    (hne : tables.instances.get i ≠ s.tables.instances.get i) : changed = true ∧
      i = u.instanceId ∧ ∃ row, s.tables.instances.get i = some row ∧
        tables.instances.get i = some (u.write row) := by
  rw [PanelWrite.run, Checked.map_eq_ok] at hrun
  obtain ⟨⟨report,tables'⟩,happly,heq⟩ := hrun
  cases heq
  obtain ⟨-,hsame⟩ | ⟨row,hwrites,hreport,hsame⟩ := InstanceUpdate.apply_cases happly
  · rw [hsame] at hne
    exact absurd rfl hne
  · rw [hsame] at hne ⊢
    rw [InstanceUpdate.get_written] at hne ⊢
    split_ifs at hne ⊢ with hi
    · refine ⟨?_,hi,row,?_,rfl⟩
      · rw [hreport, InstanceUpdate.done_success]
      · rw [hi]
        exact hwrites.found
    · exact absurd rfl hne

theorem Faithful.ownStep_write (h : Faithful lib configLib texts s) {c : ControlCommand} {w : PanelWrite}
    (hworker : s.worker = .write c w) : OwnStep lib configLib texts s (s.writeStep lib c w) := by
  have hcurrent : s.worker.current = [c] := by
    rw [hworker]
    rfl
  obtain ⟨e,heq⟩ | ⟨changed,tables,hrun,result,heq,hchanged⟩ := writeStep_cases lib s c w
  · rw [heq]
    exact OwnStep.of_tables rfl
  · have haimed := h.aimed_current hcurrent
    have hintended := h.intended c w hworker
    rw [heq]
    -- A row that changes is that of the command, and the write has reported a change.
    have hrows : ∀ i, tables.instances.get i ≠ s.tables.instances.get i → changed = true ∧
        Effect lib configLib texts s i c (s.tables.instances.get i) (tables.instances.get i) := by
      intro i hne
      cases c with
      | create pluginId version fields => exact hintended.elim
      | stop => exact hintended.elim
      | configure id fields =>
        obtain ⟨read,dirs,installed,config,now,hwas,hstopped,hload,hform,rfl⟩ := hintended
        obtain ⟨hyes,rfl,row,hrow,hwritten⟩ := get_of_update hrun hne
        obtain ⟨snapshot,hmem,r,hr,hid,hedited⟩ := haimed
        rw [hrow, hwritten]
        exact ⟨hyes,Effect.configure (h.displayed hmem hr hid hrow) hedited (hwas.2 row hrow)
          hstopped hload hform⟩
      | setDesired id desired =>
        obtain ⟨read,now,hwas,rfl⟩ := hintended
        obtain ⟨hyes,rfl,row,hrow,hwritten⟩ := get_of_update hrun hne
        obtain ⟨snapshot,hmem,r,hr,hid⟩ := haimed
        rw [hrow, hwritten]
        exact ⟨hyes,Effect.setDesired (h.displayed hmem hr hid hrow) (hwas.2 row hrow)⟩
      | delete id =>
        obtain ⟨read,hwas,hstopped,rfl⟩ := hintended
        obtain ⟨-,hgone,hother,hsame⟩ := get_of_delete hrun
        obtain ⟨snapshot,hmem,r,hr,hid⟩ := haimed
        by_cases hi : i = id
        · subst hi
          rw [hgone] at hne ⊢
          cases hrow : s.tables.instances.get i with
          | none => exact absurd hrow.symm hne
          | some row =>
            refine ⟨?_,Effect.delete (h.displayed hmem hr hid hrow) (hwas.2 row hrow) hstopped⟩
            cases changed with
            | true => rfl
            | false =>
              rw [← hsame rfl, hgone] at hrow
              cases hrow
        · exact absurd (hother i hi) hne
    refine ⟨fun i hne => ⟨c,hcurrent,(hrows i hne).2⟩,?_⟩
    intro c' e hdone i
    obtain ⟨-,hresult⟩ := Prod.mk.inj (List.singleton_injective (List.append_cancel_left hdone))
    by_contra hne
    rw [hchanged (hrows i hne).1] at hresult
    cases hresult

/-- The window changes its form and its selection. -/
theorem Faithful.select (h : Faithful lib configLib texts s) {fields : List ConfigField}
    {selection : Selection} (hfits : SelectionFits s.shown fields selection) :
    Faithful lib configLib texts { s with fields := fields, selection := selection } :=
  ⟨h.order,h.live,h.working,h.capacity,h.aimed,h.here,hfits,h.issued,h.shown,h.waiting,h.intended⟩

theorem Faithful.close (h : Faithful lib configLib texts s) :
    Faithful lib configLib texts { s.tryCommand .stop with closed := true } := by
  have hsent := h.tryCommand (c := .stop) trivial
  exact ⟨hsent.order,hsent.live,hsent.working,hsent.capacity,hsent.aimed,hsent.here,hsent.fits,
    hsent.issued,hsent.shown,hsent.waiting,hsent.intended⟩

/-- The worker goes on between two commands. -/
theorem Faithful.between (h : Faithful lib configLib texts s) {worker : WorkerPhase}
    (hlive : s.worker ≠ .ended) (hbefore : s.worker.current = []) (hafter : worker.current = []) :
    Faithful lib configLib texts { s with worker := worker } := by
  refine ⟨?_,h.live,fun _ => h.working hlive,h.capacity,h.aimed,h.here,h.fits,h.issued,h.shown,
    h.waiting,?_⟩
  · change s.asked = _ ++ worker.current ++ _ ++ _
    rw [hafter, ← hbefore]
    exact h.order
  · rintro c w rfl
    cases hafter

theorem Faithful.announce (h : Faithful lib configLib texts s) {snapshot : ControlSnapshot}
    (hknown : ∀ r ∈ snapshot.instances, Known s.tables r) :
    Faithful lib configLib texts (s.announce snapshot) := by
  rw [Panel.announce]
  split
  · rename_i snapshots hsend
    obtain ⟨-,hqueue,-⟩ := Channel.trySend_eq_ok hsend
    refine ⟨h.order,h.live,h.working,h.capacity,h.aimed,h.here,h.fits,h.issued,h.shown,?_,h.intended⟩
    intro x hx r hr
    dsimp only at hx
    rw [hqueue] at hx
    rcases List.mem_append.mp hx with hx | hx
    · exact h.waiting x hx r hr
    · obtain rfl := List.mem_singleton.mp hx
      exact hknown r hr
  · exact h

/-- The commands that are left over are lost. -/
theorem Faithful.endWorker (h : Faithful lib configLib texts s) (hlive : s.worker ≠ .ended)
    (hbefore : s.worker.current = []) : Faithful lib configLib texts s.endWorker := by
  refine ⟨?_,nofun,fun hno => absurd rfl hno,h.capacity,h.aimed,h.here,h.fits,h.issued,h.shown,
    h.waiting,nofun⟩
  have horder := h.order
  rw [hbefore, h.live (h.working hlive)] at horder
  simpa [Panel.endWorker, WorkerPhase.current] using horder

theorem Faithful.openStep (h : Faithful lib configLib texts s) (hworker : s.worker = .opening)
    (fault : Option StoreError) : Faithful lib configLib texts (s.openStep fault) := by
  have hlive : s.worker ≠ .ended := by rw [hworker]; nofun
  have hbefore : s.worker.current = [] := by rw [hworker]; rfl
  cases fault with
  | none => exact h.between hlive hbefore rfl
  | some e =>
    have hannounced : Faithful lib configLib texts (s.announce ⟨[],[],some (.error (.store e))⟩) :=
      h.announce (by intro r hr; cases hr)
    have hsame : (s.announce ⟨[],[],some (.error (.store e))⟩).worker = s.worker := by
      rw [Panel.announce]
      split <;> rfl
    exact hannounced.endWorker (hsame ▸ hlive) (by rw [hsame]; exact hbefore)

theorem Faithful.checkStep (h : Faithful lib configLib texts s) {c : ControlCommand}
    (hworker : s.worker = .check c) (dirs : Dirs) (now : ℕ) :
    Faithful lib configLib texts (s.checkStep lib configLib texts dirs now c) := by
  have hcurrent : s.worker.current = [c] := by rw [hworker]; rfl
  obtain ⟨pluginId,version,fields,tables,-,hcreate,heq⟩ | ⟨e,heq⟩ | ⟨w,hintended,heq⟩ :=
    checkStep_cases lib configLib texts s h.issued dirs now c
  · obtain ⟨_,_,_,_,-,-,-,hcreated⟩ := createInstance_eq_ok hcreate
    rw [heq]
    exact h.finish hcurrent (grows_of_create hcreated) _
  · rw [heq]
    exact h.finish hcurrent (Grows.refl _) _
  · rw [heq]
    have horder := h.order
    rw [hworker] at horder
    refine ⟨horder,h.live,fun _ => h.working (by rw [hworker]; nofun),h.capacity,h.aimed,h.here,
      h.fits,h.issued,h.shown,h.waiting,?_⟩
    intro c' w' hsame
    cases hsame
    exact hintended

theorem Faithful.writeStep (h : Faithful lib configLib texts s) {c : ControlCommand}
    {w : PanelWrite} (hworker : s.worker = .write c w) :
    Faithful lib configLib texts (s.writeStep lib c w) := by
  have hcurrent : s.worker.current = [c] := by rw [hworker]; rfl
  obtain ⟨e,heq⟩ | ⟨changed,tables,hrun,result,heq,-⟩ := writeStep_cases lib s c w
  · rw [heq]
    exact h.finish hcurrent (Grows.refl _) _
  · rw [heq]
    exact h.finish hcurrent (grows_of_run hrun) _

/-- The steps of the window, and those of the worker with what it does in them. -/
inductive PanelStep [LinearOrder Version] (lib : InstallLib Version) (configLib : ConfigLib)
    (texts : TextLib) (s : Panel) : PanelLabel → Panel → Prop where
  | drain : PanelStep lib configLib texts s .drain s.drain
  | selectInstallation {index : ℕ} {record : InstallationRecord}
      (hrecord : record ∈ s.snapshot.installations) :
      PanelStep lib configLib texts s (.selectInstallation index) { s with
        fields := record.fields, selection := .installation record.pluginId record.version }
  | selectInstance {index : ℕ} {record : InstanceRecord}
      (hrecord : record ∈ s.snapshot.instances) :
      PanelStep lib configLib texts s (.selectInstance index) { s with
        fields := record.fields, selection := .pluginInstance record.id }
  | stay {label : PanelLabel} : PanelStep lib configLib texts s label s
  | edit {index : ℕ} {value : String} {present : Bool} :
      PanelStep lib configLib texts s (.edit index value present)
        { s with fields := editField s.fields index value present }
  | create : PanelStep lib configLib texts s .create s.createSelected
  | command {label : PanelLabel} {command : ℕ → ControlCommand}
      (haimed : ∀ id, Aimed s.shown (.configure id s.fields) → Aimed s.shown (command id)) :
      PanelStep lib configLib texts s label (s.onInstance command)
  | close : PanelStep lib configLib texts s .close { s.tryCommand .stop with closed := true }
  | openDatabase {fault : Option StoreError} (hworker : s.worker = .opening) :
      PanelStep lib configLib texts s (.openStore fault) (s.openStep fault)
  | load {dirs : Dirs} {fault : Option StoreError} {notice : Option Notice}
      (hworker : s.worker = .load notice) :
      PanelStep lib configLib texts s (.load dirs fault) ({ s with worker := .wait }.announce
        (loadSnapshot lib configLib texts dirs s.tables fault notice))
  | take {c : ControlCommand} {commands : Channel ControlCommand} (hworker : s.worker = .wait)
      (hrecv : s.commands.recv = some (c,commands)) :
      PanelStep lib configLib texts s .take (s.takeStep c commands)
  | timeout (hworker : s.worker = .wait) :
      PanelStep lib configLib texts s .timeout { s with worker := .load none }
  | disconnect (hworker : s.worker = .wait) :
      PanelStep lib configLib texts s .disconnect s.endWorker
  | check {dirs : Dirs} {now : ℕ} {c : ControlCommand} (hworker : s.worker = .check c) :
      PanelStep lib configLib texts s (.check dirs now) (s.checkStep lib configLib texts dirs now c)
  | write {c : ControlCommand} {w : PanelWrite} (hworker : s.worker = .write c w) :
      PanelStep lib configLib texts s .write (s.writeStep lib c w)
  | other {w : OtherWrite} :
      PanelStep lib configLib texts s (.other w) { s with tables := s.otherStep lib w }

variable [LinearOrder Version]

theorem window_cases {label : PanelLabel} {result : Panel} (h : (if s.closed then none
      else some result) = some t) (hresult : PanelStep lib configLib texts s label result) :
    PanelStep lib configLib texts s label t := by
  split_ifs at h
  cases h
  exact hresult

theorem step_cases {label : PanelLabel} (h : s.step lib configLib texts label = some t) :
    PanelStep lib configLib texts s label t := by
  cases label with
  | drain => exact window_cases h .drain
  | selectInstallation index =>
    rw [Panel.step] at h
    split_ifs at h
    split at h <;> cases h
    · rename_i record hrecord
      exact .selectInstallation (List.mem_of_getElem? hrecord)
    · exact .stay
  | selectInstance index =>
    rw [Panel.step] at h
    split_ifs at h
    split at h <;> cases h
    · rename_i record hrecord
      exact .selectInstance (List.mem_of_getElem? hrecord)
    · exact .stay
  | edit index value present => exact window_cases h .edit
  | create => exact window_cases h .create
  | save => exact window_cases h (.command fun _ haimed => haimed)
  | setDesired desired =>
    refine window_cases h (.command ?_)
    rintro id ⟨snapshot,hmem,r,hr,hid,-⟩
    exact ⟨snapshot,hmem,r,hr,hid⟩
  | delete =>
    refine window_cases h (.command ?_)
    rintro id ⟨snapshot,hmem,r,hr,hid,-⟩
    exact ⟨snapshot,hmem,r,hr,hid⟩
  | close => exact window_cases h .close
  | openStore fault =>
    rw [Panel.step] at h
    split at h <;> cases h
    rename_i hworker
    exact .openDatabase hworker
  | load dirs fault =>
    rw [Panel.step] at h
    split at h <;> cases h
    rename_i notice hworker
    exact .load hworker
  | take =>
    rw [Panel.step] at h
    split at h <;> cases h
    rename_i c commands hworker hrecv
    exact .take hworker hrecv
  | timeout =>
    rw [Panel.step] at h
    split at h
    · rename_i hworker
      split_ifs at h
      cases h
      exact .timeout hworker
    · cases h
  | disconnect =>
    rw [Panel.step] at h
    split at h
    · rename_i hworker
      split_ifs at h
      cases h
      exact .disconnect hworker
    · cases h
  | check dirs now =>
    rw [Panel.step] at h
    split at h <;> cases h
    rename_i c hworker
    exact .check hworker
  | write =>
    rw [Panel.step] at h
    split at h <;> cases h
    rename_i c w hworker
    exact .write hworker
  | other w =>
    cases h
    exact .other

theorem Faithful.step (h : Faithful lib configLib texts s) {label : PanelLabel}
    (hstep : PanelStep lib configLib texts s label t) : Faithful lib configLib texts t := by
  cases hstep with
  | drain => exact h.drain
  | selectInstallation hrecord =>
    exact h.select ⟨s.snapshot,h.here,_,hrecord,rfl,rfl,Edited.refl _⟩
  | selectInstance hrecord => exact h.select ⟨s.snapshot,h.here,_,hrecord,rfl,Edited.refl _⟩
  | stay => exact h
  | edit => exact h.select (h.fits.editField _ _ _)
  | create => exact h.createSelected
  | command haimed => exact h.onInstance haimed
  | close => exact h.close
  | openDatabase hworker => exact h.openStep hworker _
  | load hworker =>
    have hwaiting : Faithful lib configLib texts { s with worker := .wait } :=
      h.between (by rw [hworker]; nofun) (by rw [hworker]; rfl) rfl
    exact hwaiting.announce (known_loadSnapshot h.issued)
  | take hworker hrecv => exact h.takeStep hworker hrecv
  | timeout hworker => exact h.between (by rw [hworker]; nofun) (by rw [hworker]; rfl) rfl
  | disconnect hworker => exact h.endWorker (by rw [hworker]; nofun) (by rw [hworker]; rfl)
  | check hworker => exact h.checkStep hworker _ _
  | write hworker => exact h.writeStep hworker
  | other => exact h.other (grows_of_other s _)

/-- A step that is not one of another process. -/
def PanelLabel.own : PanelLabel → Bool
  | .other _ => false
  | _ => true

theorem Faithful.ownStep (h : Faithful lib configLib texts s) {label : PanelLabel}
    (hown : label.own = true) (hstep : PanelStep lib configLib texts s label t) :
    OwnStep lib configLib texts s t := by
  cases hstep with
  | drain => exact OwnStep.of_tables (tables_drain s)
  | create => exact OwnStep.of_tables (tables_createSelected s)
  | command => exact OwnStep.of_tables (tables_onInstance s _)
  | close => exact OwnStep.of_tables (tables_tryCommand s _)
  | @openDatabase fault => exact OwnStep.of_tables (tables_openStep s fault)
  | load => exact OwnStep.of_tables (tables_announce _ _)
  | take => exact OwnStep.of_tables (tables_takeStep s _ _)
  | @check dirs now c hworker =>
    obtain ⟨pluginId,version,fields,tables,rfl,hcreate,heq⟩ | ⟨e,heq⟩ | ⟨w,-,heq⟩ :=
      checkStep_cases lib configLib texts s h.issued dirs now c
    · rw [heq]
      refine h.ownStep_create ?_ hcreate
      rw [hworker]
      rfl
    · rw [heq]
      exact OwnStep.of_tables rfl
    · rw [heq]
      exact OwnStep.of_tables rfl
  | write hworker => exact h.ownStep_write hworker
  | other => cases hown
  | selectInstallation | selectInstance | stay | edit | timeout | disconnect =>
    exact OwnStep.of_tables rfl

end Faithful

/-- The user selects the clock and starts it. -/
def startClock : List PanelLabel :=
  [.openStore none,.load OrdMap.empty none,.drain,.selectInstance 0,.setDesired .running,.take,.check OrdMap.empty 200]

abbrev clockPanel : Panel → PanelLabel → Option Panel :=
  fun s => s.step rollbackLib scaleLib scaleTexts

def aboutToStart : Option Panel := startClock.foldlM clockPanel (Panel.started pinnedClock)

def clockStarted : Option Panel := aboutToStart.bind (fun s => clockPanel s .write)

theorem startClock_evaluated : aboutToStart.isSome = true ∧
    (aboutToStart.bind fun s => (s.tables.instances.get 2).map PluginInstance.desiredState) =
      some .stopped ∧
    (clockStarted.bind fun t => (t.tables.instances.get 2).map PluginInstance.desiredState) =
      some .running := by
  decide +kernel

end Floatile.Shell.ControlPanel
