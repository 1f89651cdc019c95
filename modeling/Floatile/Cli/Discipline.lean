import Floatile.Cli.CrashSafety
import Floatile.Cli.Instance

/-! Instances change only while they are stopped and keep a configuration that their installation
accepts, in every run in which no other command changes what a command has checked before it
writes. -/
namespace Floatile.Cli

open Floatile.Core
open Floatile.Core.Distribution (RollbackPlanError planRollback)
open Floatile.Lib
open Floatile.Lib.Transition
open Floatile.Store

section Discipline

variable {Version : Type} (lib : InstallLib Version) (configLib : ConfigLib) (dirs : Dirs)

/-- An installation in the plugin store that has the reference accepts the configuration. -/
def Meets (reference : InstallationRef) (config : InstanceConfig) : Prop :=
  ∃ id version installed, loadExact lib dirs id version = .ok (some installed) ∧
    installed.reference lib = .ok reference ∧ installed.validateConfig configLib config = .ok ()

def ConfigsMeet (t : InstanceTables) : Prop :=
  ∀ id row, t.instances.get id = some row → Meets lib configLib dirs row.installation row.config

/-- Configuration, installation and existence of an instance change only if it is stopped. -/
def KeptUnlessStopped (t t' : InstanceTables) : Prop :=
  ∀ id row, t.instances.get id = some row → row.desiredState = .stopped ∨
    ∃ row', t'.instances.get id = some row' ∧ row'.config = row.config ∧
      row'.installation = row.installation

/-- What the checks of a command say of a row. -/
def ChecksHold (row : PluginInstance) : InstanceWrite → Prop
  | .updateConfig _ config _ =>
    row.desiredState = .stopped ∧ Meets lib configLib dirs row.installation config
  | .setDesiredState _ _ _ => True
  | .delete _ => row.desiredState = .stopped
  | .rollbackInstallation _ current target _ _ =>
    Meets lib configLib dirs (InstanceTables.repinned current target) row.config

/-- A row agrees with the one that was read in what the command has checked. -/
def AsRead (read row : PluginInstance) : InstanceWrite → Prop
  | .updateConfig _ _ _ =>
    row.desiredState = read.desiredState ∧ row.installation = read.installation
  | .setDesiredState _ _ _ => True
  | .delete _ => row.desiredState = read.desiredState
  | .rollbackInstallation _ _ _ _ _ => row.config = read.config

/-- No other command has changed what the command that writes has checked. -/
def WritesAsRead (s : InstanceSite) : InstanceStep → Prop
  | .write process => ∀ pending, s.running.get process = some pending → ∀ row,
    pending.write.selected lib s.tables = .ok (some row) → AsRead pending.read row pending.write
  | _ => True

variable {lib configLib dirs} {t t' : InstanceTables}

theorem get_of_matching {id updatedAt : ℕ} {row : PluginInstance}
    (h : t.matching id updatedAt = .ok (some row)) : t.instances.get id = some row := by
  simp only [InstanceTables.matching, sqliteI64, Checked.bind_eq_ok, Except.ok.injEq] at h
  obtain ⟨i,hi,_,-,hrow⟩ := h
  split_ifs at hi
  obtain rfl := Except.ok.inj hi
  exact (Option.filter_eq_some_iff.mp hrow).1

/-- The row that a rollback changes. -/
theorem get_of_rollbackMatching {id updatedAt : ℕ} {current target : InstallationRef}
    {reason : String} {row : PluginInstance}
    (h : t.rollbackMatching lib id current target reason updatedAt = .ok (some row)) :
    t.instances.get id = some row ∧ row.installation = current ∧ row.desiredState = .stopped := by
  simp only [InstanceTables.rollbackMatching, Checked.check_bind_eq_ok] at h
  obtain ⟨-,-,-,h⟩ := h
  obtain ⟨found,hfound,h⟩ := Checked.bind_eq_ok.mp h
  obtain ⟨-,h⟩ := Checked.check_bind_eq_ok.mp h
  obtain ⟨rfl,hrow⟩ := Option.filter_eq_some_iff.mp (Except.ok.inj h)
  exact ⟨get_of_matching hfound,of_decide_eq_true hrow⟩

/-- A write that leaves every row as it is. -/
theorem disciplined_of_instances_eq (h : ConfigsMeet lib configLib dirs t)
    (heq : t'.instances = t.instances) :
    KeptUnlessStopped t t' ∧ ConfigsMeet lib configLib dirs t' :=
  ⟨fun _ row hrow => Or.inr ⟨row,heq ▸ hrow,rfl,rfl⟩,fun id row hrow => h id row (heq ▸ hrow)⟩

/-- A row is replaced with discipline when it is stopped or keeps what matters, and its
configuration meets its contract afterwards. -/
theorem insert_disciplined (h : ConfigsMeet lib configLib dirs t) {id : ℕ}
    {row row' : PluginInstance} (hrow : t.instances.get id = some row)
    (heq : t'.instances = t.instances.insert id row')
    (hkept : row.desiredState = .stopped ∨
      row'.config = row.config ∧ row'.installation = row.installation)
    (hmeets : Meets lib configLib dirs row'.installation row'.config) :
    KeptUnlessStopped t t' ∧ ConfigsMeet lib configLib dirs t' := by
  have hself : t'.instances.get id = some row' := by rw [heq, OrdMap.get_insert_self]
  have hother : ∀ i, i ≠ id → t'.instances.get i = t.instances.get i := by
    intro i hi
    rw [heq, OrdMap.get_insert_of_ne _ hi]
  constructor
  · intro i r hr
    by_cases hi : i = id
    · subst hi
      rw [hrow] at hr
      obtain rfl := Option.some.inj hr
      exact hkept.imp_right fun hsame => ⟨row',hself,hsame⟩
    · exact Or.inr ⟨r,(hother i hi).trans hr,rfl,rfl⟩
  · intro i r hr
    by_cases hi : i = id
    · subst hi
      rw [hself] at hr
      obtain rfl := Option.some.inj hr
      exact hmeets
    · exact h i r ((hother i hi).symm.trans hr)

theorem erase_disciplined (h : ConfigsMeet lib configLib dirs t) {id : ℕ} {row : PluginInstance}
    (hrow : t.instances.get id = some row) (heq : t'.instances = t.instances.erase id)
    (hstopped : row.desiredState = .stopped) :
    KeptUnlessStopped t t' ∧ ConfigsMeet lib configLib dirs t' := by
  have hself : t'.instances.get id = none := by rw [heq, OrdMap.get_erase_self]
  have hother : ∀ i, i ≠ id → t'.instances.get i = t.instances.get i := by
    intro i hi
    rw [heq, OrdMap.get_erase_of_ne _ hi]
  constructor
  · intro i r hr
    by_cases hi : i = id
    · subst hi
      rw [hrow] at hr
      obtain rfl := Option.some.inj hr
      exact Or.inl hstopped
    · exact Or.inr ⟨r,(hother i hi).trans hr,rfl,rfl⟩
  · intro i r hr
    by_cases hi : i = id
    · subst hi
      rw [hself] at hr
      cases hr
    · exact h i r ((hother i hi).symm.trans hr)

/-- An update of the row that a condition finds, if it finds one. -/
theorem update_disciplined (h : ConfigsMeet lib configLib dirs t) {id : ℕ}
    (found : Except StoreError (Option PluginInstance)) (row' : PluginInstance → PluginInstance)
    {f : PluginInstance → InstanceTables}
    (hfound : ∀ row, found = .ok (some row) → t.instances.get id = some row)
    (hf : ∀ row, (f row).instances = t.instances.insert id (row' row))
    (hrow : ∀ row, found = .ok (some row) →
      (row.desiredState = .stopped ∨
        (row' row).config = row.config ∧ (row' row).installation = row.installation) ∧
      Meets lib configLib dirs (row' row).installation (row' row).config) :
    let outcome := found >>= fun
      | none => .ok (false,t)
      | some row => .ok (true,f row)
    let t' := (requireChanged t id outcome : Except (InstanceCommandError Version) Unit × _).2
    KeptUnlessStopped t t' ∧ ConfigsMeet lib configLib dirs t' := by
  rcases found with e | _ | row
  · exact disciplined_of_instances_eq h rfl
  · exact disciplined_of_instances_eq h rfl
  · obtain ⟨hkept,hmeets⟩ := hrow row rfl
    exact insert_disciplined h (hfound row rfl) (hf row) hkept hmeets

theorem delete_disciplined (h : ConfigsMeet lib configLib dirs t) (id : ℕ)
    (hrow : ∀ row, t.get id = .ok (some row) → row.desiredState = .stopped) :
    let t' := (requireChanged t id (t.delete id) : Except (InstanceCommandError Version) Unit × _).2
    KeptUnlessStopped t t' ∧ ConfigsMeet lib configLib dirs t' := by
  unfold InstanceTables.delete
  unfold InstanceTables.get at hrow
  rcases hid : sqliteI64 id "instance_id" with e | i
  · exact disciplined_of_instances_eq h rfl
  · obtain rfl := (sqliteI64_eq_ok.mp hid).2
    rw [hid] at hrow
    simp only [Checked.ok_bind]
    cases hfound : t.instances.get i with
    | none => exact disciplined_of_instances_eq h rfl
    | some row =>
      refine erase_disciplined h hfound rfl (hrow row ?_)
      rw [Checked.ok_bind, hfound]

/-- A write is disciplined when the checks of its command hold of the row it changes. -/
theorem write_disciplined (h : ConfigsMeet lib configLib dirs t) (write : InstanceWrite)
    (hrow : ∀ row, write.selected lib t = .ok (some row) →
      ChecksHold lib configLib dirs row write) :
    KeptUnlessStopped t (write.run lib t).2 ∧
      ConfigsMeet lib configLib dirs (write.run lib t).2 := by
  cases write with
  | updateConfig id config updatedAt =>
    refine update_disciplined h (t.matching id updatedAt)
      (fun row => { row with config := config, updatedAt := updatedAt })
      (fun _ hfound => get_of_matching hfound) (fun _ => rfl) ?_
    intro row hfound
    obtain ⟨hstopped,hmeets⟩ := hrow row hfound
    exact ⟨Or.inl hstopped,hmeets⟩
  | setDesiredState id desiredState updatedAt =>
    refine update_disciplined h (t.matching id updatedAt)
      (fun row => { row with desiredState := desiredState, updatedAt := updatedAt })
      (fun _ hfound => get_of_matching hfound) (fun _ => rfl) ?_
    intro row hfound
    exact ⟨Or.inr ⟨rfl,rfl⟩,h id row (get_of_matching hfound)⟩
  | delete id => exact delete_disciplined h id hrow
  | rollbackInstallation id current target reason updatedAt =>
    refine update_disciplined h (t.rollbackMatching lib id current target reason updatedAt)
      (fun row => { row with
        installation := InstanceTables.repinned current target, updatedAt := updatedAt })
      (fun _ hfound => (get_of_rollbackMatching hfound).1) (fun _ => rfl) ?_
    intro row hfound
    exact ⟨Or.inl (get_of_rollbackMatching hfound).2.2,hrow row hfound⟩

/-- The checks look at nothing but what agrees with the row they were made on. -/
theorem ChecksHold.asRead {read row : PluginInstance} {write : InstanceWrite}
    (h : ChecksHold lib configLib dirs read write) (hrow : AsRead read row write) :
    ChecksHold lib configLib dirs row write := by
  cases write with
  | updateConfig id config updatedAt =>
    obtain ⟨hstate,hinstallation⟩ := hrow
    obtain ⟨hstopped,hmeets⟩ := h
    exact ⟨hstate.trans hstopped,hinstallation ▸ hmeets⟩
  | setDesiredState id desiredState updatedAt => trivial
  | delete id => exact Eq.trans hrow h
  | rollbackInstallation id current target reason updatedAt =>
    have hconfig : row.config = read.config := hrow
    show Meets lib configLib dirs _ row.config
    rw [hconfig]
    exact h

theorem requireInstalled_eq_ok {id version : String}
    {found : Except InstallationCatalogError (Option InstalledInstallation)}
    {installed : InstalledInstallation}
    (h : requireInstalled id version found =
      (.ok installed : Except (InstanceCommandError Version) InstalledInstallation)) :
    found = .ok (some installed) := by
  unfold requireInstalled at h
  rcases found with e | _ | i
  · cases h
  · cases h
  · obtain rfl := Except.ok.inj h
    rfl

theorem validateConfig_eq_ok {installed : InstalledInstallation} {config : InstanceConfig}
    (h : validateConfig configLib installed config =
      (.ok () : Except (InstanceCommandError Version) Unit)) :
    installed.validateConfig configLib config = .ok () := by
  rwa [validateConfig, Checked.mapError_eq_ok] at h

/-- A new row under a fresh id, with a configuration that its installation accepts. -/
theorem createInstance_disciplined (h : ConfigsMeet lib configLib dirs t)
    {pluginId version : String} {config : InstanceConfig} {desiredState : InstanceDesiredState}
    {unixTs id : ℕ}
    (hcreate : createInstance lib configLib dirs t pluginId version config desiredState unixTs =
      .ok (id,t')) :
    KeptUnlessStopped t t' ∧ ConfigsMeet lib configLib dirs t' := by
  simp only [createInstance, InstanceTables.create, Checked.bind_eq_ok, Checked.mapError_eq_ok,
    Checked.reject_eq_ok, Bool.not_eq_true, Option.isSome_eq_false_iff,
    Option.isNone_iff_eq_none] at hcreate
  obtain ⟨installed,hinstalled,_,hconfig,reference,hreference,-,-,created,-,next,hnext,_,hfresh,
    hok⟩ := hcreate
  obtain rfl := allocateId_eq_ok hnext
  obtain ⟨rfl,rfl⟩ := Prod.mk.inj (Except.ok.inj hok)
  constructor
  · intro i row hrow
    have hne : i ≠ t.nextId := by
      rintro rfl
      rw [hfresh] at hrow
      cases hrow
    exact Or.inr ⟨row,(OrdMap.get_insert_of_ne _ hne _).trans hrow,rfl,rfl⟩
  · intro i row hrow
    simp only [OrdMap.get_insert] at hrow
    split_ifs at hrow with hi
    · obtain rfl := Option.some.inj hrow
      exact ⟨pluginId,version,installed,requireInstalled_eq_ok hinstalled,hreference,
        validateConfig_eq_ok hconfig⟩
    · exact h i row hrow

theorem loadExact_identity {id version : String} {installed : InstalledInstallation}
    (h : loadExact lib dirs id version = .ok (some installed)) :
    installed.manifest.id.text = installed.metadata.id := by
  obtain ⟨dir,-,hdir⟩ := loadExact_eq_some_iff.mp h
  exact (loadFromDir_eq_ok_iff.mp hdir).identity.1

theorem reference_plugin {installed : InstalledInstallation} {reference : InstallationRef}
    (h : installed.reference lib = .ok reference) :
    reference.plugin.text = installed.metadata.id :=
  (reference_eq_ok h).2.1

theorem requireInstance_eq_ok {id : ℕ} {row : PluginInstance}
    (h : requireInstance t id = (.ok row : Except (InstanceCommandError Version) PluginInstance)) :
    t.instances.get id = some row := by
  unfold requireInstance at h
  obtain ⟨found,hfound,h⟩ := Checked.bind_eq_ok.mp h
  rw [Checked.mapError_eq_ok] at hfound
  simp only [InstanceTables.get, Checked.bind_eq_ok, Except.ok.injEq] at hfound
  obtain ⟨i,hi,rfl⟩ := hfound
  obtain rfl := (sqliteI64_eq_ok.mp hi).2
  cases hrow : t.instances.get i with
  | none => simp [hrow] at h
  | some r =>
    rw [hrow] at h
    rw [Except.ok.inj h]

theorem requireStopped_eq_ok {id : ℕ} {row : PluginInstance} {u : Unit}
    (h : requireStopped id row = (.ok u : Except (InstanceCommandError Version) Unit)) :
    row.desiredState = .stopped := by
  unfold requireStopped at h
  split_ifs at h with hstopped
  exact hstopped

theorem repinned_eq {current target : InstallationRef} (h : target.plugin = current.plugin) :
    InstanceTables.repinned current target = target := by
  obtain ⟨plugin,version,digest⟩ := target
  cases h
  rfl

variable [LinearOrder Version] {trust : TrustTables}

/-- A command goes on to its write only if its checks hold of the row it has read. -/
theorem check_holds {command : InstanceCommand} {pending : PendingWrite}
    (h : command.check lib configLib dirs trust t = .ok pending) :
    ChecksHold lib configLib dirs pending.read pending.write := by
  cases command with
  | configure id config unixTs =>
    simp only [InstanceCommand.check, configureInstance, Checked.bind_eq_ok] at h
    obtain ⟨row,-,_,hstopped,installed,hpinned,_,hconfig,h⟩ := h
    obtain rfl := Except.ok.inj h
    obtain ⟨hload,hreference⟩ := loadReference_eq_ok (requireInstalled_eq_ok hpinned)
    exact ⟨requireStopped_eq_ok hstopped,_,_,installed,hload,hreference,
      validateConfig_eq_ok hconfig⟩
  | setDesiredState id desiredState unixTs =>
    simp only [InstanceCommand.check, setInstanceDesiredState, Checked.bind_eq_ok] at h
    obtain ⟨row,-,h⟩ := h
    obtain rfl := Except.ok.inj h
    trivial
  | delete id =>
    simp only [InstanceCommand.check, deleteInstance, Checked.bind_eq_ok] at h
    obtain ⟨row,-,_,hstopped,h⟩ := h
    obtain rfl := Except.ok.inj h
    exact requireStopped_eq_ok hstopped
  | rollback id targetVersion reason unixTs =>
    simp only [InstanceCommand.check, rollbackInstance, Checked.bind_eq_ok,
      Checked.mapError_eq_ok] at h
    obtain ⟨_,-,row,-,_,-,current,hcurrent,target,htarget,plan,hplan,_,hconfig,_,-,
      targetRef,htargetRef,h⟩ := h
    obtain rfl := Except.ok.inj h
    obtain ⟨hload,hreference⟩ := loadReference_eq_ok (requireInstalled_eq_ok hcurrent)
    have htarget := requireInstalled_eq_ok htarget
    have hplugin : targetRef.plugin = row.installation.plugin := by
      simp only [planRollback, Checked.bind_eq_ok, Checked.reject_eq_ok] at hplan
      obtain ⟨_,hid,-⟩ := hplan
      have hsame := congrArg Capability.PluginId.text (not_not.mp hid)
      rw [loadExact_identity hload, loadExact_identity htarget, ← reference_plugin hreference,
        ← reference_plugin htargetRef] at hsame
      exact congrArg Capability.PluginId.mk hsame.symm
    show Meets lib configLib dirs _ row.config
    rw [repinned_eq hplugin]
    exact ⟨_,_,target,htarget,htargetRef,validateConfig_eq_ok hconfig⟩

variable (lib configLib dirs) in
/-- The configurations meet their contracts and the checks of every command that is about to write
hold of the row it has read. -/
structure Disciplined (s : InstanceSite) : Prop where
  configs : ConfigsMeet lib configLib dirs s.tables
  pending : ∀ process pending, s.running.get process = some pending →
    ChecksHold lib configLib dirs pending.read pending.write

theorem next_pending {s : InstanceSite} (step : InstanceStep)
    (h : ∀ process pending, s.running.get process = some pending →
      ChecksHold lib configLib dirs pending.read pending.write)
    (process : ℕ) (pending : PendingWrite)
    (hpending : (s.next lib configLib dirs trust step).running.get process = some pending) :
    ChecksHold lib configLib dirs pending.read pending.write := by
  have herase : ∀ writer, (s.running.erase writer).get process = some pending →
      s.running.get process = some pending := by
    intro writer hrest
    by_cases hwriter : process = writer
    · subst hwriter
      rw [OrdMap.get_erase_self] at hrest
      cases hrest
    · rwa [OrdMap.get_erase_of_ne _ hwriter] at hrest
  cases step with
  | create pluginId version config desiredState unixTs =>
    refine h process pending ?_
    unfold InstanceSite.next at hpending
    dsimp only at hpending
    split at hpending <;> exact hpending
  | check checker command =>
    unfold InstanceSite.next at hpending
    dsimp only at hpending
    split at hpending
    · exact h process pending hpending
    · split at hpending
      · exact h process pending hpending
      · next write hcheck =>
        simp only [OrdMap.get_insert] at hpending
        split_ifs at hpending with hprocess
        · obtain rfl := Option.some.inj hpending
          exact check_holds hcheck
        · exact h process pending hpending
  | write writer =>
    unfold InstanceSite.next at hpending
    dsimp only at hpending
    split at hpending
    · exact h process pending hpending
    · exact h process pending (herase writer hpending)
  | abandon writer => exact h process pending (herase writer hpending)

theorem next_disciplined {s : InstanceSite} (h : Disciplined lib configLib dirs s)
    (step : InstanceStep) (hstep : WritesAsRead lib s step) :
    KeptUnlessStopped s.tables (s.next lib configLib dirs trust step).tables ∧
      ConfigsMeet lib configLib dirs (s.next lib configLib dirs trust step).tables := by
  have hsame : KeptUnlessStopped s.tables s.tables ∧ ConfigsMeet lib configLib dirs s.tables :=
    disciplined_of_instances_eq h.configs rfl
  cases step with
  | create pluginId version config desiredState unixTs =>
    unfold InstanceSite.next
    dsimp only
    split
    · exact hsame
    · next hcreate => exact createInstance_disciplined h.configs hcreate
  | check process command =>
    unfold InstanceSite.next
    dsimp only
    split
    · exact hsame
    · split <;> exact hsame
  | write process =>
    cases hpending : s.running.get process with
    | none =>
      have hnext : s.next lib configLib dirs trust (.write process) = s := by
        simp [InstanceSite.next, hpending]
      rw [hnext]
      exact hsame
    | some pending =>
      have hnext : (s.next lib configLib dirs trust (.write process)).tables =
          (pending.write.run lib s.tables).2 := by simp [InstanceSite.next, hpending]
      rw [hnext]
      refine write_disciplined h.configs pending.write ?_
      intro row hrow
      exact (h.pending process pending hpending).asRead (hstep pending hpending row hrow)
  | abandon process => exact hsame

variable (trust) in
/-- In a run in which no write is disturbed, every stored configuration meets the contract of its
installation; and a further step that is not disturbed changes the configuration, installation or
existence of an instance only while it is stopped. -/
theorem instances_disciplined (s : InstanceSite)
    (h : (instanceSystem lib configLib dirs trust).ReachableWhen (WritesAsRead lib) s) :
    ConfigsMeet lib configLib dirs s.tables ∧ ∀ step, WritesAsRead lib s step →
      KeptUnlessStopped s.tables (s.next lib configLib dirs trust step).tables ∧
      ConfigsMeet lib configLib dirs (s.next lib configLib dirs trust step).tables := by
  have hs : Disciplined lib configLib dirs s := by
    refine h.invariant _ ?_ ?_
    · rintro s rfl
      constructor
      · intro id row hrow
        cases hrow
      · intro process pending hpending
        cases hpending
    · rintro s step s' hs hstep rfl
      exact ⟨(next_disciplined hs step hstep).2,next_pending step hs.pending⟩
  exact ⟨hs.configs,next_disciplined hs⟩

/-- While the tables are as they were, a write selects the row that was read. -/
theorem selected_read {command : InstanceCommand} {pending : PendingWrite}
    (h : command.check lib configLib dirs trust t = .ok pending) {row : PluginInstance}
    (hrow : pending.write.selected lib t = .ok (some row)) : row = pending.read := by
  have hsame : ∀ {id : ℕ} {read : PluginInstance},
      requireInstance t id = (.ok read : Except (InstanceCommandError Version) PluginInstance) →
      t.instances.get id = some row → row = read := by
    intro id read hread hfound
    exact Option.some.inj (hfound.symm.trans (requireInstance_eq_ok hread))
  cases command with
  | configure id config unixTs =>
    simp only [InstanceCommand.check, configureInstance, Checked.bind_eq_ok] at h
    obtain ⟨read,hread,_,-,_,-,_,-,h⟩ := h
    obtain rfl := Except.ok.inj h
    exact hsame hread (get_of_matching hrow)
  | setDesiredState id desiredState unixTs =>
    simp only [InstanceCommand.check, setInstanceDesiredState, Checked.bind_eq_ok] at h
    obtain ⟨read,hread,h⟩ := h
    obtain rfl := Except.ok.inj h
    exact hsame hread (get_of_matching hrow)
  | delete id =>
    simp only [InstanceCommand.check, deleteInstance, Checked.bind_eq_ok] at h
    obtain ⟨read,hread,_,-,h⟩ := h
    obtain rfl := Except.ok.inj h
    simp only [InstanceWrite.selected, InstanceTables.get, Checked.bind_eq_ok,
      Except.ok.injEq] at hrow
    obtain ⟨i,hi,hrow⟩ := hrow
    obtain rfl := (sqliteI64_eq_ok.mp hi).2
    exact hsame hread hrow
  | rollback id targetVersion reason unixTs =>
    simp only [InstanceCommand.check, rollbackInstance, Checked.bind_eq_ok] at h
    obtain ⟨_,-,read,hread,_,-,_,-,_,-,_,-,_,-,_,-,_,-,h⟩ := h
    obtain rfl := Except.ok.inj h
    exact hsame hread (get_of_rollbackMatching hrow).1

/-- A command that writes right after its checks is not disturbed. -/
theorem writesAsRead_after_check {s : InstanceSite} {process : ℕ}
    (hidle : s.running.get process = none) (command : InstanceCommand) :
    WritesAsRead lib (s.next lib configLib dirs trust (.check process command))
      (.write process) := by
  intro pending hpending row hrow
  simp only [InstanceSite.next, hidle] at hpending hrow
  cases hcheck : command.check lib configLib dirs trust s.tables with
  | error e =>
    rw [hcheck] at hpending
    rw [hidle] at hpending
    cases hpending
  | ok checked =>
    rw [hcheck] at hpending hrow
    simp only [OrdMap.get_insert_self, Option.some.injEq] at hpending
    subst hpending
    obtain rfl := selected_read hcheck hrow
    cases checked.write with
    | updateConfig id config updatedAt => exact ⟨rfl,rfl⟩
    | setDesiredState id desiredState updatedAt => trivial
    | delete id => rfl
    | rollbackInstallation id current target reason updatedAt => rfl

end Discipline

def clockFileDigests : List (String × String) := [
  ("logic/plugin.wasm","c507947c9c3fc9e70b7e58607daeb26146e2cf727fa2584b6b188dc4b2a93a77"),
  ("manifest.json","4280d7023b1a26e36d520d8326c7e407678083ff2dfb9f4f626b1f1cc3f050e5"),
  ("signature.json","f8e76127df4271f72ecc72a7b1a02e4efc434bf90ab373f015ddbdb805c0d73f"),
  ("ui/widget.ftui","b1593aadc6e65fc2f247fa6025f6886083155ce9718c60a844b3c390a73dc81e")]

def clockContentDigest : String :=
  "dc060e68522f2232fb6dd0d70956679dbabc0ae4aa3e88b53bc40438a019e64e"

def clockMeta : InstallMeta where
  manifestVersion := 1
  id := "org.example.clock"
  version := "1.9.0"
  engineApiVersion := "1.2.0"
  uiApiVersion := "1.6.0"
  installedAt := 20
  source := "clock.floatile"
  trust := .trusted
  files := OrdMap.ofList clockFileDigests
  digest := clockContentDigest

def clockMetaBytes : List UInt8 := utf8 <|
  "\x7b\"manifestVersion\":1,\"id\":\"org.example.clock\",\"version\":\"1.9.0\",\"engineApiVe" ++
  "rsion\":\"1.2.0\",\"uiApiVersion\":\"1.6.0\",\"installed_at\":20,\"source\":\"clock.floatile" ++
  "\",\"trust\":\"trusted\",\"files\":\x7b" ++
  ",".intercalate (clockFileDigests.map (fun e => "\"" ++ e.1 ++ "\":\"" ++ e.2 ++ "\"")) ++
  "\x7d,\"digest\":\"" ++ clockContentDigest ++ "\"\x7d"

/-- The digest with a hexadecimal form. -/
def digestOfHex (hex : String) : Bytes32 :=
  ((hexDecode hex).bind Bytes32.ofList).getD clockDigest

/-- The files of the installed clock. -/
def installedClock : Files :=
  OrdMap.insert clockPackage.files "install.json" clockMetaBytes

/-- SHA-256 on the files of the clock, on their aggregate and on what is signed. -/
def clockSha256 (input : List UInt8) : Bytes32 :=
  if input = clockWasm then
    digestOfHex "c507947c9c3fc9e70b7e58607daeb26146e2cf727fa2584b6b188dc4b2a93a77"
  else if input = clockManifestBytes then
    digestOfHex "4280d7023b1a26e36d520d8326c7e407678083ff2dfb9f4f626b1f1cc3f050e5"
  else if input = clockEnvelopeBytes then
    digestOfHex "f8e76127df4271f72ecc72a7b1a02e4efc434bf90ab373f015ddbdb805c0d73f"
  else if input = clockUiBytes then
    digestOfHex "b1593aadc6e65fc2f247fa6025f6886083155ce9718c60a844b3c390a73dc81e"
  else if input = clockPackage.files.entries.flatMap digestEntry then digestOfHex clockContentDigest
  else clockLib.signature.sha256 input

def catalogLib : InstallLib (Fin 3) := { clockLib with
  signature := { clockLib.signature with sha256 := clockSha256 }
  decodeMeta := fun bytes =>
    if bytes = clockMetaBytes then .ok clockMeta else .error "expected value" }

/-- The JSON libraries on empty configurations; the clock has no schema. -/
def plainConfigs : ConfigLib where
  toVec fields := if fields.isEmpty then .ok [0x7B,0x7D] else .error "unexpected field"
  fromSlice _ := none
  validatorFor _ := none

def clockStore : Dirs := OrdMap.ofList [("org.example.clock/1.9.0",installedClock)]

abbrev clockNext : InstanceSite → InstanceStep → InstanceSite :=
  InstanceSite.next catalogLib plainConfigs clockStore TrustTables.empty

abbrev clockSystem : System InstanceSite InstanceStep :=
  instanceSystem catalogLib plainConfigs clockStore TrustTables.empty

def createClock : InstanceStep := .create "org.example.clock" "1.9.0" .empty .stopped 100

/-- A deletion is checked by a process that has yet to write. -/
abbrev deletingClock : InstanceSite :=
  clockNext (clockNext InstanceSite.empty createClock) (.check 1 (.delete 2))

abbrev startClock : InstanceStep := .check 2 (.setDesiredState 2 .running 100)

/-- A deletion is checked, then the instance is started. -/
abbrev startedClock : InstanceSite := clockNext (clockNext deletingClock startClock) (.write 2)

/-- The runs on the clock, evaluated together. -/
theorem clock_evaluated :
    (deletingClock.running.get 2).isNone = true ∧
    (startedClock.tables.instances.get 2).map PluginInstance.desiredState = some .running ∧
    ((clockNext startedClock (.write 1)).tables.instances.get 2).isNone = true := by
  decide +kernel

theorem startedClock_meets :
    ConfigsMeet catalogLib plainConfigs clockStore startedClock.tables ∧
    (startedClock.tables.instances.get 2).map PluginInstance.desiredState = some .running := by
  obtain ⟨hidle,hrunning,-⟩ := clock_evaluated
  have hfree : deletingClock.running.get 2 = none := Option.isNone_iff_eq_none.mp hidle
  have hinit : clockSystem.ReachableWhen (WritesAsRead catalogLib) InstanceSite.empty :=
    System.ReachableWhen.of_init rfl
  have hcreate : WritesAsRead catalogLib InstanceSite.empty createClock := trivial
  have hdelete : WritesAsRead catalogLib (clockNext InstanceSite.empty createClock)
      (.check 1 (.delete 2)) := trivial
  have hstart : WritesAsRead catalogLib deletingClock startClock := trivial
  have hwrite : WritesAsRead catalogLib (clockNext deletingClock startClock) (.write 2) :=
    writesAsRead_after_check hfree _
  have hstarting := ((hinit.apply hcreate).apply hdelete).apply hstart
  exact ⟨(instances_disciplined TrustTables.empty startedClock (hstarting.apply hwrite)).1,
    hrunning⟩

/-- The deletion that was checked before goes through and removes a running instance. -/
theorem startedClock_deleted :
    clockSystem.Reachable startedClock ∧
    (∃ row, startedClock.tables.instances.get 2 = some row ∧ row.desiredState = .running) ∧
    (clockNext startedClock (.write 1)).tables.instances.get 2 = none ∧
    ¬KeptUnlessStopped startedClock.tables (clockNext startedClock (.write 1)).tables := by
  have hempty : clockSystem.Reachable InstanceSite.empty := System.ReachableWhen.of_init rfl
  have hdeleting : clockSystem.Reachable deletingClock := (hempty.apply trivial).apply trivial
  have hreach : clockSystem.Reachable startedClock := (hdeleting.apply trivial).apply trivial
  obtain ⟨-,hrunning,hnone⟩ := clock_evaluated
  have hgone := Option.isNone_iff_eq_none.mp hnone
  obtain ⟨row,hrow,hstate⟩ := Option.map_eq_some_iff.mp hrunning
  refine ⟨hreach,⟨row,hrow,hstate⟩,hgone,?_⟩
  intro hkept
  rcases hkept 2 row hrow with hstopped | ⟨row',hrow',-⟩
  · rw [hstate] at hstopped
    cases hstopped
  · rw [hgone] at hrow'
    cases hrow'

end Floatile.Cli
