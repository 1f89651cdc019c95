import Floatile.Lib.Pool
import Floatile.Lib.Transition
import Mathlib.Data.List.Infix
import Mathlib.Logic.Function.Basic

/-! The migration of an author's project: several processes replace one configuration file, each by
way of a staging file and a backup of its own, and any of them may fail or be killed at any step. -/
namespace Floatile.Cli.ProjectMigration

open Floatile.Lib Floatile.Lib.Transition

/-- The files of the project directory; processes are numbered by their ids. -/
inductive ProjectFile where
  | config
  | staging (pid : ℕ)
  | backup (pid : ℕ)
  deriving DecidableEq

/-- A regular file with its text, or anything else, with what reading it gives. -/
inductive ProjectEntry where
  | file (text : String)
  | special (text : Option String)

abbrev ProjectDir := ProjectFile → Option ProjectEntry

inductive MigrationError where
  | missingConfig
  | unsafeConfig
  | configTooLarge
  | invalidConfig
  | read
  | write
  deriving DecidableEq

/-- The parser of the configuration: whether it is a project, and whether it has a table `sdk`. -/
structure TomlLib where
  parseProject : String → Bool
  hasSdk : String → Option Bool

def maxProjectConfigBytes : ℕ := 256 * 1024

def sdkSection : String := "[sdk]\nlanguage = \"rust\"\nversion = \"0.1.0\"\n"

/-- The table `sdk` is appended on lines of its own. -/
def migrated (source : String) : String :=
  (if source.toList.getLast? = some '\n' then source else source ++ "\n") ++ sdkSection

/-- A project without the table is one with it after the migration. -/
def TomlLib.Documented (lib : TomlLib) : Prop :=
  ∀ source, lib.parseProject source = true → lib.hasSdk source = some false →
    lib.hasSdk (migrated source) = some true

/-- What a process does next. `held` says that its backup could not be put back. -/
inductive MigrationPhase where
  | start
  | checked
  | create (bytes : String)
  | fill (bytes : String)
  | backUp (bytes : String)
  | swap (bytes : String)
  | clean
  | restore
  | discard (held : Bool)
  | ended (held : Bool) (result : Except MigrationError Bool)

structure MigrationProcess where
  write : Bool
  phase : MigrationPhase
  killed : Bool

structure MigrationState where
  dir : ProjectDir
  processes : List MigrationProcess

/-- A process starts, makes one call of the system, which may fail, or is killed. A write that
fails leaves as many characters as the number says. -/
inductive MigrationLabel where
  | spawn (write : Bool)
  | step (pid : ℕ) (fault : Option ℕ)
  | kill (pid : ℕ)

section Steps

variable (lib : TomlLib)

/-- What is done with the text of the configuration. -/
def decide_ (write : Bool) (source : String) : MigrationPhase :=
  if lib.parseProject source then
    match lib.hasSdk source with
    | none => .ended false (.error .invalidConfig)
    | some true => .ended false (.ok false)
    | some false => if write then .create (migrated source) else .ended false (.ok false)
  else .ended false (.error .invalidConfig)

/-- `rename` replaces the target, and fails when there is no source. -/
def rename (dir : ProjectDir) (source target : ProjectFile) : Option ProjectDir :=
  (dir source).map fun entry =>
    Function.update (Function.update dir target (some entry)) source none

/-- What reading a file gives; a link is followed. -/
def readToString (dir : ProjectDir) (f : ProjectFile) : Option String :=
  match dir f with
  | some (.file text) | some (.special (some text)) => some text
  | some (.special none) | none => none

/-- One call of the system. -/
def MigrationProcess.step (write : Bool) (dir : ProjectDir) (pid : ℕ) (fault : Option ℕ) :
    MigrationPhase → ProjectDir × MigrationPhase
  | .start =>
    match fault, dir .config with
    | some _, _ => (dir,.ended false (.error .read))
    | none, none => (dir,.ended false (.error .missingConfig))
    | none, some (.special _) => (dir,.ended false (.error .unsafeConfig))
    | none, some (.file text) =>
      if maxProjectConfigBytes < text.utf8ByteSize then (dir,.ended false (.error .configTooLarge))
      else (dir,.checked)
  | .checked =>
    match fault, readToString dir .config with
    | none, some source => (dir,decide_ lib write source)
    | _, _ => (dir,.ended false (.error .read))
  | .create bytes =>
    match fault, dir (.staging pid) with
    | none, none => (Function.update dir (.staging pid) (some (.file "")),.fill bytes)
    | _, _ => (dir,.ended false (.error .write))
  | .fill bytes =>
    match fault with
    | none => (Function.update dir (.staging pid) (some (.file bytes)),.backUp bytes)
    | some n =>
      (Function.update dir (.staging pid) (some (.file (String.ofList (bytes.toList.take n)))),
        .discard false)
  | .backUp bytes =>
    match fault, rename dir .config (.backup pid) with
    | none, some dir => (dir,.swap bytes)
    | _, _ => (dir,.discard false)
  | .swap _ =>
    match fault, rename dir (.staging pid) .config with
    | none, some dir => (dir,.clean)
    | _, _ => (dir,.restore)
  | .clean =>
    match fault with
    | none => (Function.update dir (.backup pid) none,.ended false (.ok true))
    | some _ => (dir,.ended false (.error .write))
  | .restore =>
    match fault, rename dir (.backup pid) .config with
    | none, some dir => (dir,.discard false)
    | _, _ => (dir,.discard true)
  | .discard held =>
    match fault with
    | none => (Function.update dir (.staging pid) none,.ended held (.error .write))
    | some _ => (dir,.ended held (.error .write))
  | .ended held result => (dir,.ended held result)

def MigrationState.next (s : MigrationState) : MigrationLabel → MigrationState
  | .spawn write => { s with processes := s.processes ++ [⟨write,.start,false⟩] }
  | .step pid fault =>
    match s.processes[pid]? with
    | some p =>
      if p.killed then s
      else
        let (dir,phase) := MigrationProcess.step lib p.write s.dir pid fault p.phase
        ⟨dir,s.processes.set pid { p with phase := phase }⟩
    | none => s
  | .kill pid =>
    match s.processes[pid]? with
    | some p => { s with processes := s.processes.set pid { p with killed := true } }
    | none => s

end Steps

/-- A directory with nothing but the configuration. -/
def projectDir (config : ProjectEntry) : ProjectDir :=
  Function.update (fun _ => none) .config (some config)

def migrationSystem (lib : TomlLib) (config : ProjectEntry) :
    System MigrationState MigrationLabel :=
  System.ofFunction (fun s => s = ⟨projectDir config,[]⟩) (MigrationState.next lib)

namespace MigrationPhase

/-- The text of the project is in the backup of the process. -/
def holds : MigrationPhase → Bool
  | .swap _ | .restore => true
  | .discard held | .ended held _ => held
  | _ => false

/-- The text that the process is about to install. -/
def bytes : MigrationPhase → Option String
  | .create b | .fill b | .backUp b | .swap b => some b
  | _ => none

/-- The staging file is written. -/
def staged : MigrationPhase → Option String
  | .backUp b | .swap b => some b
  | _ => none

/-- The process has replaced the configuration. -/
def installed : MigrationPhase → Bool
  | .clean | .ended _ (.ok true) => true
  | _ => false

/-- The process has not touched a file. -/
def quiet : MigrationPhase → Bool
  | .start | .checked | .ended false _ => true
  | _ => false

theorem bytes_of_staged {phase : MigrationPhase} {b : String} (h : phase.staged = some b) :
    phase.bytes = some b := by
  cases phase <;> first | exact h | cases h

end MigrationPhase

/-- A project without the table `sdk`. -/
def Migratable (lib : TomlLib) (source : String) : Prop :=
  lib.parseProject source = true ∧ lib.hasSdk source = some false

/-- The place of the project: the configuration, or the backup of a process on the way. -/
def Stands (s : MigrationState) (f : ProjectFile) (entry : ProjectEntry) : Prop :=
  s.dir f = some entry ∧ (f = .config ∨ ∃ (pid : ℕ) (p : MigrationProcess),
    f = .backup pid ∧ s.processes[pid]? = some p ∧ p.phase.holds = true)

def Current (s : MigrationState) (entry : ProjectEntry) : Prop :=
  s.dir .config = some entry ∨ ∃ (pid : ℕ) (p : MigrationProcess), s.processes[pid]? = some p ∧
    p.phase.holds = true ∧ s.dir (.backup pid) = some entry

theorem current_iff {s : MigrationState} {entry : ProjectEntry} :
    Current s entry ↔ ∃ f, Stands s f entry := by
  constructor
  · rintro (hconfig | ⟨pid,p,hp,hholds,hbackup⟩)
    · exact ⟨_,hconfig,Or.inl rfl⟩
    · exact ⟨_,hbackup,Or.inr ⟨pid,p,rfl,hp,hholds⟩⟩
  · rintro ⟨f,hf,rfl | ⟨pid,p,rfl,hp,hholds⟩⟩
    · exact Or.inl hf
    · exact Or.inr ⟨pid,p,hp,hholds,hf⟩

/-- Files that processes put at another's disposal: all but the staging files. -/
def ProjectFile.isText : ProjectFile → Bool
  | .staging _ => false
  | _ => true

structure Kept (lib : TomlLib) (source : String) (s : MigrationState) : Prop where
  texts : ∀ f entry, f.isText = true → s.dir f = some entry →
    entry = .file source ∨ entry = .file (migrated source) ∧ Migratable lib source
  bytes : ∀ (pid : ℕ) (p : MigrationProcess) (b : String), s.processes[pid]? = some p →
    p.phase.bytes = some b → b = migrated source ∧ Migratable lib source
  staged : ∀ (pid : ℕ) (p : MigrationProcess) (b : String), s.processes[pid]? = some p →
    p.phase.staged = some b → s.dir (.staging pid) = some (.file b)
  held : ∀ (pid : ℕ) (p : MigrationProcess), s.processes[pid]? = some p → p.phase.holds = true →
    ∃ text, s.dir (.backup pid) = some text
  gone : ∀ (pid : ℕ) (p : MigrationProcess), s.processes[pid]? = some p → p.phase.holds = true →
    s.dir .config = none
  alone : ∀ (pid pid' : ℕ) (p p' : MigrationProcess), s.processes[pid]? = some p →
    s.processes[pid']? = some p' → p.phase.holds = true → p'.phase.holds = true → pid = pid'
  present : s.dir .config = none → ∃ (pid : ℕ) (p : MigrationProcess),
    s.processes[pid]? = some p ∧ p.phase.holds = true
  installed : ∀ (pid : ℕ) (p : MigrationProcess), s.processes[pid]? = some p →
    p.phase.installed = true → ∀ entry, Current s entry → entry = .file (migrated source)

section Kept

variable {lib : TomlLib} {source : String} {s : MigrationState} {pid : ℕ} {p : MigrationProcess}
  {dir : ProjectDir} {phase : MigrationPhase}

/-- A process goes on to another phase. It may change its staging file, and remove its backup when it
has no claim on it. -/
theorem Kept.go {p' : MigrationProcess} (h : Kept lib source s) (hp : s.processes[pid]? = some p)
    (hconfig : dir .config = s.dir .config)
    (hbackup : ∀ i, dir (.backup i) = s.dir (.backup i) ∨
      i = pid ∧ dir (.backup i) = none ∧ p'.phase.holds = false)
    (hstaging : ∀ i, i ≠ pid → dir (.staging i) = s.dir (.staging i))
    (hbytes : ∀ b, p'.phase.bytes = some b → b = migrated source ∧ Migratable lib source)
    (hstaged : ∀ b, p'.phase.staged = some b → dir (.staging pid) = some (.file b))
    (hholds : p'.phase.holds = p.phase.holds)
    (hinstalled : p'.phase.installed = true → p.phase.installed = true) :
    Kept lib source ⟨dir,s.processes.set pid p'⟩ := by
  have hset (i : ℕ) : (s.processes.set pid p')[i]? =
      if pid = i then some p' else s.processes[i]? := Pool.getElem?_set hp
  -- A process of the new list was there before, with the same claim on its backup.
  have hold {i : ℕ} {q : MigrationProcess}
      (hq : (s.processes.set pid p')[i]? = some q) :
      ∃ q', s.processes[i]? = some q' ∧ q.phase.holds = q'.phase.holds ∧
        (q.phase.installed = true → q'.phase.installed = true) := by
    rw [hset] at hq
    split_ifs at hq with heq
    · cases hq
      exact ⟨p,heq ▸ hp,hholds,hinstalled⟩
    · exact ⟨q,hq,rfl,fun hq => hq⟩
  have hnew {i : ℕ} {q : MigrationProcess} (hq : s.processes[i]? = some q) :
      ∃ q', (s.processes.set pid p')[i]? = some q' ∧
        q'.phase.holds = q.phase.holds := by
    rw [hset]
    split_ifs with heq
    · subst heq
      obtain rfl := Option.some.inj (hp.symm.trans hq)
      exact ⟨_,rfl,hholds⟩
    · exact ⟨q,hq,rfl⟩
  have hback {i : ℕ} {text : ProjectEntry} (ht : dir (.backup i) = some text) :
      s.dir (.backup i) = some text := by
    rcases hbackup i with heq | ⟨-,hnone,-⟩
    · exact heq.symm.trans ht
    · cases hnone.symm.trans ht
  refine ⟨?_,?_,?_,?_,?_,?_,?_,?_⟩
  · intro f text hf ht
    cases f with
    | config => exact h.texts .config text hf (hconfig.symm.trans ht)
    | staging i => cases hf
    | backup i => exact h.texts (.backup i) text hf (hback ht)
  · intro i q b hq hb
    rw [hset] at hq
    split_ifs at hq with heq
    · cases hq
      exact hbytes b hb
    · exact h.bytes i q b hq hb
  · intro i q b hq hb
    rw [hset] at hq
    split_ifs at hq with heq
    · cases hq
      exact heq ▸ hstaged b hb
    · exact (hstaging i (Ne.symm heq)).trans (h.staged i q b hq hb)
  · intro i q hq hheld
    obtain ⟨q',hq',hsame,-⟩ := hold hq
    obtain ⟨text,ht⟩ := h.held i q' hq' (hsame ▸ hheld)
    rcases hbackup i with heq | ⟨rfl,-,hnone⟩
    · exact ⟨text,heq.trans ht⟩
    · rw [hset, if_pos rfl] at hq
      cases hq
      cases hnone.symm.trans hheld
  · intro i q hq hheld
    obtain ⟨q',hq',hsame,-⟩ := hold hq
    exact hconfig.trans (h.gone i q' hq' (hsame ▸ hheld))
  · intro i j q q' hq hq' hi hj
    obtain ⟨r,hr,hsame,-⟩ := hold hq
    obtain ⟨r',hr',hsame',-⟩ := hold hq'
    exact h.alone i j r r' hr hr' (hsame ▸ hi) (hsame' ▸ hj)
  · intro hnone
    obtain ⟨i,q,hq,hheld⟩ := h.present (hconfig.symm.trans hnone)
    obtain ⟨q',hq',hsame⟩ := hnew hq
    exact ⟨i,q',hq',hsame.trans hheld⟩
  · intro i q hq hi text hcurrent
    obtain ⟨q',hq',-,hinst⟩ := hold hq
    refine h.installed i q' hq' (hinst hi) text ?_
    rcases hcurrent with hsome | ⟨j,r,hr,hheld,ht⟩
    · exact Or.inl (hconfig.symm.trans hsome)
    · obtain ⟨r',hr',hsame,-⟩ := hold hr
      exact Or.inr ⟨j,r',hr',hsame ▸ hheld,hback ht⟩

/-- The configuration becomes the backup of the process. -/
theorem Kept.backUp (h : Kept lib source s) (hp : s.processes[pid]? = some p) {b : String}
    {text : ProjectEntry} (hphase : p.phase = .backUp b) (hconfig : s.dir .config = some text) :
    Kept lib source ⟨Function.update (Function.update s.dir (.backup pid) (some text)) .config none,
      s.processes.set pid { p with phase := .swap b }⟩ := by
  have hset (i : ℕ) : (s.processes.set pid { p with phase := .swap b })[i]? =
      if pid = i then some { p with phase := .swap b } else s.processes[i]? := Pool.getElem?_set hp
  have hfree {i : ℕ} {q : MigrationProcess} (hq : s.processes[i]? = some q) :
      q.phase.holds = false := by
    by_contra hheld
    rw [h.gone i q hq (by simpa using hheld)] at hconfig
    cases hconfig
  have honly {i : ℕ} {q : MigrationProcess}
      (hq : (s.processes.set pid { p with phase := .swap b })[i]? = some q)
      (hheld : q.phase.holds = true) : pid = i := by
    rw [hset] at hq
    split_ifs at hq with heq
    · exact heq
    · rw [hfree hq] at hheld
      cases hheld
  have hnone : Function.update (Function.update s.dir (.backup pid) (some text)) .config none .config =
      none := Function.update_self _ _ _
  have hbackup : Function.update (Function.update s.dir (.backup pid) (some text)) .config none
      (.backup pid) = some text := by
    rw [Function.update_of_ne (by simp), Function.update_self]
  have hother (i : ℕ) : Function.update (Function.update s.dir (.backup pid) (some text)) .config none
      (.staging i) = s.dir (.staging i) := by
    rw [Function.update_of_ne (by simp), Function.update_of_ne (by simp)]
  refine ⟨?_,?_,?_,?_,fun _ _ _ _ => hnone,?_,
    fun _ => ⟨pid,{ p with phase := .swap b },?_,rfl⟩,?_⟩
  · intro f t hf ht
    change Function.update (Function.update _ _ _) _ _ f = _ at ht
    by_cases hfile : f = .config
    · rw [hfile, Function.update_self] at ht
      cases ht
    · rw [Function.update_of_ne hfile] at ht
      by_cases hown : f = .backup pid
      · rw [hown, Function.update_self] at ht
        exact h.texts .config t rfl (hconfig.trans ht)
      · rw [Function.update_of_ne hown] at ht
        exact h.texts f t hf ht
  · intro i q b' hq hb
    rw [hset] at hq
    split_ifs at hq
    · cases hq
      exact h.bytes pid p b' hp (by rw [hphase]; exact hb)
    · exact h.bytes i q b' hq hb
  · intro i q b' hq hb
    refine (hother i).trans ?_
    rw [hset] at hq
    split_ifs at hq with heq
    · cases hq
      exact heq ▸ h.staged pid p b' hp (by rw [hphase]; exact hb)
    · exact h.staged i q b' hq hb
  · intro i q hq hheld
    obtain rfl := honly hq hheld
    exact ⟨text,hbackup⟩
  · intro i j q q' hq hq' hi hj
    exact (honly hq hi).symm.trans (honly hq' hj)
  · rw [hset, if_pos rfl]
  · intro i q hq hi t hcurrent
    rw [hset] at hq
    split_ifs at hq
    · cases hq
      cases hi
    · have htext := h.installed i q hq hi text (Or.inl hconfig)
      rcases hcurrent with hsome | ⟨j,r,hr,hheld,ht⟩
      · cases hnone.symm.trans hsome
      · obtain rfl := honly hr hheld
        exact (Option.some.inj (hbackup.symm.trans ht)).symm.trans htext

/-- A text that is put where the configuration was leaves no process with a claim on its backup. -/
theorem Kept.put (h : Kept lib source s) (hp : s.processes[pid]? = some p) {text : ProjectEntry}
    {from_ : ProjectFile} (hheld : p.phase.holds = true) (hconfig : from_ ≠ .config)
    (hfrom : ∀ i, from_ = .staging i → i = pid)
    (htext : text = .file source ∨ text = .file (migrated source) ∧ Migratable lib source)
    (hquiet : phase.holds = false ∧ phase.bytes = none)
    (hinstalled : ∀ (i : ℕ) (q : MigrationProcess), s.processes[i]? = some q →
      q.phase.installed = true ∨ phase.installed = true → text = .file (migrated source)) :
    Kept lib source ⟨Function.update (Function.update s.dir .config (some text)) from_ none,
      s.processes.set pid { p with phase := phase }⟩ := by
  have hset (i : ℕ) : (s.processes.set pid { p with phase := phase })[i]? =
      if pid = i then some { p with phase := phase } else s.processes[i]? := Pool.getElem?_set hp
  have hput : Function.update (Function.update s.dir .config (some text)) from_ none .config =
      some text := by
    rw [Function.update_of_ne hconfig.symm, Function.update_self]
  have hfree {i : ℕ} {q : MigrationProcess}
      (hq : (s.processes.set pid { p with phase := phase })[i]? = some q) :
      q.phase.holds = false := by
    rw [hset] at hq
    split_ifs at hq with heq
    · cases hq
      exact hquiet.1
    · by_contra hholds
      exact heq (h.alone pid i p q hp hq hheld (by simpa using hholds))
  refine ⟨?_,?_,?_,?_,?_,?_,?_,?_⟩
  · intro f t hf ht
    change Function.update (Function.update _ _ _) _ _ f = _ at ht
    by_cases hgone : f = from_
    · rw [hgone, Function.update_self] at ht
      cases ht
    · rw [Function.update_of_ne hgone] at ht
      by_cases hfile : f = .config
      · rw [hfile, Function.update_self] at ht
        exact Option.some.inj ht ▸ htext
      · rw [Function.update_of_ne hfile] at ht
        exact h.texts f t hf ht
  · intro i q b hq hb
    rw [hset] at hq
    split_ifs at hq
    · cases hq
      rw [hquiet.2] at hb
      cases hb
    · exact h.bytes i q b hq hb
  · intro i q b hq hb
    rw [hset] at hq
    split_ifs at hq with heq
    · cases hq
      have hbytes := MigrationPhase.bytes_of_staged hb
      rw [hquiet.2] at hbytes
      cases hbytes
    · change Function.update (Function.update _ _ _) _ _ (ProjectFile.staging i) = _
      have hother : ProjectFile.staging i ≠ from_ := fun hfile => heq (hfrom i hfile.symm).symm
      rw [Function.update_of_ne hother, Function.update_of_ne (by simp)]
      exact h.staged i q b hq hb
  · intro i q hq hholds
    rw [hfree hq] at hholds
    cases hholds
  · intro i q hq hholds
    rw [hfree hq] at hholds
    cases hholds
  · intro i j q q' hq hq' hi
    rw [hfree hq] at hi
    cases hi
  · intro hnone
    cases hput.symm.trans hnone
  · intro i q hq hi t hcurrent
    have htext' : text = .file (migrated source) := by
      rw [hset] at hq
      split_ifs at hq
      · cases hq
        exact hinstalled pid p hp (Or.inr hi)
      · exact hinstalled i q hq (Or.inl hi)
    rcases hcurrent with hsome | ⟨j,r,hr,hholds,-⟩
    · exact (Option.some.inj (hput.symm.trans hsome)).symm.trans htext'
    · rw [hfree hr] at hholds
      cases hholds

theorem rename_eq_some {target source' : ProjectFile} {dir' : ProjectDir}
    (h : rename dir source' target = some dir') : ∃ text, dir source' = some text ∧
      dir' = Function.update (Function.update dir target (some text)) source' none := by
  rw [rename, Option.map_eq_some_iff] at h
  obtain ⟨text,hsome,rfl⟩ := h
  exact ⟨text,hsome,rfl⟩

variable (lib) in
/-- A process decides to write, or it ends without a change. -/
theorem decide_cases (write : Bool) (text : String) :
    (Migratable lib text ∧ write = true ∧ decide_ lib write text = .create (migrated text)) ∨
      (¬(Migratable lib text ∧ write = true) ∧ ∃ result, decide_ lib write text = .ended false result ∧
        result ≠ .ok true) := by
  rw [decide_]
  by_cases hparse : lib.parseProject text = true
  · rw [if_pos hparse]
    cases hsdk : lib.hasSdk text with
    | none => exact Or.inr ⟨fun hmig => by simp [Migratable, hsdk] at hmig,_,rfl,by simp⟩
    | some found =>
      cases found with
      | true => exact Or.inr ⟨fun hmig => by simp [Migratable, hsdk] at hmig,_,rfl,by simp⟩
      | false =>
        cases write with
        | true => exact Or.inl ⟨⟨hparse,hsdk⟩,rfl,rfl⟩
        | false => exact Or.inr ⟨fun hmig => Bool.false_ne_true hmig.2,_,rfl,by simp⟩
  · rw [if_neg hparse]
    exact Or.inr ⟨fun hmig => hparse hmig.1.1,_,rfl,by simp⟩

/-- A process goes on without touching a file, and has nothing to write. -/
theorem Kept.stay (h : Kept lib source s) (hp : s.processes[pid]? = some p)
    (hbytes : phase.bytes = none) (hholds : phase.holds = p.phase.holds)
    (hinstalled : phase.installed = true → p.phase.installed = true) :
    Kept lib source ⟨s.dir,s.processes.set pid { p with phase := phase }⟩ := by
  refine h.go hp rfl (fun _ => Or.inl rfl) (fun _ _ => rfl) ?_ ?_ hholds hinstalled
  · intro b hb
    cases hbytes.symm.trans hb
  · intro b hb
    cases hbytes.symm.trans (MigrationPhase.bytes_of_staged hb)

/-- A process goes on, and its staging file changes. -/
theorem Kept.stage (h : Kept lib source s) (hp : s.processes[pid]? = some p)
    (text : Option ProjectEntry)
    (hbytes : ∀ b, phase.bytes = some b → p.phase.bytes = some b)
    (hstaged : ∀ b, phase.staged = some b → text = some (.file b)) (hholds : phase.holds = p.phase.holds)
    (hinstalled : phase.installed = false) :
    Kept lib source ⟨Function.update s.dir (.staging pid) text,
      s.processes.set pid { p with phase := phase }⟩ := by
  have hother {f : ProjectFile} (hf : f ≠ .staging pid) :
      Function.update s.dir (.staging pid) text f = s.dir f := Function.update_of_ne hf _ _
  refine h.go hp (hother (by simp)) (fun i => Or.inl (hother (by simp))) ?_ ?_ ?_ hholds ?_
  · intro i hi
    exact hother fun heq => hi (ProjectFile.staging.inj heq)
  · intro b hb
    exact h.bytes pid p b hp (hbytes b hb)
  · intro b hb
    rw [Function.update_self]
    exact hstaged b hb
  · intro hyes
    cases hinstalled.symm.trans hyes

/-- A process that reads the configuration sets out to write what the migration of the project
gives. -/
theorem Kept.checked (hlib : lib.Documented) (h : Kept lib source s)
    (hp : s.processes[pid]? = some p) (hphase : p.phase = .checked) {text : String}
    (htext : readToString s.dir .config = some text) :
    Kept lib source
      ⟨s.dir,s.processes.set pid { p with phase := decide_ lib p.write text }⟩ := by
  obtain ⟨hmig,-,heq⟩ | ⟨-,result,heq,hno⟩ := decide_cases lib p.write text
  · -- Of the two texts that the configuration can have only the original one has no table.
    have hown : migrated text = migrated source ∧ Migratable lib source := by
      rw [readToString] at htext
      cases hconfig : s.dir .config with
      | none =>
        rw [hconfig] at htext
        cases htext
      | some entry =>
        rw [hconfig] at htext
        rcases h.texts .config entry rfl hconfig with rfl | ⟨rfl,horiginal⟩
        · cases htext
          exact ⟨rfl,hmig⟩
        · cases htext
          cases hmig.2.symm.trans (hlib source horiginal.1 horiginal.2)
    rw [heq]
    refine h.go hp rfl (fun _ => Or.inl rfl) (fun _ _ => rfl) ?_ ?_ (hphase ▸ rfl) ?_
    · intro b hb
      exact Option.some.inj hb ▸ hown
    · intro b hb
      cases hb
    · intro hyes
      cases hyes
  · rw [heq]
    refine h.stay hp rfl (hphase ▸ rfl) ?_
    intro hyes
    cases result with
    | error e => cases hyes
    | ok changed =>
      cases changed with
      | true => exact absurd rfl hno
      | false => cases hyes

/-- The staging file takes the place of the configuration. It holds what the process set out to
write. -/
theorem Kept.swap (h : Kept lib source s) (hp : s.processes[pid]? = some p) {b : String}
    (hphase : p.phase = .swap b) {dir' : ProjectDir}
    (hrename : rename s.dir (.staging pid) .config = some dir') :
    Kept lib source ⟨dir',s.processes.set pid { p with phase := .clean }⟩ := by
  obtain ⟨entry,hentry,rfl⟩ := rename_eq_some hrename
  have hown := h.staged pid p b hp (hphase ▸ rfl)
  obtain rfl := Option.some.inj (hown.symm.trans hentry)
  obtain ⟨heq,hmig⟩ := h.bytes pid p b hp (hphase ▸ rfl)
  have hfile : ProjectEntry.file b = .file (migrated source) := congrArg _ heq
  refine h.put hp (hphase ▸ rfl) (by simp) ?_ (Or.inr ⟨hfile,hmig⟩) ⟨rfl,rfl⟩
    (fun _ _ _ _ => hfile)
  intro i hi
  exact (ProjectFile.staging.inj hi).symm

/-- The backup is removed once the configuration is in place. -/
theorem Kept.clean (h : Kept lib source s) (hp : s.processes[pid]? = some p)
    (hphase : p.phase = .clean) :
    Kept lib source ⟨Function.update s.dir (.backup pid) none,
      s.processes.set pid { p with phase := .ended false (.ok true) }⟩ := by
  have hother {f : ProjectFile} (hf : f ≠ .backup pid) :
      Function.update s.dir (.backup pid) none f = s.dir f := Function.update_of_ne hf _ _
  refine h.go hp (hother (f := .config) (by simp)) ?_ ?_ ?_ ?_ (hphase ▸ rfl)
    (fun _ => hphase ▸ rfl)
  · intro i
    by_cases hi : i = pid
    · exact Or.inr ⟨hi,hi ▸ Function.update_self _ _ _,rfl⟩
    · exact Or.inl (hother fun heq => hi (ProjectFile.backup.inj heq))
  · intro i _
    exact hother (f := .staging i) (by simp)
  · intro b' hb
    cases hb
  · intro b' hb
    cases hb

/-- The backup is put back. -/
theorem Kept.restore (h : Kept lib source s) (hp : s.processes[pid]? = some p)
    (hphase : p.phase = .restore) {dir' : ProjectDir}
    (hrename : rename s.dir (.backup pid) .config = some dir') :
    Kept lib source ⟨dir',s.processes.set pid { p with phase := .discard false }⟩ := by
  obtain ⟨entry,hentry,rfl⟩ := rename_eq_some hrename
  refine h.put hp (hphase ▸ rfl) (by simp) ?_ (h.texts (.backup pid) entry rfl hentry)
    ⟨rfl,rfl⟩ ?_
  · intro i hi
    cases hi
  · rintro i q hq (hi | hi)
    · exact h.installed i q hq hi entry (Or.inr ⟨pid,p,hp,hphase ▸ rfl,hentry⟩)
    · cases hi

theorem Kept.step (hlib : lib.Documented) (h : Kept lib source s) (hp : s.processes[pid]? = some p)
    (fault : Option ℕ) :
    Kept lib source ⟨(MigrationProcess.step lib p.write s.dir pid fault p.phase).1,s.processes.set pid
      { p with phase := (MigrationProcess.step lib p.write s.dir pid fault p.phase).2 }⟩ := by
  cases hphase : p.phase with
  | start =>
    unfold MigrationProcess.step
    dsimp only
    split
    · exact h.stay hp rfl (hphase ▸ rfl) (by simp [MigrationPhase.installed])
    · exact h.stay hp rfl (hphase ▸ rfl) (by simp [MigrationPhase.installed])
    · exact h.stay hp rfl (hphase ▸ rfl) (by simp [MigrationPhase.installed])
    · split_ifs
      · exact h.stay hp rfl (hphase ▸ rfl) (by simp [MigrationPhase.installed])
      · exact h.stay hp rfl (hphase ▸ rfl) (by simp [MigrationPhase.installed])
  | checked =>
    unfold MigrationProcess.step
    dsimp only
    split
    · rename_i text htext
      exact h.checked hlib hp hphase htext
    · exact h.stay hp rfl (hphase ▸ rfl) (by simp [MigrationPhase.installed])
  | create b =>
    unfold MigrationProcess.step
    dsimp only
    split
    · exact h.stage hp _ (fun _ hb => hphase ▸ hb) (fun _ hb => by cases hb) (hphase ▸ rfl) rfl
    · exact h.stay hp rfl (hphase ▸ rfl) (by simp [MigrationPhase.installed])
  | fill b =>
    unfold MigrationProcess.step
    dsimp only
    split
    · exact h.stage hp _ (fun _ hb => hphase ▸ hb)
        (fun b hb => congrArg (some ∘ ProjectEntry.file) (Option.some.inj hb)) (hphase ▸ rfl) rfl
    · exact h.stage hp _ (fun _ hb => by cases hb) (fun _ hb => by cases hb) (hphase ▸ rfl) rfl
  | backUp b =>
    unfold MigrationProcess.step
    dsimp only
    split
    · rename_i dir' hrename
      obtain ⟨text,htext,rfl⟩ := rename_eq_some hrename
      exact h.backUp hp hphase htext
    · exact h.stay hp rfl (hphase ▸ rfl) (by simp [MigrationPhase.installed])
  | swap b =>
    unfold MigrationProcess.step
    dsimp only
    split
    · rename_i dir' hrename
      exact h.swap hp hphase hrename
    · exact h.stay hp rfl (hphase ▸ rfl) (by simp [MigrationPhase.installed])
  | clean =>
    unfold MigrationProcess.step
    dsimp only
    split
    · exact h.clean hp hphase
    · exact h.stay hp rfl (hphase ▸ rfl) (fun _ => hphase ▸ rfl)
  | restore =>
    unfold MigrationProcess.step
    dsimp only
    split
    · rename_i dir' hrename
      exact h.restore hp hphase hrename
    · exact h.stay hp rfl (hphase ▸ rfl) (by simp [MigrationPhase.installed])
  | discard held =>
    unfold MigrationProcess.step
    dsimp only
    split
    · exact h.stage hp _ (fun _ hb => by cases hb) (fun _ hb => by cases hb) (hphase ▸ rfl) rfl
    · exact h.stay hp rfl (hphase ▸ rfl) (by simp [MigrationPhase.installed])
  | ended held result =>
    unfold MigrationProcess.step
    dsimp only
    exact h.stay hp rfl (hphase ▸ rfl) (fun hyes => hphase ▸ hyes)

theorem kept_init (lib : TomlLib) (source : String) :
    Kept lib source ⟨projectDir (.file source),[]⟩ := by
  have hnil {i : ℕ} {q : MigrationProcess} (hq : ([] : List MigrationProcess)[i]? = some q) : False :=
    by simp at hq
  refine ⟨?_,fun i _ _ hq => (hnil hq).elim,fun i _ _ hq => (hnil hq).elim,
    fun i _ hq => (hnil hq).elim,fun i _ hq => (hnil hq).elim,fun i _ _ _ hq => (hnil hq).elim,?_,
    fun i _ hq => (hnil hq).elim⟩
  · intro f text _ ht
    cases f with
    | config => exact Or.inl (Option.some.inj ht).symm
    | staging i => cases ht
    | backup i => cases ht
  · intro hnone
    cases hnone

/-- A new process has no claim on any file. -/
theorem Kept.spawn (h : Kept lib source s) (write : Bool) :
    Kept lib source { s with processes := s.processes ++ [⟨write,.start,false⟩] } := by
  have hold {i : ℕ} {q : MigrationProcess}
      (hq : (s.processes ++ [⟨write,.start,false⟩])[i]? = some q) :
      s.processes[i]? = some q ∨ q.phase = .start := by
    rw [List.getElem?_append] at hq
    split_ifs at hq
    · exact Or.inl hq
    · rw [List.getElem?_singleton] at hq
      split_ifs at hq
      cases hq
      exact Or.inr rfl
  have hnew {i : ℕ} {q : MigrationProcess} (hq : s.processes[i]? = some q) :
      (s.processes ++ [⟨write,.start,false⟩])[i]? = some q := by
    rw [List.getElem?_append_left (List.getElem?_eq_some_iff.mp hq).1]
    exact hq
  have hheld {i : ℕ} {q : MigrationProcess}
      (hq : (s.processes ++ [⟨write,.start,false⟩])[i]? = some q) (hholds : q.phase.holds = true) :
      s.processes[i]? = some q := by
    rcases hold hq with hq | hstart
    · exact hq
    · rw [hstart] at hholds
      cases hholds
  refine ⟨h.texts,?_,?_,?_,?_,?_,?_,?_⟩
  · intro i q b hq hb
    rcases hold hq with hq | hstart
    · exact h.bytes i q b hq hb
    · rw [hstart] at hb
      cases hb
  · intro i q b hq hb
    rcases hold hq with hq | hstart
    · exact h.staged i q b hq hb
    · rw [hstart] at hb
      cases hb
  · intro i q hq hholds
    exact h.held i q (hheld hq hholds) hholds
  · intro i q hq hholds
    exact h.gone i q (hheld hq hholds) hholds
  · intro i j q q' hq hq' hi hj
    exact h.alone i j q q' (hheld hq hi) (hheld hq' hj) hi hj
  · intro hnone
    obtain ⟨i,q,hq,hholds⟩ := h.present hnone
    exact ⟨i,q,hnew hq,hholds⟩
  · intro i q hq hi text hcurrent
    rcases hold hq with hq | hstart
    · refine h.installed i q hq hi text ?_
      rcases hcurrent with hconfig | ⟨j,r,hr,hholds,ht⟩
      · exact Or.inl hconfig
      · exact Or.inr ⟨j,r,hheld hr hholds,hholds,ht⟩
    · rw [hstart] at hi
      cases hi

theorem Kept.next (hlib : lib.Documented) (h : Kept lib source s) (i : MigrationLabel) :
    Kept lib source (s.next lib i) := by
  cases i with
  | spawn write => exact h.spawn write
  | step pid fault =>
    rw [MigrationState.next]
    split
    · rename_i p hp
      split_ifs
      · exact h
      · exact h.step hlib hp fault
    · exact h
  | kill pid =>
    rw [MigrationState.next]
    split
    · rename_i p hp
      exact h.go hp rfl (fun _ => Or.inl rfl) (fun _ _ => rfl) (fun b hb => h.bytes pid p b hp hb)
        (fun b hb => h.staged pid p b hp hb) rfl (fun hyes => hyes)
    · exact h

/-- The project stands in one place. -/
theorem stands_unique (h : Kept lib source s) :
    ∃! place : ProjectFile × ProjectEntry, Stands s place.1 place.2 := by
  cases hconfig : s.dir .config with
  | some entry =>
    refine ⟨⟨.config,entry⟩,⟨hconfig,Or.inl rfl⟩,?_⟩
    rintro ⟨f,entry'⟩ ⟨hf,rfl | ⟨i,q,rfl,hq,hholds⟩⟩
    · exact congrArg (Prod.mk _) (Option.some.inj (hf.symm.trans hconfig))
    · cases (h.gone i q hq hholds).symm.trans hconfig
  | none =>
    obtain ⟨i,q,hq,hholds⟩ := h.present hconfig
    obtain ⟨entry,hentry⟩ := h.held i q hq hholds
    refine ⟨⟨.backup i,entry⟩,⟨hentry,Or.inr ⟨i,q,rfl,hq,hholds⟩⟩,?_⟩
    rintro ⟨f,entry'⟩ ⟨hf,rfl | ⟨j,r,rfl,hr,hholds'⟩⟩
    · cases hconfig.symm.trans hf
    · obtain rfl := h.alone i j q r hq hr hholds hholds'
      exact congrArg (Prod.mk _) (Option.some.inj (hf.symm.trans hentry))

end Kept

/-- No process may write that finds something to write. -/
def Harmless (lib : TomlLib) (config : ProjectEntry) (write : Bool) : Prop :=
  ∀ source, config = .file source → ¬(Migratable lib source ∧ write = true)

/-- A process that has touched no file, and reads nothing but a regular file. -/
def Watches (config : ProjectEntry) (phase : MigrationPhase) : Prop :=
  phase.quiet = true ∧ (phase = .checked → ∃ source, config = .file source)

structure Untouched (lib : TomlLib) (config : ProjectEntry) (s : MigrationState) : Prop where
  dir : s.dir = projectDir config
  quiet : ∀ (pid : ℕ) (p : MigrationProcess), s.processes[pid]? = some p →
    Watches config p.phase ∧ Harmless lib config p.write

section Untouched

variable {lib : TomlLib} {config : ProjectEntry} {s : MigrationState}

theorem watches_ended (result : Except MigrationError Bool) :
    Watches config (.ended false result) :=
  ⟨rfl,fun heq => by cases heq⟩

theorem step_quiet {write : Bool} (pid : ℕ) (fault : Option ℕ) {phase : MigrationPhase}
    (hquiet : Watches config phase) (hwrite : Harmless lib config write) :
    (MigrationProcess.step lib write (projectDir config) pid fault phase).1 = projectDir config ∧
      Watches config (MigrationProcess.step lib write (projectDir config) pid fault phase).2 := by
  cases phase with
  | start =>
    have hconfig : projectDir config .config = some config := rfl
    unfold MigrationProcess.step
    dsimp only
    split
    · exact ⟨rfl,watches_ended _⟩
    · exact ⟨rfl,watches_ended _⟩
    · exact ⟨rfl,watches_ended _⟩
    · rename_i text htext
      split_ifs
      · exact ⟨rfl,watches_ended _⟩
      · exact ⟨rfl,rfl,fun _ => ⟨text,Option.some.inj (hconfig.symm.trans htext)⟩⟩
  | checked =>
    obtain ⟨source,rfl⟩ := hquiet.2 rfl
    cases fault with
    | some _ => exact ⟨rfl,watches_ended _⟩
    | none =>
      refine ⟨rfl,?_⟩
      change Watches _ (decide_ lib write source)
      obtain ⟨hmig,hyes,-⟩ | ⟨-,result,heq,-⟩ := decide_cases lib write source
      · exact absurd ⟨hmig,hyes⟩ (hwrite source rfl)
      · exact heq ▸ watches_ended result
  | ended held result => exact ⟨rfl,hquiet⟩
  | create | fill | backUp | swap | clean | restore | discard => cases hquiet.1

theorem Untouched.set (h : Untouched lib config s) {pid : ℕ} {p p' : MigrationProcess}
    {dir : ProjectDir} (hp : s.processes[pid]? = some p) (hdir : dir = projectDir config)
    (hquiet : Watches config p'.phase) (hwrite : p'.write = p.write) :
    Untouched lib config ⟨dir,s.processes.set pid p'⟩ := by
  refine ⟨hdir,?_⟩
  intro i q hq
  rw [Pool.getElem?_set hp] at hq
  split_ifs at hq
  · cases hq
    exact ⟨hquiet,hwrite ▸ (h.quiet pid p hp).2⟩
  · exact h.quiet i q hq

theorem Untouched.next (h : Untouched lib config s) {i : MigrationLabel}
    (hi : ∀ write, i = .spawn write → Harmless lib config write) :
    Untouched lib config (s.next lib i) := by
  cases i with
  | spawn write =>
    refine ⟨h.dir,?_⟩
    intro i q hq
    change (s.processes ++ [⟨write,.start,false⟩])[i]? = some q at hq
    rw [List.getElem?_append] at hq
    split_ifs at hq
    · exact h.quiet i q hq
    · rw [List.getElem?_singleton] at hq
      split_ifs at hq
      cases hq
      exact ⟨⟨rfl,fun heq => by cases heq⟩,hi write rfl⟩
  | step pid fault =>
    rw [MigrationState.next]
    split
    · rename_i p hp
      split_ifs
      · exact h
      · obtain ⟨hquiet,hwrite⟩ := h.quiet pid p hp
        obtain ⟨hdir,hphase⟩ := step_quiet pid fault hquiet hwrite
        rw [h.dir]
        exact h.set hp hdir hphase rfl
    · exact h
  | kill pid =>
    rw [MigrationState.next]
    split
    · rename_i p hp
      exact h.set hp h.dir (h.quiet pid p hp).1 rfl
    · exact h

theorem untouched_init : Untouched lib config ⟨projectDir config,[]⟩ := by
  refine ⟨rfl,?_⟩
  intro i q hq
  simp at hq

end Untouched

theorem next_step {lib : TomlLib} {s : MigrationState} {pid : ℕ} {p : MigrationProcess}
    {fault : Option ℕ} (hp : s.processes[pid]? = some p) (hlive : p.killed = false) :
    s.next lib (.step pid fault) =
      ⟨(MigrationProcess.step lib p.write s.dir pid fault p.phase).1,s.processes.set pid
        { p with phase := (MigrationProcess.step lib p.write s.dir pid fault p.phase).2 }⟩ := by
  simp only [MigrationState.next, hp, hlive, Bool.false_eq_true, if_false]

theorem next_alone {lib : TomlLib} {processes : List MigrationProcess} {pid : ℕ} {p : MigrationProcess}
    {dir dir' : ProjectDir} {phase phase' : MigrationPhase} (hp : processes[pid]? = some p)
    (hlive : p.killed = false)
    (h : MigrationProcess.step lib p.write dir pid none phase = (dir',phase')) :
    (MigrationState.mk dir (processes.set pid { p with phase := phase })).next lib (.step pid none) =
      ⟨dir',processes.set pid { p with phase := phase' }⟩ := by
  have hget : (processes.set pid { p with phase := phase })[pid]? = some { p with phase := phase } := by
    rw [Pool.getElem?_set hp, if_pos rfl]
  rw [next_step (p := { p with phase := phase }) hget hlive]
  simp only [h, List.set_set]

/-- The seven calls of a process that finds a project to migrate, and no fault. -/
theorem migrate_alone {lib : TomlLib} {source : String} {s : MigrationState} {pid : ℕ}
    {p : MigrationProcess} (hp : s.processes[pid]? = some p) (hphase : p.phase = .start)
    (hlive : p.killed = false) (hwrite : p.write = true) (hdir : s.dir = projectDir (.file source))
    (hsize : source.utf8ByteSize ≤ maxProjectConfigBytes) (hmig : Migratable lib source) :
    (List.replicate 7 (MigrationLabel.step pid none)).foldl (MigrationState.next lib) s =
      ⟨projectDir (.file (migrated source)),s.processes.set pid { p with phase := .ended false (.ok true) }⟩ := by
  let created := Function.update (projectDir (.file source)) (.staging pid) (some (.file ""))
  let written := Function.update created (.staging pid) (some (.file (migrated source)))
  let backed := Function.update (Function.update written (.backup pid) (some (.file source))) .config none
  let swapped := Function.update (Function.update backed .config (some (.file (migrated source))))
    (.staging pid) none
  have hstart : s = ⟨projectDir (.file source),s.processes.set pid { p with phase := .start }⟩ := by
    have hself : s.processes.set pid p = s.processes := by
      obtain ⟨hlt,rfl⟩ := List.getElem?_eq_some_iff.mp hp
      exact List.set_getElem_self hlt
    rw [← hphase, ← hdir, hself]
  have hchecked : MigrationProcess.step lib p.write (projectDir (.file source)) pid none .start =
      (projectDir (.file source),.checked) := if_neg (by omega)
  have hdecided : MigrationProcess.step lib p.write (projectDir (.file source)) pid none .checked =
      (projectDir (.file source),.create (migrated source)) := by
    obtain ⟨-,-,heq⟩ | ⟨hno,-⟩ := decide_cases lib p.write source
    · exact congrArg (Prod.mk (projectDir (.file source))) heq
    · exact absurd ⟨hmig,hwrite⟩ hno
  have hswap : MigrationProcess.step lib p.write backed pid none (.swap (migrated source)) =
      (swapped,.clean) := by
    have hstaged : backed (.staging pid) = some (.file (migrated source)) := by
      simp only [backed, written, created, Function.update_self, Function.update_of_ne, ne_eq, reduceCtorEq,
        not_false_eq_true]
    have hrename : rename backed (.staging pid) .config = some swapped := by
      rw [rename, hstaged]
      rfl
    unfold MigrationProcess.step
    rw [hrename]
  have hclean : Function.update swapped (.backup pid) none = projectDir (.file (migrated source)) := by
    funext f
    cases f with
    | config => rfl
    | staging i =>
      by_cases hi : i = pid
      · simp [swapped, projectDir, hi]
      · simp [swapped, backed, written, created, projectDir, hi]
    | backup i =>
      by_cases hi : i = pid
      · simp [projectDir, hi]
      · simp [swapped, backed, written, created, projectDir, hi]
  have hcreated : MigrationProcess.step lib p.write (projectDir (.file source)) pid none
      (.create (migrated source)) = (created,.fill (migrated source)) := rfl
  have hwritten : MigrationProcess.step lib p.write created pid none (.fill (migrated source)) =
      (written,.backUp (migrated source)) := rfl
  have hbacked : MigrationProcess.step lib p.write written pid none (.backUp (migrated source)) =
      (backed,.swap (migrated source)) := rfl
  have hcleaned : MigrationProcess.step lib p.write swapped pid none .clean =
      (projectDir (.file (migrated source)),.ended false (.ok true)) := by
    rw [← hclean]
    rfl
  rw [hstart, List.set_set]
  simp only [List.replicate_succ, List.replicate_zero, List.foldl_cons, List.foldl_nil]
  rw [next_alone hp hlive hchecked, next_alone hp hlive hdecided, next_alone hp hlive hcreated,
    next_alone hp hlive hwritten, next_alone hp hlive hbacked, next_alone hp hlive hswap,
    next_alone hp hlive hcleaned]

/-- Whatever fails and whoever is killed, the project stands in one place, whole: in the
configuration, or in the backup of the one process that holds it. Apart from the staging files,
every file is the original one or the migrated one, and the place is the migrated one once a process
has reported a change. A project is touched only by a process that may write and has something to
write, and never when its configuration is no regular file. Without a fault, the migrated
configuration is all that is left. -/
theorem migration_keeps_project (lib : TomlLib) (hlib : lib.Documented) (source : String) :
    (∀ s, (migrationSystem lib (.file source)).Reachable s →
      (∃! place : ProjectFile × ProjectEntry, Stands s place.1 place.2) ∧
      (∀ f entry, f.isText = true → s.dir f = some entry →
        entry = .file source ∨ entry = .file (migrated source) ∧ Migratable lib source) ∧
      (∀ (pid : ℕ) (p : MigrationProcess) (held : Bool), s.processes[pid]? = some p →
        p.phase = .ended held (.ok true) → ∃ f, Stands s f (.file (migrated source)))) ∧
    (∀ config s, (migrationSystem lib config).ReachableWhen
        (fun _ i => ∀ write, i = .spawn write → Harmless lib config write) s →
      s.dir = projectDir config) ∧
    (∀ (s : MigrationState) (pid : ℕ) (p : MigrationProcess), s.processes[pid]? = some p →
      p.phase = .start → p.killed = false → p.write = true → s.dir = projectDir (.file source) →
      source.utf8ByteSize ≤ maxProjectConfigBytes → Migratable lib source →
      (List.replicate 7 (MigrationLabel.step pid none)).foldl (MigrationState.next lib) s =
        ⟨projectDir (.file (migrated source)),
          s.processes.set pid { p with phase := .ended false (.ok true) }⟩) := by
  refine ⟨?_,?_,?_⟩
  · intro s hs
    have h : Kept lib source s := by
      refine System.ReachableWhen.invariant (Kept lib source) ?_ ?_ hs
      · rintro s rfl
        exact kept_init lib source
      · rintro s i s' hkept - rfl
        exact hkept.next hlib i
    refine ⟨stands_unique h,h.texts,?_⟩
    intro pid p held hp hphase
    obtain ⟨⟨f,entry⟩,hplace,-⟩ := stands_unique h
    have hcurrent := current_iff.mpr ⟨f,hplace⟩
    exact ⟨f,h.installed pid p hp (hphase ▸ rfl) entry hcurrent ▸ hplace⟩
  · intro config s hs
    have h : Untouched lib config s := by
      refine System.ReachableWhen.invariant (Untouched lib config) ?_ ?_ hs
      · rintro s rfl
        exact untouched_init
      · rintro s i s' hkept hi rfl
        exact hkept.next hi
    exact h.dir
  · intro s pid p hp hphase hlive hwrite hdir hsize hmig
    exact migrate_alone hp hphase hlive hwrite hdir hsize hmig

/-- A parser that looks for the table where the migration puts it. -/
def suffixLib : TomlLib where
  parseProject text := decide ("[plugin]\n".toList <+: text.toList)
  hasSdk text := some (decide (sdkSection.toList <:+ text.toList))

theorem suffixLib_documented : suffixLib.Documented := by
  intro source _ _
  have hsuffix : sdkSection.toList <:+ (migrated source).toList := by
    rw [migrated, String.toList_append]
    exact List.suffix_append _ _
  exact congrArg some (decide_eq_true hsuffix)

def legacySource : String := "[plugin]\nid = \"dev.floatile.legacy\"\nname = \"Legacy\"\nversion = \"0.1.0\"\n"

/-- One process is killed between its two renames, and another finds no configuration. -/
def interruptedRun : List MigrationLabel :=
  [.spawn true,.spawn true,.step 0 none,.step 0 none,.step 0 none,.step 0 none,.step 0 none,.kill 0,
    .step 1 none]

theorem migration_keeps_project_interrupted : Migratable suffixLib legacySource ∧
    let s := interruptedRun.foldl (MigrationState.next suffixLib) ⟨projectDir (.file legacySource),[]⟩
    s.dir .config = none ∧ s.dir (.backup 0) = some (.file legacySource) ∧
      ∃! place : ProjectFile × ProjectEntry, Stands s place.1 place.2 := by
  have hinit : (migrationSystem suffixLib (.file legacySource)).Reachable
      ⟨projectDir (.file legacySource),[]⟩ := System.ReachableWhen.of_init rfl
  have hreached := System.reachable_foldl hinit interruptedRun
  exact ⟨⟨by decide,by decide⟩,rfl,rfl,
    ((migration_keeps_project suffixLib suffixLib_documented legacySource).1 _ hreached).1⟩

end Floatile.Cli.ProjectMigration
