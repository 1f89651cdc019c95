import Mathlib.Data.List.Basic

/-! Paths by the rules of POSIX and by those of Windows: what a text names, and what joining it to
a directory gives. -/
namespace Floatile.Lib

/-- A path taken apart: its drive or share, whether it starts at a root, and the names below. -/
structure FilePath where
  drive : Option String
  root : Bool
  names : List String
  deriving DecidableEq, Repr

namespace FilePath

/-- The names between separators. An empty one and `.` are passed over. -/
def namesOf (chars : List Char) : List String :=
  ((chars.splitOn '/').map String.ofList).filter (fun name => name ≠ "" ∧ name ≠ ".")

def posix (text : String) : FilePath :=
  ⟨none,text.toList.head? = some '/',namesOf text.toList⟩

/-- Both separators of Windows as one. -/
def toSlash (c : Char) : Char := if c = '\\' then '/' else c

/-- By the rules of Windows a path may begin with a drive, or with two separators and a share. -/
def windows (text : String) : FilePath :=
  let chars := text.toList.map toSlash
  match chars with
  | '/' :: '/' :: rest =>
    ⟨some ("//" ++ "/".intercalate ((namesOf rest).take 2)),true,(namesOf rest).drop 2⟩
  | letter :: ':' :: rest =>
    if letter.isAlpha then
      ⟨some (String.ofList [letter,':']),rest.head? = some '/',namesOf rest⟩
    else ⟨none,letter = '/',namesOf chars⟩
  | _ => ⟨none,chars.head? = some '/',namesOf chars⟩

/-- A path with a drive replaces the directory, one with a root all of it but its drive. -/
def join (dir path : FilePath) : FilePath :=
  if path.drive.isSome then path
  else if path.root then ⟨dir.drive,true,path.names⟩
  else ⟨dir.drive,dir.root,dir.names ++ path.names⟩

/-- The path is the directory followed by names, none of which leads back. -/
def Below (dir path : FilePath) : Prop :=
  ∃ names, names ≠ [] ∧ ".." ∉ names ∧ path = ⟨dir.drive,dir.root,dir.names ++ names⟩

/-- The text in lower case, as far as ASCII goes. -/
def foldText (text : String) : String := String.ofList (text.toList.map Char.toLower)

def foldCase (path : FilePath) : FilePath :=
  ⟨path.drive.map foldText,path.root,path.names.map foldText⟩

/-- Two paths name the same file where the case of ASCII letters does not count. -/
def SameFile (p q : FilePath) : Prop := p.foldCase = q.foldCase

variable {dir p q : FilePath}

/-- A name of its own. -/
structure Component (text : String) : Prop where
  slash : '/' ∉ text.toList
  named : text ≠ ""
  here : text ≠ "."
  parent : text ≠ ".."

theorem Component.posix_eq {text : String} (h : Component text) :
    posix text = ⟨none,false,[text]⟩ := by
  have hsplit : text.toList.splitOn '/' = [text.toList] :=
    List.splitOnP_eq_singleton fun c hc => beq_false_of_ne (ne_of_mem_of_not_mem hc h.slash)
  have hnames : namesOf text.toList = [text] := by
    rw [namesOf, hsplit]
    simp [h.named, h.here]
  have hroot : text.toList.head? ≠ some '/' := fun hhead => h.slash (List.mem_of_head? hhead)
  rw [posix, hnames, decide_eq_false hroot]

theorem below_join (hdrive : p.drive = none) (hroot : p.root = false) (hnames : p.names ≠ [])
    (hparent : ".." ∉ p.names) : Below dir (dir.join p) := by
  refine ⟨p.names,hnames,hparent,?_⟩
  simp [join, hdrive, hroot]

/-- A path with a drive leads away from the root of another. -/
theorem not_below_join (hdrive : p.drive.isSome) : ¬Below ⟨none,true,[]⟩ (join ⟨none,true,[]⟩ p) := by
  rintro ⟨names,-,-,hp⟩
  rw [join, if_pos hdrive] at hp
  rw [hp] at hdrive
  cases hdrive

theorem names_of_sameFile_join (hp : p.drive = none ∧ p.root = false)
    (hq : q.drive = none ∧ q.root = false) (h : SameFile (dir.join p) (dir.join q)) :
    p.names.map foldText = q.names.map foldText := by
  have hnames := congrArg FilePath.names h
  simpa [foldCase, join, hp, hq] using hnames

theorem map_intercalate {α β : Type*} (f : α → β) (sep : List α) (parts : List (List α)) :
    (sep.intercalate parts).map f = (sep.map f).intercalate (parts.map (List.map f)) := by
  induction parts with
  | nil => rfl
  | cons part parts ih =>
    cases parts with
    | nil => simp
    | cons next parts =>
      simp only [List.map_cons] at ih ⊢
      rw [List.intercalate_cons_cons, List.intercalate_cons_cons, List.map_append, List.map_append,
        ih]

/-- Texts whose segments agree up to case agree up to case. -/
theorem foldText_of_segments {s t : String}
    (h : ((s.toList.splitOn '/').map String.ofList).map foldText =
      ((t.toList.splitOn '/').map String.ofList).map foldText) : foldText s = foldText t := by
  have hchars : ∀ text : String, text.toList.map Char.toLower = ['/'].intercalate
      ((((text.toList.splitOn '/').map String.ofList).map foldText).map String.toList) := by
    intro text
    have hsplit : text.toList = ['/'].intercalate (text.toList.splitOn '/') :=
      (List.intercalate_splitOn '/').symm
    conv_lhs => rw [hsplit, map_intercalate]
    simp [List.map_map, Function.comp_def, foldText]
  rw [foldText, foldText, hchars s, hchars t, h]

end FilePath

end Floatile.Lib
