import Vnidrop.Paths
import Mathlib.Data.List.Basic
import Mathlib.Tactic.Common

/-! Unix paths as strings of the operating system, which need not be text, and `Path::join`.
Nothing here refers to a particular program. -/
namespace Vnidrop.Paths

/-- A character, or a byte that is part of none. -/
inductive OsChar where
  | char (c : Char)
  | byte (b : UInt8)
  deriving DecidableEq

abbrev OsStr := List OsChar

namespace OsStr

def separator : OsChar := .char '/'

def dot : OsChar := .char '.'

/-- A text as an OS string. -/
def ofStr (s : Str) : OsStr := s.map .char

def toStr (s : OsStr) : Option Str := s.mapM fun
  | .char c => some c
  | .byte _ => none

def bytes (s : OsStr) : List UInt8 := s.flatMap fun
  | .char c => String.utf8EncodeChar c
  | .byte b => [b]

/-- The name of a directory entry. -/
def name (s : OsStr) : OsName :=
  match s.toStr with
  | some t => .text t
  | none => .bytes s.bytes

def segment (s : OsStr) : Option Component :=
  if s = [] ∨ s = [dot] then none
  else if s = [dot,dot] then some .parentDir
  else some (.normal s.name)

/-- A leading separator, or a leading dot that stands by itself. -/
def start (s : OsStr) : Path :=
  if s.head? = some separator then [.rootDir]
  else if (s.splitOn separator).head? = some [dot] then [.curDir] else []

/-- `Path::components`. -/
def components (s : OsStr) : Path := s.start ++ (s.splitOn separator).filterMap segment

/-- `Path::join`: an absolute path replaces the other. -/
def join (dir rel : OsStr) : OsStr :=
  if rel.head? = some separator then rel
  else if dir = [] ∨ dir.getLast? = some separator then dir ++ rel
  else dir ++ separator :: rel

end OsStr

section Lemmas

open OsStr

variable {s : Str} {dir rel : OsStr}

theorem toStr_ofStr (s : Str) : (ofStr s).toStr = some s := by
  induction s with
  | nil => rfl
  | cons c s ih =>
    unfold toStr ofStr at *
    rw [List.map_cons,List.mapM_cons,ih]
    rfl

theorem ofStr_injective : Function.Injective ofStr :=
  List.map_injective_iff.mpr fun a b same => by cases same; rfl

theorem segment_ofStr (s : Str) : OsStr.segment (ofStr s) = Paths.segment s := by
  have single : ofStr s = [dot] ↔ s = ['.'] := ofStr_injective.eq_iff (b := ['.'])
  have double : ofStr s = [dot,dot] ↔ s = ['.','.'] := ofStr_injective.eq_iff (b := ['.','.'])
  have empty : ofStr s = [] ↔ s = [] := List.map_eq_nil_iff
  unfold OsStr.segment Paths.segment
  simp only [single,double,empty]
  split
  · rename_i same
    rcases same with rfl | rfl <;> rfl
  · rename_i other
    split
    · rename_i same
      subst same
      rfl
    · rename_i other'
      have named : OsStr.name (ofStr s) = .text s := by
        unfold OsStr.name
        rw [toStr_ofStr]
      split
      · simp at other
      · simp at other
      · simp at other'
      · rw [named]

theorem splitOn_ofStr (s : Str) : (ofStr s).splitOn separator = (s.splitOn '/').map ofStr := by
  induction s with
  | nil => rfl
  | cons c s ih =>
    have same : (OsChar.char c == separator) = (c == '/') := by
      simp [separator]
    show (OsChar.char c :: ofStr s).splitOn separator = _
    rw [List.splitOn_cons_eq_if_modifyHead,List.splitOn_cons_eq_if_modifyHead,same,ih]
    split
    · rfl
    · cases s.splitOn '/' <;> rfl

/-- The components of a text are those of the text as a path. -/
theorem components_ofStr (s : Str) : OsStr.components (ofStr s) = Paths.components s := by
  have first : (ofStr s).head? = some separator ↔ s.head? = some '/' := by
    cases s <;> simp [ofStr,separator]
  have single : ((s.splitOn '/').map ofStr).head? = some [dot] ↔ (s.splitOn '/').head? = some ['.'] := by
    rw [List.head?_map,Option.map_eq_some_iff]
    constructor
    · rintro ⟨t,head,same⟩
      have dot : t = ['.'] := ofStr_injective same
      rw [head,dot]
    · exact fun head => ⟨['.'],head,rfl⟩
  unfold OsStr.components OsStr.start Paths.components
  simp only [splitOn_ofStr,List.filterMap_map,first,single]
  congr 1
  apply List.filterMap_congr
  intro t _
  exact segment_ofStr t

theorem components_slash (dir rel : OsStr) : OsStr.components (dir ++ separator :: rel) =
    OsStr.start (dir ++ [separator]) ++ (dir.splitOn separator).filterMap OsStr.segment ++
      (rel.splitOn separator).filterMap OsStr.segment := by
  have start : OsStr.start (dir ++ separator :: rel) = OsStr.start (dir ++ [separator]) := by
    unfold OsStr.start
    rw [List.splitOn_append_cons_self,List.splitOn_append_cons_self]
    cases split : dir.splitOn separator with
    | nil => exact absurd split (List.splitOn_ne_nil _ _)
    | cons first rest => cases dir <;> rfl
  unfold OsStr.components
  rw [start,List.splitOn_append_cons_self,List.filterMap_append,List.append_assoc]

/-- A path that starts with a name is what it adds to the path it is joined to. -/
theorem components_joined (plain : OsStr.start rel = []) :
    OsStr.components (OsStr.join dir rel) = OsStr.components dir ++ OsStr.components rel := by
  have rest : OsStr.components rel = (rel.splitOn separator).filterMap OsStr.segment := by
    unfold OsStr.components
    rw [plain,List.nil_append]
  have relative : rel.head? ≠ some separator := by
    intro root
    unfold OsStr.start at plain
    rw [if_pos root] at plain
    cases plain
  unfold OsStr.join
  rw [if_neg relative]
  split
  · rename_i ends
    rcases ends with rfl | ends
    · rfl
    · obtain ⟨front,rfl⟩ : ∃ front, dir = front ++ [separator] := by
        obtain ⟨front,same⟩ := List.getLast?_eq_some_iff.mp ends
        exact ⟨front,same⟩
      rw [List.append_assoc,List.singleton_append,components_slash,components_slash,rest]
      simp [OsStr.segment]
  · rename_i open_
    rw [components_slash,rest]
    unfold OsStr.components
    congr 2
    unfold OsStr.start
    rw [List.splitOn_append_cons_self]
    cases split : dir.splitOn separator with
    | nil => exact absurd split (List.splitOn_ne_nil _ _)
    | cons first more =>
      cases dir with
      | nil => exact absurd (.inl rfl) open_
      | cons c dir => rfl

end Lemmas

end Vnidrop.Paths
