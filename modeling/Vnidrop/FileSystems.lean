import Vnidrop.Paths
import Vnidrop.Tables
import Mathlib.Logic.Function.Basic
import Mathlib.Tactic.Common

/-! A Unix file system: directories under their canonical paths, the entries in them, and the
inodes that files have; and computations on a state that may fail. Nothing here refers to a
particular program. -/
namespace Vnidrop.FileSystems

open Paths Tables

/-- The canonical path of a directory. -/
abbrev Place := List OsName

abbrev Bytes := List UInt8

inductive Errno where
  | EPERM
  | ENOENT
  | EACCES
  | EEXIST
  | EXDEV
  | EISDIR
  | EINVAL
  | ENOSYS
  | ENOTSUP
  | EOPNOTSUPP
  | other (code : Nat)
  deriving DecidableEq, Repr

inductive Node where
  | file (inode : Nat)
  | directory
  | symlink (dest : Path)
  deriving DecidableEq

def Node.isFile : Node → Bool
  | .file _ => true
  | .directory | .symlink _ => false

structure Entry where
  dir : Place
  name : OsName
  node : Node

def Entry.key (e : Entry) : Place × OsName := (e.dir,e.name)

structure Inode where
  bytes : Bytes
  modified : Option Nat

/-- `next` is the first inode that no file has had. -/
structure Fs where
  entries : Table Entry.key
  inodes : Nat → Inode
  next : Nat
  used : ∀ k e i, entries.find k = some e → e.node = .file i → i < next

/-- Where relative paths start, and how many steps the system takes to resolve a path. -/
structure View where
  cwd : Place
  steps : Nat

namespace Fs

def node (s : Fs) (d : Place) (n : OsName) : Option Node := (s.entries.find (d,n)).map (·.node)

/-- The names in a directory. -/
def list (s : Fs) (d : Place) : List OsName := (s.entries.rows.filter (·.dir = d)).map (·.name)

/-- Follows a path from a directory to a directory. -/
def walk (s : Fs) : Nat → Place → Path → Option Place
  | _, d, [] => some d
  | 0, _, _ :: _ => none
  | k + 1, d, c :: rest =>
    match c with
    | .rootDir => s.walk k [] rest
    | .curDir => s.walk k d rest
    | .parentDir => s.walk k d.dropLast rest
    | .normal n =>
      match s.node d n with
      | some .directory => s.walk k (d ++ [n]) rest
      | some (.symlink dest) => s.walk k d (dest ++ rest)
      | _ => none

/-- A new entry, whose file is one of those there are. -/
def add (s : Fs) (d : Place) (n : OsName) (node : Node) (known : ∀ i, node = .file i → i < s.next) : Option Fs :=
  match h : s.entries.insert ⟨d,n,node⟩ with
  | none => none
  | some entries => some
      { entries
        inodes := s.inodes
        next := s.next
        used := by
          intro k e i found is
          rw [Table.find_insert h] at found
          split at found
          · cases found
            exact known i is
          · exact s.used k e i found is }

def remove (s : Fs) (d : Place) (n : OsName) : Fs where
  entries := s.entries.delete (d,n)
  inodes := s.inodes
  next := s.next
  used k e i found is := by
    rw [Table.find_delete] at found
    split at found
    · cases found
    · exact s.used k e i found is

theorem used_node {s : Fs} {d : Place} {n : OsName} {i : Nat} (h : s.node d n = some (.file i)) : i < s.next := by
  obtain ⟨e,found,is⟩ := Option.map_eq_some_iff.mp h
  exact s.used _ e i found is

def mkdir (s : Fs) (d : Place) (n : OsName) : Except Errno Fs :=
  match s.add d n .directory (fun _ is => by cases is) with
  | none => .error .EEXIST
  | some t => .ok t

/-- The inode of a file without bytes. -/
def allot (s : Fs) (now : Nat) : Fs where
  entries := s.entries
  inodes := Function.update s.inodes s.next ⟨[],some now⟩
  next := s.next + 1
  used k e i found is := Nat.lt_succ_of_lt (s.used k e i found is)

/-- `open` with `O_CREAT` and `O_EXCL`, with the inode of the file. -/
def openNew (s : Fs) (d : Place) (n : OsName) (now : Nat) : Except Errno (Nat × Fs) :=
  match (s.allot now).add d n (.file s.next) (fun i is => by cases is; exact Nat.lt_succ_self s.next) with
  | none => .error .EEXIST
  | some t => .ok (s.next,t)

def append (s : Fs) (i : Nat) (bytes : Bytes) (now : Nat) : Fs where
  entries := s.entries
  inodes := Function.update s.inodes i ⟨(s.inodes i).bytes ++ bytes,some now⟩
  next := s.next
  used := s.used

def unlink (s : Fs) (d : Place) (n : OsName) : Except Errno Fs :=
  match s.node d n with
  | none => .error .ENOENT
  | some .directory => .error .EISDIR
  | some _ => .ok (s.remove d n)

/-- `link`, which does not follow a link at either end. -/
def link (s : Fs) (d : Place) (n : OsName) (d' : Place) (n' : OsName) : Except Errno Fs :=
  match h : s.node d n with
  | none => .error .ENOENT
  | some .directory => .error .EPERM
  | some node =>
    match s.add d' n' node (fun _ is => used_node (h.trans (congrArg some is))) with
    | none => .error .EEXIST
    | some t => .ok t

/-- `rename` of what is no directory: it replaces an entry, unless both are the same file. -/
def rename (s : Fs) (d : Place) (n : OsName) (d' : Place) (n' : OsName) : Except Errno Fs :=
  match h : s.node d n with
  | none => .error .ENOENT
  | some .directory => .error .EISDIR
  | some node =>
    match s.node d' n' with
    | some .directory => .error .EISDIR
    | old =>
      if old = some node ∧ node.isFile then .ok s
      else
        match ((s.remove d' n').remove d n).add d' n' node
          (fun _ is => used_node (s := s) (h.trans (congrArg some is))) with
        | none => .error .EEXIST
        | some t => .ok t

end Fs

open Fs

section Entries

variable {s t u : Fs} {d d' : Place} {n n' : OsName} {node : Node} {i : Nat}

/-- `t` differs from `s` in one entry at most. -/
structure Sets (d : Place) (n : OsName) (node : Option Node) (s t : Fs) : Prop where
  here : t.node d n = node
  others : ∀ d' n', ¬(d' = d ∧ n' = n) → t.node d' n' = s.node d' n'
  inodes : t.inodes = s.inodes
  next : t.next = s.next

theorem node_eq_none : s.node d n = none ↔ s.entries.find (d,n) = none := Option.map_eq_none_iff

theorem add_sets {known : ∀ i, node = .file i → i < s.next} (h : s.add d n node known = some t) :
    s.node d n = none ∧ Sets d n (some node) s t := by
  unfold add at h
  split at h
  · cases h
  · rename_i entries inserted
    cases h
    have absent : s.entries.find (d,n) = none := Table.insert_isSome.mp (by rw [inserted]; rfl)
    refine ⟨node_eq_none.mpr absent,?_,fun d' n' other => ?_,rfl,rfl⟩
    · show (entries.find (d,n)).map _ = _
      rw [Table.find_insert inserted,if_pos (show (d,n) = Entry.key ⟨d,n,node⟩ from rfl)]
      rfl
    · show (entries.find (d',n')).map _ = _
      have different : ¬(d',n') = Entry.key ⟨d,n,node⟩ := fun same => other (Prod.mk.inj same)
      rw [Table.find_insert inserted,if_neg different]
      rfl

theorem remove_sets : Sets d n none s (s.remove d n) where
  here := node_eq_none.mpr (Table.find_delete_self _ _)
  others d' n' other := by
    show ((s.entries.delete (d,n)).find (d',n')).map _ = _
    rw [Table.find_delete_other _ (fun same => other (Prod.mk.inj same))]
    rfl
  inodes := rfl
  next := rfl

theorem mkdir_ok (h : s.mkdir d n = .ok t) : s.node d n = none ∧ Sets d n (some .directory) s t := by
  unfold mkdir at h
  split at h
  · cases h
  · rename_i made
    cases h
    exact add_sets made

theorem unlink_ok (h : s.unlink d n = .ok t) : (∃ node, s.node d n = some node ∧ node ≠ .directory) ∧ Sets d n none s t := by
  unfold unlink at h
  split at h
  · cases h
  · cases h
  · rename_i node different found
    cases h
    exact ⟨⟨node,found,different⟩,remove_sets⟩

theorem unlink_file (there : s.node d n = some (.file i)) : s.unlink d n = .ok (s.remove d n) := by
  unfold unlink
  rw [there]

theorem link_ok (h : s.link d n d' n' = .ok t) : s.node d' n' = none ∧ ∃ node, s.node d n = some node ∧
    Sets d' n' (some node) s t := by
  unfold link at h
  split at h
  · cases h
  · cases h
  · rename_i node _ found
    split at h
    · cases h
    · rename_i linked
      cases h
      obtain ⟨free,sets⟩ := add_sets linked
      exact ⟨free,node,found,sets⟩

/-- A rename to a name that is free. -/
theorem rename_ok (free : s.node d' n' = none) (h : s.rename d n d' n' = .ok t) :
    ∃ node mid, s.node d n = some node ∧ Sets d n none s mid ∧ Sets d' n' (some node) mid t := by
  unfold rename at h
  split at h
  · cases h
  · cases h
  · rename_i node _ found
    rw [free] at h
    have absent : (none : Option Node) ≠ some node ∨ ¬node.isFile := .inl (by simp)
    simp only [reduceCtorEq,false_and,if_false] at h
    split at h
    · cases h
    · rename_i moved
      cases h
      have gone : Sets d' n' none s (s.remove d' n') := remove_sets
      have sets := (add_sets moved).2
      have out : Sets d n none (s.remove d' n') ((s.remove d' n').remove d n) := remove_sets
      refine ⟨node,(s.remove d' n').remove d n,found,⟨out.here,fun d₁ n₁ other => ?_,rfl,rfl⟩,sets⟩
      rw [out.others d₁ n₁ other]
      by_cases same : d₁ = d' ∧ n₁ = n'
      · obtain ⟨rfl,rfl⟩ := same
        rw [gone.here,free]
      · exact gone.others d₁ n₁ same

theorem openNew_ok {now : Nat} (h : s.openNew d n now = .ok (i,t)) :
    s.node d n = none ∧ i = s.next ∧ Sets d n (some (.file i)) (s.allot now) t := by
  unfold openNew at h
  split at h
  · cases h
  · rename_i opened
    cases h
    obtain ⟨free,sets⟩ := add_sets opened
    exact ⟨free,rfl,sets⟩

end Entries

section Preservation

variable {exempt : OsName → Inode → Prop} {s t u : Fs} {d : Place} {n : OsName} {node : Option Node} {i : Nat}

/-- Every entry and every inode of `s` is there in `t`, the entries of exempt files aside. -/
structure Preserves (exempt : OsName → Inode → Prop) (s t : Fs) : Prop where
  nodes : ∀ d n node, s.node d n = some node →
    t.node d n = some node ∨ ∃ i, node = .file i ∧ exempt n (s.inodes i)
  inodes : ∀ i < s.next, t.inodes i = s.inodes i
  next : s.next ≤ t.next

/-- An entry of `t` for a file that `s` does not have there. -/
def Made (s t : Fs) (d : Place) (n : OsName) : Prop :=
  ∃ i, t.node d n = some (.file i) ∧ s.node d n ≠ some (.file i)

theorem preserves_refl (s : Fs) : Preserves exempt s s :=
  ⟨fun _ _ _ there => .inl there,fun _ _ => rfl,Nat.le_refl _⟩

theorem Preserves.trans (first : Preserves exempt s t) (second : Preserves exempt t u) : Preserves exempt s u where
  nodes d n node there := by
    rcases first.nodes d n node there with kept | gone
    · rcases second.nodes d n node kept with kept' | ⟨i,rfl,stale⟩
      · exact .inl kept'
      · exact .inr ⟨i,rfl,first.inodes i (used_node there) ▸ stale⟩
    · exact .inr gone
  inodes i old := (second.inodes i (Nat.lt_of_lt_of_le old first.next)).trans (first.inodes i old)
  next := Nat.le_trans first.next second.next

/-- An entry is set where there is none, or an exempt file. -/
theorem Sets.preserves (sets : Sets d n node s t)
    (free : ∀ old, s.node d n = some old → ∃ i, old = .file i ∧ exempt n (s.inodes i)) : Preserves exempt s t where
  nodes d' n' old there := by
    by_cases same : d' = d ∧ n' = n
    · obtain ⟨rfl,rfl⟩ := same
      exact .inr (free old there)
    · exact .inl ((sets.others d' n' same).trans there)
  inodes i _ := congrFun sets.inodes i
  next := Nat.le_of_eq sets.next.symm

/-- What is not of `s` may be replaced in a later state. -/
theorem Preserves.sets (kept : Preserves exempt s t) (sets : Sets d n node t u)
    (new : ∀ old, t.node d n = some old → ∃ i, old = .file i ∧ s.next ≤ i) : Preserves exempt s u where
  nodes d' n' old there := by
    rcases kept.nodes d' n' old there with same | gone
    · by_cases here : d' = d ∧ n' = n
      · obtain ⟨rfl,rfl⟩ := here
        obtain ⟨i,rfl,later⟩ := new old same
        exact absurd (used_node there) (Nat.not_lt_of_le later)
      · exact .inl ((sets.others d' n' here).trans same)
    · exact .inr gone
  inodes i old := (congrFun sets.inodes i).trans (kept.inodes i old)
  next := Nat.le_trans kept.next (Nat.le_of_eq sets.next.symm)

theorem allot_preserves (now : Nat) : Preserves exempt s (s.allot now) where
  nodes _ _ _ there := .inl there
  inodes _ old := Function.update_of_ne (Nat.ne_of_lt old) _ _
  next := Nat.le_succ _

/-- Directories and links are no files, and stay. -/
theorem Preserves.directory (kept : Preserves exempt s t) (there : s.node d n = some .directory) :
    t.node d n = some .directory := by
  rcases kept.nodes d n _ there with same | ⟨_,file,_⟩
  · exact same
  · cases file

theorem Preserves.symlink {dest : Path} (kept : Preserves exempt s t) (there : s.node d n = some (.symlink dest)) :
    t.node d n = some (.symlink dest) := by
  rcases kept.nodes d n _ there with same | ⟨_,file,_⟩
  · exact same
  · cases file

/-- A path leads where it led while the directories and the links stay. -/
theorem walk_mono (directories : ∀ d n, s.node d n = some .directory → t.node d n = some .directory)
    (links : ∀ d n dest, s.node d n = some (.symlink dest) → t.node d n = some (.symlink dest))
    {k : Nat} {p : Path} {place : Place} (leads : s.walk k d p = some place) : t.walk k d p = some place := by
  induction k generalizing d p with
  | zero =>
    cases p with
    | nil => exact leads
    | cons c rest => cases leads
  | succ k ih =>
    cases p with
    | nil => exact leads
    | cons c rest =>
      cases c with
      | rootDir | curDir | parentDir => exact ih leads
      | normal n =>
        unfold Fs.walk at leads ⊢
        cases there : s.node d n with
        | none => simp [there] at leads
        | some node =>
          cases node with
          | file i => simp [there] at leads
          | directory =>
            simp only [there] at leads
            simp only [directories d n there]
            exact ih leads
          | symlink dest =>
            simp only [there] at leads
            simp only [links d n dest there]
            exact ih leads

theorem Preserves.walk (kept : Preserves exempt s t) {k : Nat} {p : Path} {place : Place}
    (leads : s.walk k d p = some place) : t.walk k d p = some place :=
  walk_mono (fun _ _ => kept.directory) (fun _ _ _ => kept.symlink) leads

/-- Paths lead through directories and links alone, so the entries of files may be set. -/
theorem Sets.walk (sets : Sets d n node s t) (unfiled : ∀ old, s.node d n = some old → ∃ i, old = .file i)
    {k : Nat} {from' : Place} {p : Path} {place : Place} (leads : s.walk k from' p = some place) :
    t.walk k from' p = some place := by
  have kept : Preserves (fun _ _ => True) s t :=
    sets.preserves fun old there => (unfiled old there).imp fun i file => ⟨file,trivial⟩
  exact kept.walk leads

/-- The inode of a new file may be written. -/
theorem Preserves.append (kept : Preserves exempt s t) (new : s.next ≤ i) (bytes : Bytes) (now : Nat) :
    Preserves exempt s (t.append i bytes now) where
  nodes := kept.nodes
  inodes j old := by
    have other : j ≠ i := Nat.ne_of_lt (Nat.lt_of_lt_of_le old new)
    exact (Function.update_of_ne other _ _).trans (kept.inodes j old)
  next := kept.next

theorem made_refl : ¬Made s s d n := fun ⟨_,there,new⟩ => new there

/-- What is made is made in one of the two parts. -/
theorem Made.split (made : Made s u d n) : Made s t d n ∨ Made t u d n := by
  obtain ⟨i,there,new⟩ := made
  by_cases before : t.node d n = some (.file i)
  · exact .inl ⟨i,before,new⟩
  · exact .inr ⟨i,there,before⟩

theorem Sets.made {d' : Place} {n' : OsName} (sets : Sets d n node s t) (made : Made s t d' n') :
    d' = d ∧ n' = n ∧ ∃ i, node = some (.file i) := by
  obtain ⟨i,there,new⟩ := made
  by_cases same : d' = d ∧ n' = n
  · obtain ⟨rfl,rfl⟩ := same
    exact ⟨rfl,rfl,i,sets.here.symm.trans there⟩
  · exact absurd ((sets.others d' n' same).symm.trans there) new

end Preservation

section Computations

variable {ε ε' σ α β : Type} {m : EStateM ε σ α} {f : α → EStateM ε σ β} {s : σ}

/-- A computation that fails does not undo what it has done. -/
def final : EStateM.Result ε σ α → σ
  | .ok _ s | .error _ s => s

/-- The outcome of a computation, as its value. -/
def observe (m : EStateM ε σ α) : EStateM ε σ (Except ε α) := fun s =>
  match m s with
  | .ok a t => .ok (.ok a) t
  | .error e t => .ok (.error e) t

/-- The outcome and the state it comes with meet `post`. -/
def Ends (post : Except ε α → σ → Prop) : EStateM.Result ε σ α → Prop
  | .ok a s => post (.ok a) s
  | .error e s => post (.error e) s

theorem ends_mono {post post' : Except ε α → σ → Prop} (weaker : ∀ r t, post r t → post' r t)
    (ends : Ends post (m s)) : Ends post' (m s) := by
  cases ran : m s with
  | ok a t | error e t =>
    rw [ran] at ends
    exact weaker _ t ends

theorem ends_bind {post : Except ε β → σ → Prop} {q : Except ε α → σ → Prop} (first : Ends q (m s))
    (ok : ∀ a t, q (.ok a) t → Ends post (f a t)) (error : ∀ e t, q (.error e) t → post (.error e) t) :
    Ends post ((m >>= f) s) := by
  show Ends post (match m s with
    | .ok a t => f a t
    | .error e t => .error e t)
  cases ran : m s with
  | ok a t =>
    rw [ran] at first
    exact ok a t first
  | error e t =>
    rw [ran] at first
    exact error e t first

theorem bind_ran {a : α} {t : σ} (ran : m s = .ok a t) : (m >>= f) s = f a t := by
  show (match m s with
    | .ok a t => f a t
    | .error e t => .error e t) = _
  rw [ran]

theorem bind_failed {e : ε} {t : σ} (ran : m s = .error e t) : (m >>= f) s = .error e t := by
  show (match m s with
    | .ok a t => f a t
    | .error e t => .error e t) = _
  rw [ran]

theorem ends_observe {q : Except ε (Except ε α) → σ → Prop} (ends : Ends (fun r => q (.ok r)) (m s)) :
    Ends q (observe m s) := by
  unfold observe
  cases ran : m s with
  | ok a t | error e t =>
    rw [ran] at ends
    exact ends

theorem ends_adapt {post : Except ε' α → σ → Prop} {g : ε → ε'} (ends : Ends (fun r => post (r.mapError g)) (m s)) :
    Ends post (EStateM.adaptExcept g m s) := by
  unfold EStateM.adaptExcept
  cases ran : m s with
  | ok a t | error e t =>
    rw [ran] at ends
    exact ends

theorem ends_final {post : σ → Prop} (ends : Ends (fun _ => post) (m s)) : post (final (m s)) := by
  cases ran : m s with
  | ok a t | error e t =>
    rw [ran] at ends
    exact ends

end Computations

end Vnidrop.FileSystems
