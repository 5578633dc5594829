import Vnidrop.EventHistory

/-! The log files: a writer that appends to one file and, when a write would not fit it, moves the
files up by one and drops the oldest. -/
namespace Vnidrop.LogRotation

open Paths (Str)

/-- A file, with the number of writes that have put something into it. -/
structure LogFile where
  bytes : List UInt8
  received : Nat

/-- The files of the log directory. -/
abbrev Dir := Str → Option LogFile

namespace Dir

/-- `fs::remove_file`, whose error for a missing file is dropped. -/
def remove (d : Dir) (path : Str) : Dir := Function.update d path none

/-- `fs::rename`, which replaces what has the new name. -/
def rename (d : Dir) (source target : Str) : Dir :=
  match d source with
  | some f => Function.update (Function.update d source none) target (some f)
  | none => d

def size (d : Dir) (path : Str) : Nat := ((d path).map fun f => f.bytes.length).getD 0

/-- A write to the file, opened with `create` and `append`. -/
def append (d : Dir) (path : Str) (bytes : List UInt8) : Dir :=
  let f := (d path).getD ⟨[],0⟩
  Function.update d path (some ⟨f.bytes ++ bytes,if bytes = [] then f.received else f.received + 1⟩)

end Dir

structure SizeRotatingWriter where
  maxBytes : Nat
  maxFiles : Nat

def activePath : Str := "vnidrop.log".toList

/-- `format!("vnidrop.{index}.log")`. -/
def rotatedPath (index : Nat) : Str := "vnidrop.".toList ++ Nat.toDigits 10 index ++ ".log".toList

/-- The loop over `(1..max_files).rev()`, from the given index down. -/
def shift (d : Dir) : Nat → Dir
  | 0 => d
  | index + 1 =>
    let source := rotatedPath (index + 1)
    shift (if (d source).isSome then d.rename source (rotatedPath (index + 2)) else d) index

namespace SizeRotatingWriter

def rotateIfNeeded (w : SizeRotatingWriter) (d : Dir) (incomingBytes : Nat) : Dir :=
  let currentSize := d.size activePath
  if currentSize = 0 ∨ currentSize + incomingBytes ≤ w.maxBytes then d
  else if w.maxFiles = 0 then d.remove activePath
  else
    let d := shift (d.remove (rotatedPath w.maxFiles)) (w.maxFiles - 1)
    if (d activePath).isSome then d.rename activePath (rotatedPath 1) else d

/-- A write, of which the file takes so many bytes. -/
def write (w : SizeRotatingWriter) (d : Dir) (buf : List UInt8) (taken : Nat) : Dir :=
  (w.rotateIfNeeded d buf.length).append activePath (buf.take taken)

/-- Writes to an empty log directory. -/
def run (w : SizeRotatingWriter) (writes : List (List UInt8 × Nat)) : Dir :=
  writes.foldl (fun d x => w.write d x.1 x.2) fun _ => none

end SizeRotatingWriter

/-- The bytes that the writer has reported as written. -/
def accepted (writes : List (List UInt8 × Nat)) : List UInt8 := writes.flatMap fun x => x.1.take x.2

def bytes (d : Dir) (path : Str) : List UInt8 := ((d path).map LogFile.bytes).getD []

/-- The rotated files from the given index down. -/
def chain (d : Dir) : Nat → List UInt8
  | 0 => []
  | index + 1 => bytes d (rotatedPath (index + 1)) ++ chain d index

/-- What rotation may do to the log. -/
structure Kept (w : SizeRotatingWriter) (stream : List UInt8) (d : Dir) : Prop where
  newest : chain d w.maxFiles ++ bytes d activePath <:+ stream
  few : ∀ index, (d (rotatedPath index)).isSome → 1 ≤ index ∧ index ≤ w.maxFiles
  small : ∀ path f, d path = some f → 1 < f.received → f.bytes.length ≤ w.maxBytes

section

variable {d : Dir} {i j n : Nat} {path : Str}

theorem rotatedPath_inj : rotatedPath i = rotatedPath j ↔ i = j := by
  constructor
  · intro same
    unfold rotatedPath at same
    have digits := List.append_cancel_left (List.append_cancel_right same)
    exact EventHistory.digits_injective digits
  · exact fun same => same ▸ rfl

theorem length_rotatedPath (index : Nat) : (rotatedPath index).length = (Nat.toDigits 10 index).length + 12 := by
  unfold rotatedPath
  generalize Nat.toDigits 10 index = digits
  simp

theorem rotatedPath_ne_active : rotatedPath i ≠ activePath := by
  intro same
  have eleven : activePath.length = 11 := by decide
  have long := (length_rotatedPath i).symm.trans ((congrArg List.length same).trans eleven)
  clear same eleven
  omega

variable {source target : Str}

theorem rename_missing (missing : (d source).isSome = false) : d.rename source target = d := by
  unfold Dir.rename
  rw [Option.isSome_eq_false_iff.mp missing |> Option.isNone_iff_eq_none.mp]

theorem rename_target (free : d target = none) : d.rename source target target = d source := by
  unfold Dir.rename
  cases found : d source with
  | none => exact free
  | some f => exact Function.update_self (f := Function.update d source none) target (some f)

theorem rename_source (apart : source ≠ target) : d.rename source target source = none := by
  unfold Dir.rename
  cases found : d source with
  | none => exact found
  | some f =>
    change Function.update (Function.update d source none) target (some f) source = none
    rw [Function.update_of_ne apart,Function.update_self]

theorem rename_other (left : path ≠ source) (right : path ≠ target) : d.rename source target path = d path := by
  unfold Dir.rename
  cases d source with
  | none => rfl
  | some f =>
    change Function.update (Function.update d source none) target (some f) path = d path
    rw [Function.update_of_ne right,Function.update_of_ne left]

theorem rotatedPath_ne (apart : i ≠ j) : rotatedPath i ≠ rotatedPath j := fun same => apart (rotatedPath_inj.mp same)

/-- A move up, if there is a file. -/
theorem shift_succ (d : Dir) (n : Nat) :
    shift d (n + 1) = shift (d.rename (rotatedPath (n + 1)) (rotatedPath (n + 2))) n := by
  rw [shift]
  split
  · rfl
  · rename_i missing
    rw [rename_missing (by simpa using missing)]

/-- Every file moves up by one into the place that is free at the top. -/
theorem shift_spec (free : d (rotatedPath (n + 1)) = none) :
    (∀ i, 1 ≤ i → i ≤ n → shift d n (rotatedPath (i + 1)) = d (rotatedPath i)) ∧
    shift d n (rotatedPath 1) = none ∧
    ∀ path, (∀ i, 1 ≤ i → i ≤ n + 1 → path ≠ rotatedPath i) → shift d n path = d path := by
  induction n generalizing d with
  | zero => exact ⟨fun i low high => by omega,free,fun path _ => rfl⟩
  | succ n ih =>
    have apart : rotatedPath (n + 1) ≠ rotatedPath (n + 2) := rotatedPath_ne (by omega)
    obtain ⟨moved,lowest,rest⟩ := ih (d := d.rename (rotatedPath (n + 1)) (rotatedPath (n + 2))) (rename_source apart)
    rw [shift_succ]
    refine ⟨fun i low high => ?_,lowest,fun path out => ?_⟩
    · by_cases top : i = n + 1
      · subst top
        rw [rest _ fun j _ below => rotatedPath_ne (by omega),rename_target free]
      · rw [moved i low (by omega),rename_other (rotatedPath_ne top) (rotatedPath_ne (by omega))]
    · rw [rest path fun i low high => out i low (by omega),rename_other (out _ (by omega) (by omega)) (out _ (by omega) le_rfl)]

/-- The lower part of a chain is of the lower files only. -/
theorem chain_congr {d' : Dir} (same : ∀ i, 1 ≤ i → i ≤ n → d' (rotatedPath i) = d (rotatedPath i)) :
    chain d' n = chain d n := by
  induction n with
  | zero => rfl
  | succ n ih =>
    rw [chain,chain,bytes,bytes,same (n + 1) (by omega) le_rfl,ih fun i low high => same i low (by omega)]

/-- All files moved up by one, and one put below. -/
theorem chain_shifted {d' : Dir} {f : Option LogFile} (first : d' (rotatedPath 1) = f)
    (moved : ∀ i, 1 ≤ i → i ≤ n → d' (rotatedPath (i + 1)) = d (rotatedPath i)) :
    chain d' (n + 1) = chain d n ++ (f.map LogFile.bytes).getD [] := by
  induction n with
  | zero => simp [chain,bytes,first]
  | succ n ih =>
    rw [chain,ih fun i low high => moved i low (by omega),chain,bytes,bytes,moved (n + 1) (by omega) le_rfl,List.append_assoc]

variable {w : SizeRotatingWriter} {d' : Dir} {f : LogFile} {incoming : Nat}

/-- What the files are once the active one has been moved away. -/
structure Rotated (w : SizeRotatingWriter) (d d' : Dir) : Prop where
  active : d' activePath = none
  chain : chain d' w.maxFiles <:+ chain d w.maxFiles ++ bytes d activePath
  few : ∀ index, (d' (rotatedPath index)).isSome → (1 ≤ index ∧ index ≤ w.maxFiles) ∨ (d (rotatedPath index)).isSome
  files : ∀ path f, d' path = some f → ∃ path', d path' = some f

theorem removed (none : w.maxFiles = 0) : Rotated w d (d.remove activePath) where
  active := Function.update_self _ _ _
  chain := by
    rw [none]
    exact List.nil_suffix
  few index present := by
    rw [Dir.remove,Function.update_of_ne rotatedPath_ne_active] at present
    exact .inr present
  files path f found := by
    by_cases same : path = activePath
    · rw [same,Dir.remove,Function.update_self] at found
      cases found
    · rw [Dir.remove,Function.update_of_ne same] at found
      exact ⟨path,found⟩

theorem moved_up (n : Nat) (some : w.maxFiles = n + 1) :
    Rotated w d ((shift (d.remove (rotatedPath (n + 1))) n).rename activePath (rotatedPath 1)) := by
  obtain ⟨moved,lowest,rest⟩ := shift_spec (d := d.remove (rotatedPath (n + 1))) (n := n) (Function.update_self _ _ _)
  have active : shift (d.remove (rotatedPath (n + 1))) n activePath = d activePath := by
    rw [rest _ fun i _ _ => rotatedPath_ne_active.symm,Dir.remove,Function.update_of_ne rotatedPath_ne_active.symm]
  have first : (shift (d.remove (rotatedPath (n + 1))) n).rename activePath (rotatedPath 1) (rotatedPath 1) = d activePath :=
    (rename_target lowest).trans active
  have above : ∀ i, 1 ≤ i → i ≤ n → (shift (d.remove (rotatedPath (n + 1))) n).rename activePath (rotatedPath 1)
      (rotatedPath (i + 1)) = d (rotatedPath i) := fun i low high => by
    rw [rename_other rotatedPath_ne_active (rotatedPath_ne (by omega)),moved i low high,Dir.remove,
      Function.update_of_ne (rotatedPath_ne (by omega))]
  have others : ∀ path, path ≠ activePath → (∀ i, 1 ≤ i → i ≤ n + 1 → path ≠ rotatedPath i) →
      (shift (d.remove (rotatedPath (n + 1))) n).rename activePath (rotatedPath 1) path = d path := fun path other out => by
    rw [rename_other other (out 1 le_rfl (by omega)),rest path out,Dir.remove,Function.update_of_ne (out _ (by omega) le_rfl)]
  refine ⟨rename_source rotatedPath_ne_active.symm,?_,fun index present => ?_,fun path f found => ?_⟩
  · rw [some,chain_shifted first above]
    exact ⟨bytes d (rotatedPath (n + 1)),by rw [LogRotation.chain,bytes,bytes,List.append_assoc]⟩
  · by_cases within : 1 ≤ index ∧ index ≤ n + 1
    · exact .inl (by rwa [some])
    · rw [others _ rotatedPath_ne_active fun i low high => rotatedPath_ne (by omega)] at present
      exact .inr present
  · by_cases same : path = activePath
    · rw [same,rename_source rotatedPath_ne_active.symm] at found
      cases found
    · by_cases rotated : ∃ i, 1 ≤ i ∧ i ≤ n + 1 ∧ path = rotatedPath i
      · obtain ⟨i,low,high,rfl⟩ := rotated
        by_cases one : i = 1
        · rw [one,first] at found
          exact ⟨_,found⟩
        · obtain ⟨j,rfl⟩ : ∃ j, i = j + 1 := ⟨i - 1,by omega⟩
          rw [above j (by omega) (by omega)] at found
          exact ⟨_,found⟩
      · rw [others path same fun i low high same => rotated ⟨i,low,high,same⟩] at found
        exact ⟨path,found⟩

/-- A write fits the active file, or finds it moved away. -/
theorem rotate_cases (w : SizeRotatingWriter) (d : Dir) (incoming : Nat) :
    (w.rotateIfNeeded d incoming = d ∧ (d.size activePath = 0 ∨ d.size activePath + incoming ≤ w.maxBytes)) ∨
    Rotated w d (w.rotateIfNeeded d incoming) := by
  unfold SizeRotatingWriter.rotateIfNeeded
  dsimp only
  split
  · rename_i fits
    exact .inl ⟨rfl,fits⟩
  · split
    · rename_i none
      exact .inr (removed none)
    · rename_i some
      obtain ⟨n,files⟩ : ∃ n, w.maxFiles = n + 1 := ⟨w.maxFiles - 1,by omega⟩
      have shifted := moved_up (w := w) (d := d) n files
      rw [files,Nat.add_sub_cancel]
      split
      · exact .inr shifted
      · rename_i missing
        rw [rename_missing (by simpa using missing)] at shifted
        exact .inr shifted

/-- What is kept of the log, and that a file without bytes has had no write. -/
structure Inv (w : SizeRotatingWriter) (stream : List UInt8) (d : Dir) : Prop where
  kept : Kept w stream d
  fresh : ∀ path f, d path = some f → f.bytes = [] → f.received = 0

theorem inv_rotated {stream : List UInt8} (inv : Inv w stream d) (rotated : Rotated w d d') : Inv w stream d' where
  kept :=
    { newest := by
        have none : bytes d' activePath = [] := by rw [bytes,rotated.active]; rfl
        rw [none,List.append_nil]
        exact rotated.chain.trans inv.kept.newest
      few := fun index present => (rotated.few index present).elim id (inv.kept.few index)
      small := fun path f found => by
        obtain ⟨path',held⟩ := rotated.files path f found
        exact inv.kept.small path' f held }
  fresh path f found := by
    obtain ⟨path',held⟩ := rotated.files path f found
    exact inv.fresh path' f held

theorem chain_append (chunk : List UInt8) (n : Nat) : chain (d.append activePath chunk) n = chain d n :=
  chain_congr fun _ _ _ => Function.update_of_ne rotatedPath_ne_active _ _

theorem bytes_append (chunk : List UInt8) : bytes (d.append activePath chunk) activePath = bytes d activePath ++ chunk := by
  rw [bytes,Dir.append,Function.update_self,bytes]
  cases d activePath <;> rfl

/-- A write to the active file, which is empty or has room for all of the buffer. -/
theorem inv_append {stream chunk : List UInt8} (inv : Inv w stream d)
    (room : d.size activePath = 0 ∨ d.size activePath + chunk.length ≤ w.maxBytes) :
    Inv w (stream ++ chunk) (d.append activePath chunk) := by
  have fresh := inv.fresh activePath
  have small := inv.kept.small activePath
  have other {path : Str} (apart : path ≠ activePath) : d.append activePath chunk path = d path :=
    Function.update_of_ne apart _ _
  have active {f : LogFile} (found : d.append activePath chunk activePath = some f) : f =
      ⟨((d activePath).getD ⟨[],0⟩).bytes ++ chunk,
        if chunk = [] then ((d activePath).getD ⟨[],0⟩).received else ((d activePath).getD ⟨[],0⟩).received + 1⟩ :=
    (Option.some.inj ((Function.update_self activePath _ d).symm.trans found)).symm
  refine ⟨⟨?_,fun index present => ?_,fun path f found many => ?_⟩,fun path f found none => ?_⟩
  · obtain ⟨lost,same⟩ := inv.kept.newest
    exact ⟨lost,by rw [chain_append,bytes_append,← same]; simp⟩
  · rw [other rotatedPath_ne_active] at present
    exact inv.kept.few index present
  · by_cases same : path = activePath
    · subst same
      obtain rfl := active found
      cases held : d activePath with
      | none =>
        rw [held] at many
        simp only [Option.getD_none] at many
        split at many <;> omega
      | some g =>
        rw [held] at many
        rw [Dir.size,held] at room
        simp only [Option.getD_some,Option.map_some] at many room ⊢
        rw [List.length_append]
        split at many
        · rename_i nothing
          rw [nothing]
          exact small g held many
        · have full : g.bytes ≠ [] := fun empty => by
            have := fresh g held empty
            omega
          have some : 0 < g.bytes.length := List.length_pos_of_ne_nil full
          omega
    · rw [other same] at found
      exact inv.kept.small path f found many
  · by_cases same : path = activePath
    · subst same
      obtain rfl := active found
      obtain ⟨empty,nothing⟩ := List.append_eq_nil_iff.mp none
      rw [if_pos nothing]
      cases held : d activePath with
      | none => rfl
      | some g =>
        rw [held] at empty
        exact fresh g held empty
    · rw [other same] at found
      exact inv.fresh path f found none

theorem inv_write {stream : List UInt8} (inv : Inv w stream d) (buf : List UInt8) (taken : Nat) :
    Inv w (stream ++ buf.take taken) (w.write d buf taken) := by
  have short : (buf.take taken).length ≤ buf.length := List.length_take_le' _ _
  unfold SizeRotatingWriter.write
  obtain ⟨same,room⟩ | rotated := rotate_cases w d buf.length
  · rw [same]
    exact inv_append inv (room.imp_right fun fits => by omega)
  · have empty : (w.rotateIfNeeded d buf.length).size activePath = 0 := by
      rw [Dir.size,rotated.active]
      rfl
    exact inv_append (inv_rotated inv rotated) (.inl empty)

end

end Vnidrop.LogRotation
