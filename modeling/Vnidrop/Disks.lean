import Mathlib.Data.List.Dedup
import Mathlib.Logic.Function.Basic

/-! Files in a directory of a disk that may lose power. What is seen survives the end of a process;
a power cut leaves each name as it was at some moment since the directory was last synced, and a
file that was not synced itself with any content. -/
namespace Vnidrop.Disks

variable {ι β : Type}

/-- A name: the file seen under it, whether its content is synced, and what else a power cut may
leave there; `none` stands for anything. -/
structure Slot (β : Type) where
  seen : Option β
  synced : Bool
  others : Option (List (Option β))

def Slot.empty : Slot β := ⟨none,true,some []⟩

/-- A power cut may leave this under the name. -/
def Slot.May (s : Slot β) (x : Option β) : Prop := ∀ l ∈ s.others, x = s.seen ∨ x ∈ l

instance [DecidableEq β] (s : Slot β) (x : Option β) : Decidable (s.May x) :=
  match h : s.others with
  | none => .isTrue fun _ there => by simp [h] at there
  | some l => decidable_of_iff (x = s.seen ∨ x ∈ l) (by simp [Slot.May,h])

namespace Slot

variable {s t : Slot β} {x : Option β} {b : β}

def settle (s : Slot β) : Slot β := { s with others := s.others.map fun _ => [] }

/-- A file comes under the name, in the place of the one that was there. -/
def place (s : Slot β) (b : β) (synced : Bool) : Slot β :=
  ⟨some b,synced,if synced then s.others.map (s.seen :: ·) else none⟩

def clear (s : Slot β) : Slot β := ⟨none,true,s.others.map (s.seen :: ·)⟩

theorem may_seen : s.May s.seen := fun _ _ => .inl rfl

theorem may_empty : (empty : Slot β).May x ↔ x = none := by simp [May,empty]

theorem may_place : (s.place b true).May x ↔ x = some b ∨ s.May x := by
  simp only [May,place,if_true]
  cases s.others <;> simp

theorem may_clear : s.clear.May x ↔ x = none ∨ s.May x := by
  simp only [May,clear]
  cases s.others <;> simp

theorem may_settle (known : s.others ≠ none) : s.settle.May x ↔ x = s.seen := by
  obtain ⟨l,there⟩ := Option.ne_none_iff_exists'.mp known
  simp [May,settle,there]

theorem May.of_settle (h : s.settle.May x) : s.May x := by
  intro l there
  have known : s.others ≠ none := by simp [Option.mem_def.mp there]
  exact .inl ((may_settle known).mp h)

/-- The same file, of which less may be lost. -/
def Later (s t : Slot β) : Prop := t = s ∨ t = s.settle

theorem Later.refl (s : Slot β) : s.Later s := .inl rfl

theorem settle_settle : s.settle.settle = s.settle := by
  simp only [settle]
  cases s.others <;> rfl

theorem Later.trans {u : Slot β} (first : s.Later t) (second : t.Later u) : s.Later u := by
  rcases first with rfl | rfl
  · exact second
  · rw [Later,settle_settle,or_self] at second
    exact .inr second

theorem Later.seen (h : s.Later t) : t.seen = s.seen := by rcases h with rfl | rfl <;> rfl

theorem Later.synced (h : s.Later t) : t.synced = s.synced := by rcases h with rfl | rfl <;> rfl

theorem Later.known (h : s.Later t) (known : s.others ≠ none) : t.others ≠ none := by
  rcases h with rfl | rfl
  · exact known
  · simpa [settle] using known

theorem Later.may (h : s.Later t) (may : t.May x) : s.May x := by
  rcases h with rfl | rfl
  · exact may
  · exact may.of_settle

end Slot

/-- A directory; every name that has a file is listed. -/
structure Disk (ι β : Type) where
  slot : ι → Slot β
  names : List ι
  listed : ∀ n, (slot n).seen ≠ none → n ∈ names

namespace Disk

variable [DecidableEq ι] {d : Disk ι β} {n m : ι} {b : β} {x : Option β}

def empty : Disk ι β := ⟨fun _ => .empty,[],fun _ there => absurd rfl there⟩

def set (d : Disk ι β) (n : ι) (s : Slot β) : Disk ι β where
  slot := Function.update d.slot n s
  names := n :: d.names
  listed m there := by
    by_cases same : m = n
    · simp [same]
    · rw [Function.update_of_ne same] at there
      exact List.mem_cons_of_mem n (d.listed m there)

/-- The files of the directory. -/
def list (d : Disk ι β) : List ι := (d.names.filter fun n => (d.slot n).seen.isSome).dedup

/-- Opens a file for writing, which empties it, and writes it. -/
def write (d : Disk ι β) (n : ι) (b : β) : Disk ι β := d.set n ⟨some b,false,none⟩

def syncFile (d : Disk ι β) (n : ι) : Disk ι β := d.set n { d.slot n with synced := true }

def rename (d : Disk ι β) (n m : ι) : Disk ι β :=
  match (d.slot n).seen with
  | none => d
  | some b => (d.set m ((d.slot m).place b (d.slot n).synced)).set n ⟨none,true,none⟩

def remove (d : Disk ι β) (n : ι) : Disk ι β := d.set n (d.slot n).clear

def syncDirectory (d : Disk ι β) : Disk ι β where
  slot n := (d.slot n).settle
  names := d.names
  listed := d.listed

/-- What a power cut leaves. -/
def Left (d : Disk ι β) (found : ι → Option β) : Prop := ∀ n ∈ d.names, (d.slot n).May (found n)

instance [DecidableEq β] (d : Disk ι β) (found : ι → Option β) : Decidable (d.Left found) :=
  inferInstanceAs (Decidable (∀ n ∈ d.names, _))

def cut (d : Disk ι β) (found : ι → Option β) : Disk ι β where
  slot n := if n ∈ d.names then ⟨found n,true,some []⟩ else d.slot n
  names := d.names
  listed n there := by
    by_contra absent
    rw [if_neg absent] at there
    exact absent (d.listed n there)

@[simp] theorem slot_set : (d.set n s).slot m = if m = n then s else d.slot m := by
  simp [set,Function.update_apply]

theorem mem_list : n ∈ d.list ↔ (d.slot n).seen ≠ none := by
  simp only [list,List.mem_dedup,List.mem_filter,Option.isSome_iff_ne_none]
  exact ⟨And.right,fun there => ⟨d.listed n there,there⟩⟩

@[simp] theorem slot_write : (d.write n b).slot m = if m = n then ⟨some b,false,none⟩ else d.slot m := slot_set

@[simp] theorem slot_syncFile :
    (d.syncFile n).slot m = if m = n then { d.slot n with synced := true } else d.slot m := slot_set

theorem slot_rename (there : (d.slot n).seen = some b) : (d.rename n m).slot k =
    if k = n then ⟨none,true,none⟩ else if k = m then (d.slot m).place b (d.slot n).synced else d.slot k := by
  simp [rename,there]

@[simp] theorem slot_remove : (d.remove n).slot m = if m = n then (d.slot n).clear else d.slot m := slot_set

omit [DecidableEq ι] in
@[simp] theorem slot_syncDirectory : d.syncDirectory.slot n = (d.slot n).settle := rfl

/-- What a power cut leaves under a name, and what another would after it. -/
theorem cut_may {found : ι → Option β} (left : d.Left found) (may : ((d.cut found).slot n).May x) : (d.slot n).May x := by
  simp only [cut] at may
  split at may
  · rename_i there
    have same : x = found n := by simpa using may [] rfl
    rw [same]
    exact left n there
  · exact may

theorem cut_known {found : ι → Option β} (known : (d.slot n).others ≠ none) : ((d.cut found).slot n).others ≠ none := by
  simp only [cut]
  split
  · simp
  · exact known

end Disk

end Vnidrop.Disks
