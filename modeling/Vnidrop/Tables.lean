import Mathlib.Data.List.Nodup

/-! Tables with a primary key, and the statements an SQL program runs on them.
The key constraint is part of the table, so no statement can build a table with
two rows of one key. -/
namespace Vnidrop.Tables

structure Table {ρ κ : Type} (key : ρ → κ) where
  rows : List ρ
  unique : (rows.map key).Nodup

variable {ρ κ : Type} {key : ρ → κ}

namespace Table

instance [DecidableEq ρ] : DecidableEq (Table key) := fun t u =>
  decidable_of_iff (t.rows = u.rows) ⟨fun h => by cases t; cases u; cases h; rfl,fun h => by rw [h]⟩

theorem ext_rows {t u : Table key} (h : t.rows = u.rows) : t = u := by
  cases t; cases u; cases h; rfl

def empty : Table key := ⟨[],List.nodup_nil⟩

/-- `UPDATE … SET … WHERE p`, for assignments that leave the key alone. -/
def updateWhere (t : Table key) (p : ρ → Bool) (f : ρ → ρ)
    (keeps : ∀ r, key (f r) = key r := by intro r; rfl) : Table key :=
  ⟨t.rows.map fun r => if p r then f r else r,by
    have same : (t.rows.map fun r => if p r then f r else r).map key = t.rows.map key := by
      rw [List.map_map]
      apply List.map_congr_left
      intro r _
      simp only [Function.comp]
      split
      · exact keeps r
      · rfl
    rw [same]
    exact t.unique⟩

/-- Whether a statement restricted to `p` touches a row. -/
def affects (t : Table key) (p : ρ → Bool) : Bool := t.rows.any p

theorem updateWhere_eq_self {t : Table key} {p : ρ → Bool} {f : ρ → ρ}
    {keeps : ∀ r, key (f r) = key r} (h : t.affects p = false) : t.updateWhere p f keeps = t := by
  apply ext_rows
  show (t.rows.map fun r => if p r then f r else r) = t.rows
  conv_rhs => rw [← List.map_id t.rows]
  apply List.map_congr_left
  intro r member
  have misses : p r = false := by simpa using List.any_eq_false.mp h r member
  simp [misses]

variable [DecidableEq κ]

/-- `SELECT … WHERE key = k`. -/
def find (t : Table key) (k : κ) : Option ρ := t.rows.find? fun r => key r = k

/-- `DELETE … WHERE p`. -/
def deleteWhere (t : Table key) (p : ρ → Bool) : Table key :=
  ⟨t.rows.filter fun r => !p r,t.unique.sublist (List.filter_sublist.map key)⟩

/-- `DELETE … WHERE key = k`. -/
def delete (t : Table key) (k : κ) : Table key := t.deleteWhere fun r => key r = k

/-- `INSERT`, which fails on a key that is present. -/
def insert (t : Table key) (r : ρ) : Option (Table key) :=
  if present : key r ∈ t.rows.map key then none
  else some ⟨t.rows ++ [r],by
    rw [List.map_append,List.map_singleton]
    exact List.nodup_append.mpr ⟨t.unique,List.nodup_singleton _,by
      intro a ha b hb eq
      rw [List.mem_singleton] at hb
      exact present (hb ▸ eq ▸ ha)⟩⟩

/-- `INSERT OR IGNORE`. -/
def insertOrIgnore (t : Table key) (r : ρ) : Table key := (t.insert r).getD t

/-- `INSERT … ON CONFLICT (key) DO UPDATE`, with what becomes of a row that is present. -/
def upsert (t : Table key) (r : ρ) (merge : ρ → ρ)
    (keeps : ∀ r', key (merge r') = key r' := by intro r; rfl) : Table key :=
  (t.insert r).getD (t.updateWhere (fun r' => key r' = key r) merge keeps)

private theorem find?_map_key (f : ρ → ρ) (keeps : ∀ r, key (f r) = key r) (l : List ρ) (k : κ) :
    (l.map f).find? (fun r => key r = k) = (l.find? fun r => key r = k).map f := by
  induction l with
  | nil => rfl
  | cons r l ih => by_cases here : key r = k <;> simp [keeps,here,ih]

theorem find_key {t : Table key} {k : κ} {r : ρ} (h : t.find k = some r) : key r = k := by
  simpa using List.find?_some h

theorem find_mem {t : Table key} {k : κ} {r : ρ} (h : t.find k = some r) : r ∈ t.rows :=
  List.mem_of_find?_eq_some h

theorem find_eq_none {t : Table key} {k : κ} : t.find k = none ↔ ∀ r ∈ t.rows, key r ≠ k := by
  simp [find]

/-- A row is found under its own key: no other row has it. -/
theorem find_of_mem {t : Table key} {r : ρ} (h : r ∈ t.rows) : t.find (key r) = some r := by
  obtain ⟨found,there⟩ : ∃ r', t.find (key r) = some r' := by
    rw [← Option.isSome_iff_exists,Option.isSome_iff_ne_none,ne_eq,find_eq_none]
    exact fun none => none r h rfl
  rw [there]
  exact congrArg some (List.inj_on_of_nodup_map t.unique (find_mem there) h (find_key there))

@[simp] theorem find_empty (k : κ) : (empty : Table key).find k = none := rfl

theorem find_updateWhere (t : Table key) (p : ρ → Bool) (f : ρ → ρ)
    (keeps : ∀ r, key (f r) = key r) (k : κ) :
    (t.updateWhere p f keeps).find k = (t.find k).map fun r => if p r then f r else r := by
  apply find?_map_key
  intro r
  split
  · exact keeps r
  · rfl

/-- A statement restricted to one key acts on the row it finds there. -/
theorem find_updateKey (t : Table key) (k : κ) (q : ρ → Bool) (f : ρ → ρ)
    (keeps : ∀ r, key (f r) = key r) (k' : κ) :
    (t.updateWhere (fun r => key r = k && q r) f keeps).find k' =
      if k' = k then (t.find k).map fun r => if q r then f r else r else t.find k' := by
  rw [find_updateWhere]
  cases found : t.find k' with
  | none => split <;> simp_all
  | some r =>
    have keyed := find_key found
    split
    · rename_i same
      rw [← same,found]
      simp [keyed,same]
    · rename_i different
      simp [keyed,different]

theorem find_deleteWhere (t : Table key) (p : ρ → Bool) (k : κ) :
    (t.deleteWhere p).find k = (t.find k).filter fun r => !p r := by
  cases found : t.find k with
  | none =>
    rw [Option.filter_none,find_eq_none]
    exact fun r member => find_eq_none.mp found r (List.mem_of_mem_filter member)
  | some r =>
    have member := find_mem found
    have keyed := find_key found
    by_cases gone : p r = true
    · rw [Option.filter_some_neg (by simpa using gone),find_eq_none]
      intro r' member' keyed'
      obtain ⟨old,kept⟩ := List.mem_filter.mp member'
      have same := (find_of_mem old).symm.trans (keyed' ▸ found)
      rw [Option.some.inj same] at kept
      simp [gone] at kept
    · have stays : r ∈ (t.deleteWhere p).rows := List.mem_filter.mpr ⟨member,by simpa using gone⟩
      rw [Option.filter_some_pos (by simpa using gone),← keyed]
      exact find_of_mem stays

theorem find_delete (t : Table key) (k k' : κ) :
    (t.delete k).find k' = if k' = k then none else t.find k' := by
  rw [delete,find_deleteWhere]
  cases found : t.find k' with
  | none => simp
  | some r =>
    have keyed := find_key found
    split
    · rename_i same
      exact Option.filter_some_neg (by simp [keyed,same])
    · rename_i different
      exact Option.filter_some_pos (by simp [keyed,different])

@[simp] theorem find_delete_self (t : Table key) (k : κ) : (t.delete k).find k = none := by
  simp [find_delete]

theorem find_delete_other (t : Table key) {k k' : κ} (h : k' ≠ k) :
    (t.delete k).find k' = t.find k' := by
  simp [find_delete,h]

/-- Deleting an absent key leaves the table as it is, and only then. -/
theorem delete_eq_self {t : Table key} {k : κ} : t.delete k = t ↔ t.find k = none := by
  constructor
  · intro same
    rw [← same]
    exact find_delete_self t k
  · intro none
    apply ext_rows
    show t.rows.filter _ = t.rows
    rw [List.filter_eq_self]
    intro r member
    simpa using find_eq_none.mp none r member

/-- A statement restricted to one key touches at most the row it finds there. -/
theorem affects_key {t : Table key} {k : κ} {q : ρ → Bool} :
    t.affects (fun r => key r = k && q r) = (t.find k).any q := by
  rw [Bool.eq_iff_iff]
  constructor
  · intro h
    obtain ⟨r,member,both⟩ := List.any_eq_true.mp h
    rw [Bool.and_eq_true,decide_eq_true_eq] at both
    rw [← both.1,find_of_mem member]
    exact both.2
  · intro h
    cases found : t.find k with
    | none => simp [found] at h
    | some r =>
      rw [found,Option.any_some] at h
      exact List.any_eq_true.mpr ⟨r,find_mem found,by simp [find_key found,h]⟩

theorem find_insert {t u : Table key} {r : ρ} (h : t.insert r = some u) (k : κ) :
    u.find k = if k = key r then some r else t.find k := by
  unfold insert at h
  split at h
  · cases h
  · rename_i absent
    cases h
    show (t.rows ++ [r]).find? _ = _
    rw [List.find?_append]
    by_cases same : k = key r
    · subst same
      have fresh : t.rows.find? (fun r' => key r' = key r) = none := by
        simp only [List.find?_eq_none,decide_eq_true_eq]
        exact fun r' member eq => absent (List.mem_map.mpr ⟨r',member,eq⟩)
      simp [fresh]
    · have other : key r ≠ k := fun eq => same eq.symm
      simp [find,same,other]

/-- An insertion succeeds exactly on a key that is absent. -/
theorem insert_isSome {t : Table key} {r : ρ} : (t.insert r).isSome ↔ t.find (key r) = none := by
  unfold insert
  split
  · rename_i present
    obtain ⟨r',member,eq⟩ := List.mem_map.mp present
    simp only [Option.isSome_none,Bool.false_eq_true,false_iff]
    exact fun none => find_eq_none.mp none r' member eq
  · rename_i absent
    simp only [Option.isSome_some,true_iff,find_eq_none]
    exact fun r' member eq => absent (List.mem_map.mpr ⟨r',member,eq⟩)

theorem find_upsert (t : Table key) (r : ρ) (merge : ρ → ρ) (keeps : ∀ r', key (merge r') = key r')
    (k : κ) : (t.upsert r merge keeps).find k =
      if k = key r then some ((t.find k).elim r merge) else t.find k := by
  unfold upsert
  cases inserted : t.insert r with
  | some u =>
    have fresh : t.find (key r) = none := insert_isSome.mp (by simp [inserted])
    rw [Option.getD_some,find_insert inserted]
    split
    · rename_i same
      rw [same,fresh,Option.elim_none]
    · rfl
  | none =>
    have present : t.find (key r) ≠ none := fun absent => by
      have := insert_isSome.mpr absent
      simp [inserted] at this
    rw [Option.getD_none,find_updateWhere]
    split
    · rename_i same
      obtain ⟨r',found⟩ := Option.ne_none_iff_exists'.mp present
      rw [same,found]
      simp [find_key found]
    · rename_i different
      cases found : t.find k with
      | none => rfl
      | some r' =>
        have other : key r' ≠ key r := fun same => different ((find_key found).symm.trans same)
        simp [other]

theorem find_insertOrIgnore (t : Table key) (r : ρ) (k : κ) :
    (t.insertOrIgnore r).find k =
      if k = key r then some ((t.find k).getD r) else t.find k := by
  unfold insertOrIgnore
  cases inserted : t.insert r with
  | some u =>
    have fresh : t.find (key r) = none := insert_isSome.mp (by simp [inserted])
    rw [Option.getD_some,find_insert inserted]
    split
    · rename_i same
      rw [same,fresh,Option.getD_none]
    · rfl
  | none =>
    have present : t.find (key r) ≠ none := fun none => by
      have := insert_isSome.mpr none
      simp [inserted] at this
    rw [Option.getD_none]
    split
    · rename_i same
      obtain ⟨r',found⟩ := Option.ne_none_iff_exists'.mp present
      simp [same,found]
    · rfl

end Table

end Vnidrop.Tables
