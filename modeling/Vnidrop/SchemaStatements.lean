import Vnidrop.Schemas

/-! What a statement does to a database, and what it keeps. -/
namespace Vnidrop.Schemas

open Paths (Str)
open Programs Resumption

/-! What is kept. -/

/-- The columns and rows of a table are still there, in their order; no value of them is another,
apart from NULL in the columns that may be filled; and rows are added only where that is allowed. -/
structure Table.Extends (fills : String → Prop) (grows : Prop) (a b : Table) : Prop where
  columns : a.columns <+: b.columns
  rows : ∀ (n : Nat) r, a.rows[n]? = some r → ∃ r', b.rows[n]? = some r' ∧ ∀ c ∈ a.columns, r' c = r c ∨ fills c ∧ r c = .null
  grows : b.rows.length ≤ a.rows.length ∨ grows

/-- The tables that may go, the columns that may be filled, and the tables that may get rows. -/
structure Licence where
  drops : List String
  fills : List (String × String)
  grows : List String

structure Licence.Le (l m : Licence) : Prop where
  drops : l.drops ⊆ m.drops
  fills : l.fills ⊆ m.fills
  grows : l.grows ⊆ m.grows

instance (l m : Licence) : Decidable (l.Le m) :=
  decidable_of_iff (l.drops ⊆ m.drops ∧ l.fills ⊆ m.fills ∧ l.grows ⊆ m.grows)
    ⟨fun h => ⟨h.1,h.2.1,h.2.2⟩,fun h => ⟨h.drops,h.fills,h.grows⟩⟩

def Within (l : Licence) (s t : Database) : Prop := ∀ name a, name ∉ l.drops → s.tables name = some a →
  ∃ b, t.tables name = some b ∧ a.Extends (fun c => (name,c) ∈ l.fills) (name ∈ l.grows) b

def Statement.licence : Statement → Licence
  | .dropTable name => ⟨[name],[],[]⟩
  | .fill name fillings => ⟨[],fillings.map fun f => (name,f.1),[]⟩
  | .insertFrom name .. => ⟨[],[],[name]⟩
  | .createTable .. | .addColumn .. | .createIndex _ | .userVersion _ => ⟨[],[],[]⟩

section Kept

variable {fills fills' : String → Prop} {grows grows' : Prop} {a b d : Table} {l m : Licence} {s t u : Database}

theorem Table.Extends.refl (a : Table) : a.Extends fills grows a where
  columns := List.prefix_rfl
  rows _ r there := ⟨r,there,fun _ _ => .inl rfl⟩
  grows := .inl (Nat.le_refl _)

theorem Table.Extends.trans (first : a.Extends fills grows b) (second : b.Extends fills grows d) : a.Extends fills grows d where
  columns := first.columns.trans second.columns
  rows n r there := by
    obtain ⟨r',there',same⟩ := first.rows n r there
    obtain ⟨r'',there'',same'⟩ := second.rows n r' there'
    refine ⟨r'',there'',fun c known => ?_⟩
    rcases same' c (first.columns.subset known) with old | ⟨fill,null⟩
    · rw [old]
      exact same c known
    · rcases same c known with old | filled
      · exact .inr ⟨fill,old ▸ null⟩
      · exact .inr filled
  grows := by
    rcases first.grows, second.grows with ⟨one | grows,two | grows⟩
    · exact .inl (Nat.le_trans two one)
    all_goals exact .inr grows

theorem Table.Extends.mono (extends' : a.Extends fills grows b) (more : ∀ c, fills c → fills' c) (most : grows → grows') :
    a.Extends fills' grows' b where
  columns := extends'.columns
  rows n r there := by
    obtain ⟨r',there',same⟩ := extends'.rows n r there
    exact ⟨r',there',fun c known => (same c known).imp_right fun filled => ⟨more c filled.1,filled.2⟩⟩
  grows := extends'.grows.imp_right most

theorem Within.refl (l : Licence) (s : Database) : Within l s s := fun _ a _ there => ⟨a,there,.refl a⟩

theorem Within.trans (first : Within l s t) (second : Within l t u) : Within l s u := by
  intro name a kept there
  obtain ⟨b,here,extends'⟩ := first name a kept there
  obtain ⟨d,now,further⟩ := second name b kept here
  exact ⟨d,now,extends'.trans further⟩

theorem Within.mono (within : Within l s t) (le : l.Le m) : Within m s t := by
  intro name a kept there
  obtain ⟨b,here,extends'⟩ := within name a (fun listed => kept (le.drops listed)) there
  exact ⟨b,here,extends'.mono (fun c fill => le.fills fill) fun grows => le.grows grows⟩

theorem within_put {name : String} (there : s.tables name = some a)
    (extends' : a.Extends (fun c => (name,c) ∈ l.fills) (name ∈ l.grows) b) : Within l s (s.put name b) := by
  intro other d _ here
  by_cases same : other = name
  · subst same
    obtain rfl := Option.some.inj (there.symm.trans here)
    exact ⟨b,Function.update_self ..,extends'⟩
  · exact ⟨d,by rw [← here]; exact Function.update_of_ne same ..,.refl d⟩

theorem prefix_insertRows (key : String) (new old : List Row) : old <+: new.foldl (insertRow key) old := by
  induction new generalizing old with
  | nil => exact List.prefix_rfl
  | cons r new ih =>
    refine List.IsPrefix.trans ?_ (ih _)
    unfold insertRow
    split
    · exact List.prefix_rfl
    · exact List.prefix_append ..

theorem extends_add {c : String} {v : Cell} (absent : c ∉ a.columns) : a.Extends fills grows (a.add c v) where
  columns := List.prefix_append ..
  rows n r there := by
    refine ⟨Function.update r c v,by simp [Table.add,there],fun d known => .inl (Function.update_of_ne ?_ ..)⟩
    rintro rfl
    exact absent known
  grows := .inl (by simp [Table.add])

theorem extends_fill {fillings : List Filling} (named : ∀ f ∈ fillings, f.1 ∈ a.columns)
    (may : ∀ f ∈ fillings, fills f.1) : a.Extends fills grows (a.fill fillings named) where
  columns := List.prefix_rfl
  rows n r there := by
    refine ⟨fillRow fillings r,by simp [Table.fill,there],fun c _ => ?_⟩
    unfold fillRow
    split
    · rename_i e found
      split
      · rename_i null
        obtain ⟨_,_,whole,-⟩ := List.lookup_eq_some_iff.mp found
        exact .inr ⟨may (c,e) (by simp [whole]),null⟩
      · exact .inl rfl
    · exact .inl rfl
  grows := .inl (by simp [Table.fill])

theorem extends_insertAll {key : String} {values : List Filling} {named : ∀ f ∈ values, f.1 ∈ a.columns} {source : List Row}
    (may : grows) : a.Extends fills grows (a.insertAll key values named source) where
  columns := List.prefix_rfl
  rows n r there := by
    obtain ⟨added,whole⟩ := prefix_insertRows key (source.map (valuesRow values)) a.rows
    obtain ⟨short,-⟩ := List.getElem?_eq_some_iff.mp there
    refine ⟨r,?_,fun _ _ => .inl rfl⟩
    dsimp only [Table.insertAll]
    rw [← whole,List.getElem?_append_left short,there]
  grows := .inr may

/-- All that a statement can do. -/
inductive Effect (s : Database) : Statement → Database → Prop where
  | none (st : Statement) : Effect s st s
  | create {name columns} (absent : s.tables name = none) : Effect s (.createTable name columns) (s.put name (.empty columns))
  | drop (name : String) : Effect s (.dropTable name)
      { s with tables := Function.update s.tables name none, indexes := s.indexes.filter (·.table ≠ name) }
  | add {name c v} (a : Table) (there : s.tables name = some a) (absent : c ∉ a.columns) :
      Effect s (.addColumn name c v) (s.put name (a.add c v))
  | fill {name fillings} (a : Table) (there : s.tables name = some a) (named : ∀ f ∈ fillings, f.1 ∈ a.columns) :
      Effect s (.fill name fillings) (s.put name (a.fill fillings named))
  | index {i} : Effect s (.createIndex i) { s with indexes := i :: s.indexes }
  | version {n} : Effect s (.userVersion n) { s with version := n }
  | insert {name key values source reads meets} (a : Table) (there : s.tables name = some a)
      (named : ∀ f ∈ values, f.1 ∈ a.columns) (rows : List Row) :
      Effect s (.insertFrom name key values source reads meets) (s.put name (a.insertAll key values named rows))

theorem exec_effect {st : Statement} (h : s.exec st = some t) : Effect s st t := by
  cases st with
  | createTable name columns =>
    simp only [Database.exec] at h
    split at h <;> cases h
    · exact .none _
    · rename_i absent
      exact .create (by simpa using absent)
  | dropTable name =>
    simp only [Database.exec] at h
    split at h <;> cases h
    · exact .drop name
    · exact .none _
  | addColumn name c v =>
    simp only [Database.exec] at h
    split at h
    · cases h
    · rename_i a there
      split at h <;> cases h
      rename_i absent
      exact .add a there absent
  | fill name fillings =>
    simp only [Database.exec] at h
    split at h
    · cases h
    · rename_i a there
      split at h
      · rename_i named
        split at h
        · split at h
          · cases h
            exact .none _
          · split at h <;> cases h
            exact .fill a there named
        · cases h
      · cases h
  | createIndex i =>
    simp only [Database.exec] at h
    split at h
    · cases h
      exact .none _
    · split at h
      · cases h
      · split at h <;> cases h
        exact .index
  | userVersion n =>
    cases h
    exact .version
  | insertFrom name key values source reads meets =>
    simp only [Database.exec] at h
    split at h
    · rename_i a origin there _
      split at h
      · split at h <;> cases h
        exact .insert a there _ _
      · cases h
    · cases h

/-- A statement keeps what it has no licence to change. -/
theorem exec_within {st : Statement} (h : s.exec st = some t) : Within st.licence s t := by
  cases exec_effect h with
  | none => exact .refl _ s
  | create absent =>
    intro other d _ here
    refine ⟨d,?_,.refl d⟩
    rw [← here]
    refine Function.update_of_ne ?_ ..
    rintro rfl
    simp [absent] at here
  | drop dropped =>
    intro other d kept here
    have different : other ≠ dropped := by simpa [Statement.licence] using kept
    exact ⟨d,by rw [← here]; exact Function.update_of_ne different ..,.refl d⟩
  | add a there absent => exact within_put there (extends_add absent)
  | fill a there named => exact within_put there (extends_fill named fun f listed => List.mem_map.mpr ⟨f,listed,rfl⟩)
  | index | version => exact fun name a _ there => ⟨a,there,.refl a⟩
  | insert a there named rows => exact within_put there (extends_insertAll (List.mem_singleton_self _))

/-- The table that a statement changes if it is there. -/
def Statement.changes : Statement → Option String
  | .dropTable name | .addColumn name .. | .fill name _ | .insertFrom name .. => some name
  | .createTable .. | .createIndex _ | .userVersion _ => Option.none

/-- The table that a statement makes if it is not there. -/
def Statement.creates : Statement → Option String
  | .createTable name _ => some name
  | _ => Option.none

def Statement.sets : Statement → Option Int
  | .userVersion n => some n
  | _ => Option.none

theorem exec_unchanged {st : Statement} {name : String} (h : s.exec st = some t) (other : st.changes ≠ some name)
    (there : s.tables name = some a) : t.tables name = some a := by
  cases exec_effect h with
  | none => exact there
  | index | version => exact there
  | create absent =>
    rw [← there]
    refine Function.update_of_ne ?_ ..
    rintro rfl
    simp [absent] at there
  | drop | add | fill | insert =>
    rw [← there]
    exact Function.update_of_ne (fun same => other (by rw [same]; rfl)) ..

theorem exec_absent {st : Statement} {name : String} (h : s.exec st = some t)
    (other : ∀ columns, st ≠ .createTable name columns) (absent : s.tables name = Option.none) : t.tables name = Option.none := by
  cases exec_effect h with
  | none | index | version => exact absent
  | create =>
    rw [← absent]
    refine Function.update_of_ne ?_ ..
    rintro rfl
    exact other _ rfl
  | drop dropped =>
    by_cases same : name = dropped
    · rw [same]
      exact Function.update_self ..
    · rw [← absent]
      exact Function.update_of_ne same ..
  | add a there | fill a there | insert a there =>
    rw [← absent]
    refine Function.update_of_ne ?_ ..
    rintro rfl
    simp [absent] at there

theorem exec_indexes {st : Statement} {i : Index} (h : s.exec st = some t) (kept : ∀ name, st ≠ .dropTable name)
    (listed : i ∈ s.indexes) : i ∈ t.indexes := by
  cases exec_effect h with
  | drop => exact absurd rfl (kept _)
  | index => exact List.mem_cons_of_mem _ listed
  | none | create | add | fill | version | insert => exact listed

theorem exec_version {st : Statement} (h : s.exec st = some t) (other : ∀ n, st ≠ .userVersion n) : t.version = s.version := by
  cases exec_effect h with
  | version => exact absurd rfl (other _)
  | none | create | drop | add | fill | index | insert => rfl

theorem foldlM_within {statements : List Statement} (all : ∀ st ∈ statements, st.licence.Le l)
    (h : statements.foldlM Database.exec s = some t) : Within l s t := by
  induction statements generalizing s with
  | nil =>
    cases h
    exact .refl l _
  | cons st statements ih =>
    rw [List.foldlM_cons] at h
    obtain ⟨u,first,rest⟩ := Option.bind_eq_some_iff.mp h
    exact ((exec_within first).mono (all st List.mem_cons_self)).trans
      (ih (fun st' there => all st' (List.mem_cons_of_mem st there)) rest)

/-- What a transaction that is done once makes of the database. -/
theorem once_cases {ledger key name stamp : String} {statements : List Statement} {now : Int}
    (h : s.once ledger key name stamp statements now = some t) :
    (t = s ∧ ∃ a, s.tables ledger = some a ∧ key ∈ a.columns ∧ ∃ r ∈ a.rows, r key = .text name.toList) ∨
    ∃ u a named, statements.foldlM Database.exec s = some u ∧ u.tables ledger = some a ∧
      t = u.put ledger (a.insertAll key [(key,Expr.text name),(stamp,Expr.int now)] named [fun _ => .null]) := by
  simp only [Database.once] at h
  split at h
  · cases h
  · rename_i a there
    split at h
    · rename_i known
      split at h
      · rename_i marked
        cases h
        exact .inl ⟨rfl,a,there,known,by simpa using marked⟩
      · obtain ⟨u,ran,marked⟩ := Option.bind_eq_some_iff.mp h
        simp only [Database.mark] at marked
        split at marked
        · cases marked
        · rename_i b here
          split at marked
          · rename_i named
            split at marked <;> cases marked
            exact .inr ⟨u,b,named,ran,here,rfl⟩
          · cases marked
    · cases h

theorem once_within {ledger key name stamp : String} {statements : List Statement} {now : Int} (there : ledger ∈ l.grows)
    (all : ∀ st ∈ statements, st.licence.Le l) (h : s.once ledger key name stamp statements now = some t) : Within l s t := by
  rcases once_cases h with ⟨rfl,-⟩ | ⟨u,a,named,ran,here,rfl⟩
  · exact .refl l _
  · exact (foldlM_within all ran).trans (within_put here (extends_insertAll there))

end Kept

end Vnidrop.Schemas
