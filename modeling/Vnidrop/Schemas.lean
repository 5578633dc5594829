import Mathlib.Data.List.Forall2
import Vnidrop.Paths
import Vnidrop.Resumption

/-! Databases whose tables change from one version of a program to the next: the statements that
create tables and indexes, add columns and fill them, and scripts of such statements that may be cut
off anywhere. -/
namespace Vnidrop.Schemas

open Paths (Str)
open Programs Resumption

inductive Cell where
  | null
  | int (n : Int)
  | text (s : Str)
  deriving DecidableEq, Repr

def Cell.asText : Cell → Option Str
  | .null => none
  | .int n => some (toString n).toList
  | .text s => some s

abbrev Row := String → Cell

/-- The expressions of a statement; `||` gives NULL where a side of it is NULL. -/
inductive Expr where
  | column (c : String)
  | int (n : Int)
  | text (s : String)
  | concat (a b : Expr)

namespace Expr

def reads : Expr → List String
  | .column c => [c]
  | .int _ | .text _ => []
  | .concat a b => a.reads ++ b.reads

def eval (r : Row) : Expr → Cell
  | .column c => r c
  | .int n => .int n
  | .text s => .text s.toList
  | .concat a b =>
    match (a.eval r).asText, (b.eval r).asText with
    | some x, some y => .text (x ++ y)
    | _, _ => .null

theorem eval_congr {e : Expr} {r r' : Row} (same : ∀ c ∈ e.reads, r c = r' c) : e.eval r = e.eval r' := by
  induction e with
  | column c => exact same c (by simp [reads])
  | int | text => rfl
  | concat a b first second =>
    simp only [reads,List.mem_append] at same
    rw [eval,eval,first fun c there => same c (.inl there),second fun c there => same c (.inr there)]

end Expr

/-- A column and what it is given. -/
abbrev Filling := String × Expr

/-- `SET c = COALESCE(c, e), …`. -/
def fillRow (fillings : List Filling) (r : Row) : Row := fun c =>
  match fillings.lookup c with
  | some e => if r c = .null then e.eval r else r c
  | none => r c

/-- The row that an INSERT makes of a row of its source. -/
def valuesRow (values : List Filling) (r : Row) : Row := fun c =>
  match values.lookup c with
  | some e => e.eval r
  | none => .null

theorem lookup_outside {fillings : List Filling} {columns : List String} {c : String}
    (named : ∀ f ∈ fillings, f.1 ∈ columns) (absent : c ∉ columns) : fillings.lookup c = none := by
  simp only [List.lookup_eq_none_iff,bne_iff_ne]
  rintro f there rfl
  exact absent (named f there)

/-- A primary key is in one row only. -/
def insertRow (key : String) (rows : List Row) (r : Row) : List Row :=
  if rows.any (· key = r key) then rows else rows ++ [r]

theorem mem_insertRow {key : String} {rows : List Row} {r x : Row} (there : x ∈ insertRow key rows r) : x ∈ rows ∨ x = r := by
  unfold insertRow at there
  split at there
  · exact .inl there
  · simpa using there

theorem mem_insertRows {key : String} {new old : List Row} {x : Row} (there : x ∈ new.foldl (insertRow key) old) :
    x ∈ old ∨ x ∈ new := by
  induction new generalizing old with
  | nil => exact .inl there
  | cons r new ih =>
    rcases ih there with first | later
    · exact (mem_insertRow first).imp_right fun same => List.mem_cons.mpr (.inl same)
    · exact .inr (List.mem_cons_of_mem r later)

structure Table where
  columns : List String
  rows : List Row
  blank : ∀ r ∈ rows, ∀ c, c ∉ columns → r c = .null

structure Index where
  name : String
  table : String
  columns : List String
  /-- The index is unique, among the rows that meet its condition. -/
  unique : Option (Row → Bool)

/-- The rows do not violate the index; NULL differs from itself. -/
def Index.Holds (i : Index) (rows : List Row) : Prop := ∀ meets ∈ i.unique,
  ((rows.filter fun r => meets r && i.columns.all fun c => r c ≠ .null).map fun r => i.columns.map r).Nodup

instance (i : Index) (rows : List Row) : Decidable (i.Holds rows) :=
  match h : i.unique with
  | none => .isTrue fun meets there => by rw [h] at there; cases there
  | some meets => decidable_of_iff
      ((rows.filter fun r => meets r && i.columns.all fun c => r c ≠ .null).map fun r => i.columns.map r).Nodup
      (by simp [Index.Holds,h])

structure Database where
  tables : String → Option Table
  indexes : List Index
  version : Int

namespace Table

variable {t : Table}

def empty (columns : List String) : Table := ⟨columns,[],fun _ there => nomatch there⟩

def add (t : Table) (c : String) (v : Cell) : Table where
  columns := t.columns ++ [c]
  rows := t.rows.map fun r => Function.update r c v
  blank r there d absent := by
    obtain ⟨r,listed,rfl⟩ := List.mem_map.mp there
    simp only [List.mem_append,List.mem_singleton,not_or] at absent
    rw [Function.update_of_ne absent.2]
    exact t.blank r listed d absent.1

def fill (t : Table) (fillings : List Filling) (named : ∀ f ∈ fillings, f.1 ∈ t.columns) : Table where
  columns := t.columns
  rows := t.rows.map (fillRow fillings)
  blank r there c absent := by
    obtain ⟨r,listed,rfl⟩ := List.mem_map.mp there
    simp only [fillRow,lookup_outside named absent]
    exact t.blank r listed c absent

/-- INSERT OR IGNORE under a primary key. -/
def insertAll (t : Table) (key : String) (values : List Filling) (named : ∀ f ∈ values, f.1 ∈ t.columns)
    (source : List Row) : Table where
  columns := t.columns
  rows := (source.map (valuesRow values)).foldl (insertRow key) t.rows
  blank r there c absent := by
    rcases mem_insertRows there with old | new
    · exact t.blank r old c absent
    · obtain ⟨x,-,rfl⟩ := List.mem_map.mp new
      simp only [valuesRow,lookup_outside named absent]

end Table

/-! Statements. -/

inductive Statement where
  /-- CREATE TABLE IF NOT EXISTS -/
  | createTable (table : String) (columns : List String)
  /-- DROP TABLE IF EXISTS -/
  | dropTable (table : String)
  | addColumn (table column : String) (value : Cell)
  /-- UPDATE of the rows in which one of the columns is NULL -/
  | fill (table : String) (fillings : List Filling)
  /-- CREATE INDEX IF NOT EXISTS -/
  | createIndex (index : Index)
  | userVersion (n : Int)
  /-- INSERT OR IGNORE, of the rows of the source that meet a condition on the columns -/
  | insertFrom (table key : String) (values : List Filling) (source : String) (reads : List String) (meets : Row → Bool)

namespace Database

def put (s : Database) (name : String) (t : Table) : Database := { s with tables := Function.update s.tables name (some t) }

def columns (s : Database) (name : String) : List String := ((s.tables name).map (·.columns)).getD []

/-- What a statement makes of the database, if it does not fail. -/
def exec (s : Database) : Statement → Option Database
  | .createTable name columns => if (s.tables name).isSome then some s else some (s.put name (.empty columns))
  | .dropTable name =>
    if (s.tables name).isSome then
      some { s with tables := Function.update s.tables name none, indexes := s.indexes.filter (·.table ≠ name) }
    else some s
  | .addColumn name c v =>
    match s.tables name with
    | none => none
    | some t => if c ∈ t.columns then none else some (s.put name (t.add c v))
  | .fill name fillings =>
    match s.tables name with
    | none => none
    | some t =>
      if named : ∀ f ∈ fillings, f.1 ∈ t.columns then
        if ∀ f ∈ fillings, ∀ c ∈ f.2.reads, c ∈ t.columns then
          if ∀ r ∈ t.rows, ∀ f ∈ fillings, fillRow fillings r f.1 = r f.1 then some s
          else if ∀ i ∈ s.indexes, i.table = name → i.Holds (t.fill fillings named).rows then
            some (s.put name (t.fill fillings named))
          else none
        else none
      else none
  | .createIndex i =>
    if s.indexes.any (·.name = i.name) then some s
    else
      match s.tables i.table with
      | none => none
      | some t =>
        if (∀ c ∈ i.columns, c ∈ t.columns) ∧ i.Holds t.rows then some { s with indexes := i :: s.indexes } else none
  | .userVersion n => some { s with version := n }
  | .insertFrom name key values source reads meets =>
    match s.tables name, s.tables source with
    | some t, some origin =>
      if named : ∀ f ∈ values, f.1 ∈ t.columns then
        if ∀ c ∈ reads ++ values.flatMap (·.2.reads), c ∈ origin.columns then
          some (s.put name (t.insertAll key values named (origin.rows.filter meets)))
        else none
      else none
    | _, _ => none

/-- The row that says when a transaction was done. -/
def mark (s : Database) (ledger key name stamp : String) (now : Int) : Option Database :=
  match s.tables ledger with
  | none => none
  | some t =>
    if named : ∀ f ∈ [(key,Expr.text name),(stamp,Expr.int now)], f.1 ∈ t.columns then
      if t.rows.any (· key = .text name.toList) then none
      else some (s.put ledger (t.insertAll key _ named [fun _ => .null]))
    else none

/-- A transaction that is skipped if the ledger has its name. -/
def once (s : Database) (ledger key name stamp : String) (statements : List Statement) (now : Int) : Option Database :=
  match s.tables ledger with
  | none => none
  | some t =>
    if key ∈ t.columns then
      if t.rows.any (· key = .text name.toList) then some s
      else do
        let u ← statements.foldlM exec s
        u.mark ledger key name stamp now
    else none

end Database

inductive Op where
  | execute (statement : Statement)
  | tableInfo (table : String)
  | once (ledger key name stamp : String) (statements : List Statement)

inductive Failure where
  | operation
  | statement
  deriving DecidableEq, Repr

abbrev Ans : Op → Type
  | .execute _ | .once .. => Except Failure Unit
  | .tableInfo _ => Except Failure (List String)

/-- Whether an operation fails of itself, and takes effect all the same; the clock. -/
structure Choice where
  fails : Bool
  effect : Bool
  now : Int
  deriving DecidableEq

/-- A statement takes effect as a whole or not at all. -/
def settle (s : Database) (c : Choice) : Option Database → Except Failure Unit × Database
  | none => (.error .statement,s)
  | some t => if c.fails then (.error .operation,if c.effect then t else s) else (.ok (),t)

def exec (s : Database) (c : Choice) : (o : Op) → Option (Ans o × Database)
  | .execute statement => some (settle s c (s.exec statement))
  | .tableInfo table => some (if c.fails then .error .operation else .ok (s.columns table),s)
  | .once ledger key name stamp statements => some (settle s c (s.once ledger key name stamp statements c.now))

/-! Scripts. -/

/-- A part of a script that can be repeated: a statement, the columns that a table is to have, or a
transaction that is done once. -/
inductive Part where
  | statement (st : Statement)
  | columns (table : String) (adds : List (String × Cell))
  | once (ledger key name stamp : String) (statements : List Statement)

abbrev Task (α : Type) := Prog Op Ans α

def op (o : Op) : Task (Ans o) := Prog.perform o

/-- ALTER TABLE for the columns that were not there when the table was looked at. -/
def addMissing (table : String) (present : List String) : List (String × Cell) → Task (Except Failure Unit)
  | [] => return .ok ()
  | (c,v) :: adds =>
    Prog.andThen (if c ∈ present then return .ok () else op (.execute (.addColumn table c v))) fun _ =>
    addMissing table present adds

def Part.work : Part → Task (Except Failure Unit)
  | .statement st => op (.execute st)
  | .columns table adds => Prog.andThen (op (.tableInfo table)) fun present => addMissing table present adds
  | .once ledger key name stamp statements => op (.once ledger key name stamp statements)

def script (parts : List Part) : Task (Except Failure Unit) := sequence (parts.map Part.work)

end Vnidrop.Schemas
