import Docbase.Engine
import Docbase.Proofs.Collection.Listing
import Docbase.Value.Contents

/-!
# Tables that a database lists

A database is asked for the tables whose names match a pattern, in one schema or in all, and answers
with the rows of its catalog that do.

* `Search`: such a question, as a command asks it.
* `Inventory`: what the states of an engine say about tables.
* `Engine.Lists`: what a store relies on.
* `Directory`: an engine in memory that lists its tables.
-/

namespace Docbase

open Sql

/-- A question for tables, by name and maybe by schema. -/
structure Search where
  pattern : String
  schema : Option String

namespace Search

/-- The question in SQL. -/
def text (schema : Bool) : String :=
  "SELECT table_schema, table_name FROM information_schema.tables WHERE table_name LIKE %(pattern)s"
    ++ if schema then " AND table_schema = %(schema)s" else ""

/-- The question that a command asks. -/
def ofCommand? (command : Command) : Option Search := do
  let params ← command.params
  let .str pattern ← params.get? "pattern" | none
  if command.text = text false then some ⟨pattern, none⟩
  else if command.text = text true then
    let .str schema ← params.get? "schema" | none
    some ⟨pattern, some schema⟩
  else none

/-- The table is one that is asked for. -/
def finds (q : Search) (t : Table) : Bool :=
  like q.pattern t.name && q.schema.all (· == t.schema)

end Search

/-- The row tells the table. -/
structure Table.Told (t : Table) (row : Value) : Prop where
  schema : row.member "table_schema" = .ok (.str t.schema)
  name : row.member "table_name" = .ok (.str t.name)

/-- What the states of an engine say about tables. -/
structure Inventory (σ : Type) where
  /-- The tables, in the order of their rows. -/
  tables : σ → List Table
  /-- The cursor can be used. -/
  opened : CursorId → σ → Prop

/-- The tables that a cursor finds. -/
structure Inventory.At {σ : Type} (inventory : Inventory σ) (tables : List Table) (c : CursorId)
    (e : σ) : Prop where
  opened : inventory.opened c e
  tables : inventory.tables e = tables

/-- The engine lists tables: the rows of a question are those of the tables that are asked for. -/
structure Engine.Lists {σ : Type} [Engine σ] (inventory : Inventory σ) : Prop where
  find : ∀ {tables c e q} {command : Command}, inventory.At tables c e →
    Search.ofCommand? command = some q →
      ∃ count f rows g, Engine.execute c command e = (.ok count, f) ∧
        Engine.fetchAll c f = (.ok rows, g) ∧
        List.Forall₂ Table.Told (tables.filter q.finds) rows ∧ inventory.At tables c g

/-! ## A directory of tables -/

/-- The row of a table. -/
def Table.row (t : Table) : Value :=
  .mapping [(.str "table_schema", .str t.schema), (.str "table_name", .str t.name)]

theorem Table.told_row (t : Table) : t.Told t.row := ⟨rfl, rfl⟩

/-- A directory of tables, that answers questions for tables and takes no other command. -/
structure Directory where
  tables : List Table
  /-- The rows that were found last. -/
  rows : List Value := []

namespace Directory

/-- Executes a command. -/
def run (command : Command) (d : Directory) : Except EngineError Int × Directory :=
  match Search.ofCommand? command with
  | some q =>
    (.ok (d.tables.filter q.finds).length, { d with rows := (d.tables.filter q.finds).map Table.row })
  | none => (.error ⟨.programming, "no such statement"⟩, d)

instance : Engine Directory where
  connect _ _ d := (.ok (), d)
  openCursor _ _ d := d
  execute _ command d := d.run command
  fetchAll _ d := (.ok d.rows, { d with rows := [] })
  fetchNext _ d := (.ok d.rows.head?, { d with rows := d.rows.tail })
  commit _ d := (.ok (), d)
  rollback _ d := d
  closeCursor _ d := d
  disconnect _ d := d

/-- What a directory says about tables. -/
def inventory : Inventory Directory where
  tables := Directory.tables
  opened _ _ := True

/-- **A directory lists its tables.** -/
theorem lists : Engine.Lists inventory where
  find := by
    rintro _ c d q command ⟨-, rfl⟩ hq
    have hrun : d.run command = (.ok (d.tables.filter q.finds).length,
        { d with rows := (d.tables.filter q.finds).map Table.row }) := by
      rw [run, hq]
    have htold : List.Forall₂ Table.Told (d.tables.filter q.finds)
        ((d.tables.filter q.finds).map Table.row) :=
      List.forall₂_map_right_iff.2 (List.forall₂_same.2 fun t _ => t.told_row)
    exact ⟨_, _, _, _, hrun, rfl, htold, trivial, rfl⟩

end Directory

end Docbase
