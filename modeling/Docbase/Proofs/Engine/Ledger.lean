import Docbase.Proofs.Engine.Server
import Docbase.Proofs.Engine.Shelf

/-!
# A ledger of rows

A database in memory as an engine: any number of connections and tables, with a column for every name
in each table. It takes the statements for single documents and no others.

* `Ledger`: a database, and the rows that its cursors hold.
* `Ledger.schema`: what its tables make of bound values.
* `Ledger.realizes`: the steps of a ledger are those of the database.
-/

namespace Docbase

open Sql

/-- A database, and the rows that were found on its cursors. -/
structure Ledger where
  server : Server Sheet Value
  rows : CursorId → List Value

namespace Ledger

/-- A column takes every value, but no value goes into the column of the id or of the document. -/
def take? (column : List Char) (value : Value) : Option Value :=
  if column = readName idColumn ∨ column = readName docColumn then none else some value

/-- The tables of a ledger. -/
def schema : Schema Sheet Value where
  admits _ _ := True
  reads := Sheet.ofText?
  takes _ := take?
  null := .null
  merged := Sheet.merge

/-- The column that an assignment is for. -/
def column? : Assignment → Option Identifier
  | .column name => some name
  | _ => none

/-- What a statement that stores the bound document does. -/
def storing (table : String) (mode : Mode) (columns : List Identifier) (params : Params) :
    Option (String × Effect (Bound Sheet Value)) :=
  match params.get? "doc" with
  | some (.str text) => do
    let sheet ← Sheet.ofText? text
    let values ← params.columns? columns
    let cells ← schema.cells? table values
    some (table, .store mode (sheet, cells))
  | _ => none

/-- What a statement does, if it is one for a single document, and in which table. -/
def effect? : Statement → Params → Option (String × Effect (Bound Sheet Value))
  | .insert table columns, params => storing table .insert columns params
  | .update table (.mergeDoc :: assignments) .byId, params =>
    (assignments.mapM column?).bind fun columns => storing table .merge columns params
  | .update table (.replaceDoc :: assignments) .byId, params =>
    (assignments.mapM column?).bind fun columns => storing table .replace columns params
  | .delete table .byId, _ => some (table, .delete)
  | _, _ => none

/-- A statement fails. -/
def refuse (k : ConnectionId) (e : EngineError) (l : Ledger) : Except EngineError Int × Ledger :=
  (.error e, { l with server := l.server.fail k })

/-- Does what a statement says about the row of an id. -/
def apply (k : ConnectionId) (table id : String) (effect : Effect (Bound Sheet Value)) (l : Ledger) :
    Except EngineError Int × Ledger :=
  match schema.on effect (l.server.seen k table id) with
  | some row => (.ok 1, { l with server := l.server.change k table id row })
  | none => l.refuse k ⟨.integrity, "duplicate key value violates unique constraint"⟩

/-- Finds the document of an id. -/
def find (k : ConnectionId) (c : CursorId) (table id : String) (l : Ledger) :
    Except EngineError Int × Ledger :=
  let rows := Sheet.rowsOf ((l.server.seen k table id).map Stored.doc)
  (.ok rows.length, { l with rows := Function.update l.rows c rows })

/-- Executes a statement about the row of an id. -/
def execute (k : ConnectionId) (c : CursorId) (id : String) (params : Params) (l : Ledger) :
    Statement → Except EngineError Int × Ledger
  | .select items table .byId [] false false =>
    if items = docColumn then l.find k c table id
    else l.refuse k ⟨.programming, "no such column"⟩
  | statement =>
    match effect? statement params with
    | some (table, effect) => l.apply k table id effect
    | none => l.refuse k ⟨.programming, "no such statement"⟩

/-- Executes a command on a cursor. -/
def run (c : CursorId) (command : Command) (l : Ledger) : Except EngineError Int × Ledger :=
  match l.server.cursors c with
  | none => (.error ⟨.programming, "cursor is closed"⟩, l)
  | some k =>
    if l.server.failed k then (.error ⟨.programming, "current transaction is aborted"⟩, l)
    else
      match command.params with
      | none => l.refuse k ⟨.programming, "no such statement"⟩
      | some params =>
        match params.get? "id" with
        | some (.str id) => l.execute k c id params command.statement
        | _ => l.refuse k ⟨.data, "invalid input"⟩

instance : Engine Ledger where
  connect k _ l := (.ok (), { l with server := l.server.settle k })
  openCursor k c l := { l with server := l.server.open k c }
  execute c command l := l.run c command
  fetchAll c l := (.ok (l.rows c), { l with rows := Function.update l.rows c [] })
  fetchNext c l := (.ok (l.rows c).head?, { l with rows := Function.update l.rows c (l.rows c).tail })
  commit k l :=
    (.ok (), { l with server := if l.server.failed k then l.server.settle k else l.server.commit k })
  rollback k l := { l with server := l.server.settle k }
  closeCursor c l := { l with server := { l.server with cursors := Function.update l.server.cursors c none } }
  disconnect k l := { l with server := l.server.settle k }

variable {k : ConnectionId} {c : CursorId} {l : Ledger} {table id : String} {command : Command}
  {effect : Effect (Bound Sheet Value)}

theorem columns_mapM (columns : List Identifier) :
    (columns.map Assignment.column).mapM column? = some columns := by
  induction columns with
  | nil => rfl
  | cons column columns ih =>
    rw [List.map_cons, List.mapM_cons, ih]
    rfl

theorem effect?_statement (mode : Mode) (columns : List Identifier) (params : Params) :
    effect? (mode.statement table columns) params = storing table mode columns params := by
  cases mode with
  | insert => rfl
  | merge => simp only [Mode.statement, effect?, columns_mapM, Option.bind_some]
  | replace => simp only [Mode.statement, effect?, columns_mapM, Option.bind_some]

/-- A command gets to its row if its cursor takes it. -/
theorem run_taken (h : l.server.Takes k c) {params : Params} (statement : Statement)
    (hid : params.get? "id" = some (.str id)) :
    l.run c (.bound statement params) = l.execute k c id params statement := by
  unfold run
  rw [h.cursor]
  simp only [h.intact, Bool.false_eq_true, if_false, Command.bound, hid]

theorem run_means (h : l.server.Takes k c) (hmeans : schema.Means table id command effect) :
    l.run c command = l.apply k table id effect := by
  cases hmeans with
  | @store mode params columns text doc values cells hid htext hdoc hvalues hcells =>
    have hstoring : storing table mode columns params = some (table, .store mode (doc, cells)) := by
      have hsheet : Sheet.ofText? text = some doc := hdoc
      unfold storing
      rw [htext]
      simp only [hsheet, hvalues, hcells, Option.bind_eq_bind, Option.bind_some]
    have heffect : effect? (mode.statement table columns) params
        = some (table, .store mode (doc, cells)) :=
      (effect?_statement mode columns params).trans hstoring
    have hexecute : l.execute k c id params (mode.statement table columns)
        = match effect? (mode.statement table columns) params with
          | some (table, effect) => l.apply k table id effect
          | none => l.refuse k ⟨.programming, "no such statement"⟩ := by
      cases mode <;> rfl
    rw [run_taken h _ hid, hexecute, heffect]
  | delete hid =>
    rw [run_taken h _ hid]
    rfl

theorem tells_rowsOf (row : Option (Stored Sheet Value)) :
    Tells row (Sheet.rowsOf (row.map Stored.doc)) := by
  cases row with
  | none => rfl
  | some row => exact ⟨_, row.doc.members, rfl, row.doc.inRow⟩

/-- **The steps of a ledger are those of its database.** -/
theorem realizes : Engine.Realizes schema Ledger.server where
  openCursor k c l := rfl
  change := by
    intro k c l table id command effect row h _ _ hmeans hrow
    have hrun : Engine.execute c command l = l.apply k table id effect := run_means h hmeans
    unfold apply at hrun
    rw [hrow] at hrun
    exact ⟨_, _, hrun, rfl⟩
  refuse := by
    intro k c l table id command effect h _ _ hmeans hnone
    have hrun : Engine.execute c command l = l.apply k table id effect := run_means h hmeans
    unfold apply at hrun
    rw [hnone] at hrun
    exact ⟨_, _, hrun, rfl, rfl⟩
  read := by
    intro k c l table id params h _ hid
    have hfind : l.execute k c id params (.select docColumn table .byId [] false false)
        = l.find k c table id := by
      simp only [execute, if_true]
    have hrun : Engine.execute c (.bound (.select docColumn table .byId [] false false) params) l
        = l.find k c table id := (run_taken h _ hid).trans hfind
    refine ⟨_, _, _, _, hrun, rfl, ?_, rfl⟩
    show Tells _ (Function.update l.rows c
      (Sheet.rowsOf ((l.server.seen k table id).map Stored.doc)) c)
    rw [Function.update_self]
    exact tells_rowsOf _
  commit := by
    intro k l h
    have hcommit : Engine.commit k l = (.ok (), { l with server := l.server.commit k }) := by
      have hopen : Engine.commit k l = (.ok (), { l with
        server := if l.server.failed k then l.server.settle k else l.server.commit k }) := rfl
      rw [hopen, h]
      rfl
    exact ⟨_, hcommit, rfl⟩
  rollback k l := rfl

end Ledger

end Docbase
