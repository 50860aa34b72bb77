import Docbase.Engine
import Docbase.Text.Search

/-!
# A scripted engine

An engine without a database, for rehearsals: it answers statements with rows that were laid in
before, and fails where it was told to.

* `Scripted.queue`: rows for the next statement that has none.
* `Scripted.failOn`: statements with a piece of text in them fail.
-/

namespace Docbase

open Sql

/-- A row laid in for a statement, or a failure in its place. -/
inductive Scripted.Row
  | row (value : Value)
  | failure (e : EngineError)

/-- The state of a scripted engine. -/
structure Scripted where
  /-- The rows for the next statements. -/
  results : List (List Scripted.Row) := []
  /-- The pieces of text at which statements fail, and how. -/
  failures : List (String × EngineError) := []
  /-- What a statement without rows tells as the number of rows. -/
  rowCount : Int := 0
  commitError : Option EngineError := none
  connectError : Option EngineError := none
  /-- The rows that cursors still hold. -/
  pending : List (CursorId × List Scripted.Row) := []

namespace Scripted

/-- Lays in the rows of a statement. -/
def queue (s : Scripted) (rows : List Row) : Scripted := { s with results := s.results ++ [rows] }

/-- Lets statements with a piece of text in them fail. -/
def failOn (s : Scripted) (piece : String) (e : EngineError) : Scripted :=
  { s with failures := s.failures ++ [(piece, e)] }

/-- The rows that a cursor still holds. -/
def held (s : Scripted) (cursor : CursorId) : List Row :=
  ((s.pending.find? (·.1 == cursor)).map (·.2)).getD []

/-- Gives a cursor rows to hold. -/
def hold (s : Scripted) (cursor : CursorId) (rows : List Row) : Scripted :=
  { s with pending := (cursor, rows) :: s.pending.filter (·.1 != cursor) }

/-- The rows up to the first failure. -/
def readAll : List Row → Except EngineError (List Value)
  | [] => .ok []
  | .row v :: rows => do
    let vs ← readAll rows
    pure (v :: vs)
  | .failure e :: _ => .error e

/-- Executes a command: the first failure that applies, or else the rows laid in first. -/
def run (s : Scripted) (cursor : CursorId) (command : Command) :
    Except EngineError Int × Scripted :=
  match s.failures.find? fun f => Text.contains command.text f.1 with
  | some (_, e) => (.error e, s)
  | none =>
    let rows := s.results.headD []
    let count : Int := if rows.isEmpty then s.rowCount else rows.length
    (.ok count, { s with results := s.results.tail }.hold cursor rows)

/-- The outcome of a step that fails if an error is laid in for it. -/
def outcome (e : Option EngineError) : Except EngineError Unit :=
  match e with
  | none => .ok ()
  | some e => .error e

instance : Engine Scripted where
  connect _ _ s := (outcome s.connectError, s)
  openCursor _ _ s := s
  execute cursor command s := s.run cursor command
  fetchAll cursor s := (readAll (s.held cursor), s.hold cursor [])
  fetchNext cursor s :=
    match s.held cursor with
    | [] => (.ok none, s)
    | .row v :: rows => (.ok (some v), s.hold cursor rows)
    | .failure e :: _ => (.error e, s.hold cursor [])
  commit _ s := (outcome s.commitError, s)
  rollback _ s := s
  closeCursor _ s := s
  disconnect _ s := s

end Scripted

end Docbase
