import Docbase.Sql.Statement

/-!
# Database engines

What a store needs of a database: connections, cursors on them, and transactions. An engine is a
state that each of these steps reads and changes; a step that fails says how.

* `Engine`: the steps of an engine.
-/

namespace Docbase

open Sql

/-- Connections are told apart by number. -/
abbrev ConnectionId := Nat

/-- Cursors are told apart by number. -/
abbrev CursorId := Nat

/-- Where to connect. -/
structure Target where
  database : String
  user : String
  password : String
  host : String
  port : String
  deriving DecidableEq, Repr

/-- The steps of a database engine with states in `σ`. -/
class Engine (σ : Type) where
  /-- Opens a connection under a new number. -/
  connect : ConnectionId → Target → σ → Except EngineError Unit × σ
  /-- Opens a cursor of a connection under a new number. -/
  openCursor : ConnectionId → CursorId → σ → σ
  /-- Executes a command on a cursor, and tells how many rows it found or changed. -/
  execute : CursorId → Command → σ → Except EngineError Int × σ
  /-- All rows that the cursor still holds. -/
  fetchAll : CursorId → σ → Except EngineError (List Value) × σ
  /-- The next row of the cursor, if it holds one. -/
  fetchNext : CursorId → σ → Except EngineError (Option Value) × σ
  /-- Makes the changes of a connection last. -/
  commit : ConnectionId → σ → Except EngineError Unit × σ
  /-- Takes the changes of a connection back. -/
  rollback : ConnectionId → σ → σ
  /-- Closes a cursor. -/
  closeCursor : CursorId → σ → σ
  /-- Closes a connection. -/
  disconnect : ConnectionId → σ → σ

end Docbase
