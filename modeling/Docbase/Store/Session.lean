import Docbase.Engine
import Docbase.Log.Level
import Docbase.Store.Options

/-!
# Sessions of a store

A store at work: the connection and the cursor that it holds, the engine behind them, and the
history of all that it did.

* `client`, `cursor`: the connection and the cursor, made when first needed.
* `execute`: a command on the cursor.
* `transaction`: commits what a body did, or takes it back and passes the error on.
* `fetchAll`: the rows of a command; an error of the engine takes the transaction back.
* `close`: gives the cursor and the connection up.
-/

namespace Docbase

open Sql Log

/-- What happened in a session. -/
inductive Event
  /-- A record went to the log. -/
  | logged (level : Level) (text : String)
  /-- A connection was opened. -/
  | connected (connection : ConnectionId) (target : Target)
  /-- A connection could not be opened. -/
  | notConnected (target : Target) (e : EngineError)
  /-- A cursor was opened; readers state how many rows they take at a time. -/
  | opened (cursor : CursorId) (connection : ConnectionId) (batch : Option Int)
  /-- A command was sent. -/
  | executed (cursor : CursorId) (command : Command)
  /-- Changes were made to last. -/
  | committed (connection : ConnectionId)
  /-- Changes could not be made to last. -/
  | notCommitted (connection : ConnectionId) (e : EngineError)
  /-- Changes were taken back. -/
  | rolledBack (connection : ConnectionId)
  /-- A cursor was closed. -/
  | cursorClosed (cursor : CursorId)
  /-- A connection was closed. -/
  | disconnected (connection : ConnectionId)

/-- A store at work. -/
structure Session (σ : Type) where
  options : Options
  settings : Settings
  /-- The connection that the store holds. -/
  connection : Option ConnectionId := none
  /-- The cursor that the store holds. -/
  cursor : Option CursorId := none
  /-- The number of the next connection. -/
  nextConnection : ConnectionId := 0
  /-- The number of the next cursor. -/
  nextCursor : CursorId := 0
  engine : σ
  /-- What happened so far, the first event first. -/
  history : List Event := []

/-- A step of a session: it gives a result or fails, and changes the session either way. -/
abbrev Action (σ α : Type) : Type := ExceptT Error (StateM (Session σ)) α

namespace Session

/-- A session with a connection that was opened by someone else. -/
def withConnection {σ : Type} (options : Options) (settings : Settings) (engine : σ) :
    Session σ :=
  { options, settings, engine, connection := some 0, nextConnection := 1 }

/-- A session without a connection. -/
def withoutConnection {σ : Type} (options : Options) (settings : Settings) (engine : σ) :
    Session σ :=
  { options, settings, engine }

end Session

namespace Store

variable {σ α : Type}

/-- Notes what happened. -/
def note (e : Event) : Action σ Unit :=
  modify fun s => { s with history := s.history ++ [e] }

/-- A step of the engine. -/
def perform (f : σ → α × σ) : Action σ α :=
  modifyGet fun s =>
    let (a, engine) := f s.engine
    (a, { s with engine })

/-- A change of the engine. -/
def change (f : σ → σ) : Action σ Unit := modify fun s => { s with engine := f s.engine }

/-- Passes a result or an error on. -/
def given (x : Except Error α) : Action σ α := liftExcept x

/-- Logs at a level. -/
def log (level : Level) (text : String) : Action σ Unit := note (.logged level text)

/-- Logs what was achieved, at the level of the settings. -/
def announce (text : String) : Action σ Unit := do
  let s ← get
  log (Level.ofName s.settings.logLevel) text

/-- Logs a command. -/
def logCommand (c : Command) : Action σ Unit :=
  let params := match c.params with
    | none => Value.null
    | some ps => .object ps
  log .debug ("SQL: " ++ c.text ++ " params=" ++ params.text)

/-- A text, or what stands in for an empty one. -/
def orElse (s default : String) : String := if s.isEmpty then default else s

/-- Where the settings say that the database is. -/
def target (s : Settings) : Except Cause Target :=
  if s.database.isEmpty then .error .databaseNotSet
  else .ok {
    database := s.database
    user := orElse s.user "postgres"
    password := s.password
    host := orElse s.host "localhost"
    port := orElse s.port "5432" }

/-- The error of a connection that could not be opened. -/
def connectError (t : Target) (e : EngineError) : Error :=
  if e.kind = .operational then .refused (.connectFailed t.database t.host t.port t.user e.text)
  else .engine e

variable [Engine σ]

/-- Opens a connection to where the settings say. -/
def connect : Action σ ConnectionId := do
  let s ← get
  let t ← given (refuse (target s.settings))
  let id := s.nextConnection
  match ← perform (Engine.connect id t) with
  | .error e =>
    note (.notConnected t e)
    throw (connectError t e)
  | .ok () =>
    note (.connected id t)
    modify fun s => { s with connection := some id, nextConnection := id + 1 }
    announce ("PostgreSQL connection established (db=" ++ t.database ++ ").")
    pure id

/-- The connection of the store, made when first needed. -/
def client : Action σ ConnectionId := do
  match (← get).connection with
  | some id => pure id
  | none => connect

/-- Opens a cursor of a connection. -/
def openCursor (connection : ConnectionId) (batch : Option Int) : Action σ CursorId := do
  let id := (← get).nextCursor
  change (Engine.openCursor connection id)
  note (.opened id connection batch)
  modify fun s => { s with nextCursor := id + 1 }
  pure id

/-- The cursor of the store, made when first needed. -/
def cursor : Action σ CursorId := do
  match (← get).cursor with
  | some id => pure id
  | none =>
    let connection ← client
    let id ← openCursor connection none
    modify fun s => { s with cursor := some id }
    pure id

/-- Closes a cursor. -/
def closeCursor (id : CursorId) : Action σ Unit := do
  change (Engine.closeCursor id)
  note (.cursorClosed id)

/-- A step of the engine that may fail. -/
def attempt (f : σ → Except EngineError α × σ) : Action σ α := do
  match ← perform f with
  | .ok a => pure a
  | .error e => throw (.engine e)

/-- Sends a command on a cursor. -/
def send (id : CursorId) (c : Command) : Action σ Int := do
  note (.executed id c)
  attempt (Engine.execute id c)

/-- Logs a command and sends it on the cursor of the store. -/
def execute (c : Command) : Action σ Int := do
  logCommand c
  let id ← cursor
  send id c

/-- Takes the changes back. -/
def rollback : Action σ Unit := do
  let connection ← client
  change (Engine.rollback connection)
  note (.rolledBack connection)

/-- Makes the changes last. -/
def commit : Action σ Unit := do
  let connection ← client
  match ← perform (Engine.commit connection) with
  | .ok () => note (.committed connection)
  | .error e =>
    note (.notCommitted connection e)
    throw (.engine e)

/-- Runs a body in a transaction: its changes are made to last, or taken back if it fails. A store
that is not transactional leaves that to others. -/
def transaction (body : Action σ α) : Action σ α := do
  if (← get).options.transactional then
    let a ← tryCatch body fun e => do
      log .warning "Rolling back transaction after error."
      rollback
      throw e
    commit
    pure a
  else body

/-- The error is one of the engine's own, so that the transaction is lost. -/
def losesTransaction : Error → Bool
  | .engine e => e.isOwn
  | _ => false

/-- Takes the changes back if the error has lost the transaction. -/
def recover (e : Error) : Action σ Unit := do
  if losesTransaction e && (← get).options.transactional then rollback

/-- The rows of a command. -/
def fetchAll (c : Command) : Action σ (List Value) :=
  tryCatch
    (do
      let _ ← execute c
      let id ← cursor
      attempt (Engine.fetchAll id))
    fun e => do
      recover e
      throw e

/-- Gives the cursor and the connection up. -/
def close : Action σ Unit := do
  match (← get).cursor with
  | some id =>
    closeCursor id
    modify fun s => { s with cursor := none }
  | none => pure ()
  match (← get).connection with
  | some id =>
    change (Engine.disconnect id)
    note (.disconnected id)
    modify fun s => { s with connection := none }
  | none => pure ()

end Store

end Docbase
