import Docbase.Store.Reading

/-!
# Readers

A reader goes through the documents of a query one by one, on a cursor of its own. Nothing is sent
before the first of them is asked for, and the cursor is closed as soon as the reader has come to
an end: by itself, by an error, or because it is closed.

* `Reader.next`: the next document, and the reader behind it.
* `Reader.close`: ends a reader early.
-/

namespace Docbase

open Sql Store

/-- How far a reader has come. -/
inductive Reader
  /-- Nothing was sent yet. -/
  | pending (query : Query)
  /-- The rows are read from a cursor. -/
  | open (cursor : CursorId) (shape : Shape)
  /-- There is nothing more to read. -/
  | done

namespace Reader

variable {σ α : Type} [Engine σ]

/-- Runs a body; if it fails, a lost transaction is taken back and the cursor closed. -/
def guarded (cursor : CursorId) (body : Action σ α) : Action σ α :=
  tryCatch body fun e => do
    tryCatch (recover e) fun e => do
      closeCursor cursor
      throw e
    closeCursor cursor
    throw e

/-- The next row of a cursor in a shape; the cursor is closed behind the last. -/
def advance (cursor : CursorId) (shape : Shape) : Action σ (Option Value × Reader) := do
  let s ← get
  match ← Store.attempt (Engine.fetchNext cursor) with
  | none =>
    closeCursor cursor
    pure (none, .done)
  | some row =>
    let item ← given (shape.read s.options.resolver row)
    pure (some item, .open cursor shape)

/-- The next document, if there is one, and the reader behind it. -/
def step : Reader → Action σ (Option Value × Reader)
  | done => pure (none, done)
  | .open cursor shape => guarded cursor (advance cursor shape)
  | pending query => do
    logCommand query.command
    let connection ← client
    let batch := (← get).options.batch
    let cursor ← openCursor connection (some batch)
    guarded cursor do
      let _ ← send cursor query.command
      advance cursor query.shape

/-- The next document, if there is one, and the reader behind it. After an error the reader is at
its end. -/
def next (r : Reader) (s : Session σ) : (Except Error (Option Value) × Reader) × Session σ :=
  match (step r).run.run s with
  | (.ok (item, r), s) => ((.ok item, r), s)
  | (.error e, s) => ((.error e, .done), s)

/-- Ends a reader early. -/
def close : Reader → Action σ Reader
  | .open cursor _ => do
    closeCursor cursor
    pure .done
  | _ => pure .done

end Reader

namespace Store

variable {σ : Type} [Engine σ]

/-- A reader of a query that is worked out from the options. -/
def reader (query : Options → Except Error Query) : Action σ Reader := do
  let s ← get
  let q ← given (query s.options)
  pure (.pending q)

/-- Reads the documents that a filter means. -/
def filterDocs (collection : Value) (filter : Given Filter) (paging : Paging) :
    Action σ Reader :=
  reader fun o => o.docsQuery collection filter paging

/-- Reads the documents that a filter means, with their ids. -/
def findDocs (collection : Value) (filter : Given Filter) (paging : Paging) : Action σ Reader :=
  reader fun o => o.pairsQuery collection filter paging

/-- Reads parts of the documents that a filter means, with their ids. -/
def findPartialDocs (collection : Value) (select : Given Selection) (filter : Given Filter)
    (paging : Paging) : Action σ Reader :=
  reader fun o => o.partialPairsQuery collection select filter paging

end Store

end Docbase
