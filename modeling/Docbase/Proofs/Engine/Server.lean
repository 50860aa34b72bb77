import Mathlib.Logic.Function.Basic
import Docbase.Engine
import Docbase.Proofs.Engine.Effect
import Docbase.Proofs.Store.Columns

/-!
# A database with several connections

Rows that last, and for each connection the rows that it has changed since. A connection sees its own
changes, and otherwise what lasts at that moment; so what one connection commits, the others see with
their next statement.

* `Stored`: a row with the columns that it has beside the document.
* `Schema`: what tables make of bound values; `Schema.on`: what a statement makes of a row.
* `Schema.Means`: the statements that have such an effect.
* `Server`: the database; `Server.seen_change`, `Server.change_commit`: what a change does to what is
  seen, and to what lasts.
* `Engine.Realizes`: the steps of an engine are those of the database.
-/

namespace Docbase

open Sql

variable {β γ : Type}

/-! ## Rows -/

/-- A row: its document, and what its other columns hold, by the names that they are read as. -/
structure Stored (β γ : Type) where
  doc : β
  cell : List Char → γ

/-- The row with another document, and with the values of some columns. -/
def Stored.written (row : Stored β γ) (doc : β) (cells : List Char → Option γ) : Stored β γ :=
  ⟨doc, fun n => (cells n).getD (row.cell n)⟩

/-- Rows agree on what is not written over exactly if they are the same afterwards. -/
theorem Stored.written_eq_iff {row other : Stored β γ} {doc : β} {cells : List Char → Option γ} :
    row.written doc cells = other.written doc cells ↔
      ∀ n, cells n = none → row.cell n = other.cell n := by
  unfold written
  rw [Stored.mk.injEq]
  constructor
  · rintro ⟨-, hcells⟩ n hn
    have h := congrFun hcells n
    simpa only [hn, Option.getD_none] using h
  · intro h
    refine ⟨rfl, ?_⟩
    funext n
    cases hn : cells n with
    | none => exact h n hn
    | some x => rfl

/-- What is stored in a row: a document, and the values of some columns. -/
abbrev Bound (β γ : Type) := β × (List Char → Option γ)

/-- What the tables of a database make of the values that are bound. -/
structure Schema (β γ : Type) where
  /-- The rows that there can be: the table is there, and takes the id. -/
  admits : String → String → Prop
  /-- The document of a JSON text. -/
  reads : String → Option β
  /-- What a column holds of a value, if it takes it. -/
  takes : String → List Char → Value → Option γ
  /-- What a column holds where nothing was stored. -/
  null : γ
  /-- A document with the members of another one. -/
  merged : β → β → β

namespace Schema

variable (db : Schema β γ)

/-- A row of nothing but a document. -/
def bare (doc : β) : Stored β γ := ⟨doc, fun _ => db.null⟩

/-- The row that comes to be where something is stored. -/
def written (mode : Mode) (bound : Bound β γ) (row : Option (Stored β γ)) : Stored β γ :=
  (row.getD (db.bare bound.1)).written (mode.doc db.merged bound.1 (row.map (·.doc))) bound.2

/-- What a statement leaves of the row of its id. -/
def on : Effect (Bound β γ) → Option (Stored β γ) → Option (Option (Stored β γ)) :=
  Effect.on db.written

/-- What columns hold of some values. No two of them may be read as the same. -/
def cells? (table : String) : List (Identifier × Value) → Option (List Char → Option γ)
  | [] => some fun _ => none
  | (column, value) :: rest => do
    let x ← db.takes table (readName column.text) value
    let cells ← cells? table rest
    if (cells (readName column.text)).isSome then none
    else some (Function.update cells (readName column.text) (some x))

end Schema

/-- The values that are bound for some columns. -/
def Sql.Params.columns? (params : Params) : List Identifier → Option (List (Identifier × Value))
  | [] => some []
  | column :: rest => do
    let value ← params.get? (columnParam column)
    let values ← columns? params rest
    some ((column, value) :: values)

/-- The command has an effect on the row of an id. -/
inductive Schema.Means (db : Schema β γ) (table id : String) :
    Command → Effect (Bound β γ) → Prop
  | store {mode : Mode} {params : Params} {columns : List Identifier} {text : String} {doc : β}
      {values : List (Identifier × Value)} {cells : List Char → Option γ}
      (hid : params.get? "id" = some (.str id)) (htext : params.get? "doc" = some (.str text))
      (hdoc : db.reads text = some doc) (hvalues : params.columns? columns = some values)
      (hcells : db.cells? table values = some cells) :
      Means db table id (.bound (mode.statement table columns) params) (.store mode (doc, cells))
  | delete {params : Params} (hid : params.get? "id" = some (.str id)) :
      Means db table id (.bound (.delete table .byId) params) .delete

/-- The rows that tell whether there is a document: none, or one with an object. -/
def Tells : Option (Stored β γ) → List Value → Prop
  | none, rows => rows = []
  | some _, rows => ∃ row members, rows = [.mapping row] ∧ Document.InRow members row

/-! ## Connections -/

/-- A database: the rows that last, and what its connections have changed. -/
structure Server (β γ : Type) where
  /-- The rows that last. -/
  lasting : Contents (Stored β γ)
  /-- The rows that a connection has changed since its transaction began. -/
  own : ConnectionId → String → String → Option (Option (Stored β γ))
  /-- A statement of the connection's transaction has failed. -/
  failed : ConnectionId → Bool
  /-- The connections of cursors that are open. -/
  cursors : CursorId → Option ConnectionId

namespace Server

variable {x y : Server β γ} {j k : ConnectionId} {c : CursorId} {table id : String}
  {row : Option (Stored β γ)}

/-- The rows as a connection sees them. -/
def seen (x : Server β γ) (k : ConnectionId) : Contents (Stored β γ) :=
  fun t i => (x.own k t i).getD (x.lasting t i)

/-- Opens a cursor. -/
def «open» (x : Server β γ) (k : ConnectionId) (c : CursorId) : Server β γ :=
  { x with cursors := Function.update x.cursors c (some k) }

/-- Changes a row. -/
def change (x : Server β γ) (k : ConnectionId) (table id : String) (row : Option (Stored β γ)) :
    Server β γ :=
  { x with own := Function.update x.own k fun t i =>
      if t = table ∧ i = id then some row else x.own k t i }

/-- Fails in a transaction. -/
def fail (x : Server β γ) (k : ConnectionId) : Server β γ :=
  { x with failed := Function.update x.failed k true }

/-- Takes the changes of a connection back. -/
def settle (x : Server β γ) (k : ConnectionId) : Server β γ :=
  { x with
    own := Function.update x.own k fun _ _ => none
    failed := Function.update x.failed k false }

/-- Makes the changes of a connection last. -/
def commit (x : Server β γ) (k : ConnectionId) : Server β γ :=
  { x.settle k with lasting := x.seen k }

/-- Makes them last if that is up to the store. -/
def ended (x : Server β γ) (transactional : Bool) (k : ConnectionId) : Server β γ :=
  if transactional then x.commit k else x

/-- The connection takes statements on the cursor. -/
structure Takes (x : Server β γ) (k : ConnectionId) (c : CursorId) : Prop where
  cursor : x.cursors c = some k
  intact : x.failed k = false

/-- No other connection has a hand on the row. -/
def Clear (x : Server β γ) (k : ConnectionId) (table id : String) : Prop :=
  ∀ j ≠ k, x.own j table id = none

theorem open_self (h : x.cursors c = some k) : x.open k c = x := by
  unfold «open»
  rw [← h, Function.update_eq_self]

/-- On a cursor that was opened the connection takes statements. -/
theorem takes_open (h : x.failed k = false) (c : CursorId) : (x.open k c).Takes k c where
  cursor := by simp [«open»]
  intact := h

theorem Takes.change (h : x.Takes k c) (table id : String) (row : Option (Stored β γ)) :
    (x.change k table id row).Takes k c := ⟨h.cursor, h.intact⟩

theorem Takes.ended (h : x.Takes k c) (transactional : Bool) :
    (x.ended transactional k).Takes k c := by
  unfold Server.ended
  cases transactional with
  | false => exact h
  | true => exact ⟨h.cursor, Function.update_self _ _ _⟩

theorem seen_change (x : Server β γ) (k : ConnectionId) (table id : String)
    (row : Option (Stored β γ)) : (x.change k table id row).seen k = (x.seen k).set table id row := by
  funext t i
  simp only [seen, change, Function.update_self, Contents.set]
  split <;> rfl

@[simp] theorem seen_commit (x : Server β γ) (k : ConnectionId) :
    (x.commit k).seen k = x.seen k := by
  funext t i
  simp [seen, commit, settle]

@[simp] theorem seen_ended (x : Server β γ) (transactional : Bool) (k : ConnectionId) :
    (x.ended transactional k).seen k = x.seen k := by
  cases transactional with
  | false => rfl
  | true => exact seen_commit x k

theorem Clear.change (h : x.Clear k table id) (row : Option (Stored β γ)) :
    (x.change k table id row).Clear k table id := by
  intro j hj
  simpa [Server.change, Function.update_of_ne hj] using h j hj

theorem Clear.ended (h : x.Clear k table id) (transactional : Bool) :
    (x.ended transactional k).Clear k table id := by
  cases transactional with
  | false => exact h
  | true =>
    intro j hj
    simpa [Server.ended, commit, settle, Function.update_of_ne hj] using h j hj

/-- Behind a commit there is nothing to take back. -/
theorem settle_commit (x : Server β γ) (k : ConnectionId) : (x.commit k).settle k = x.commit k := by
  simp only [commit, settle, Function.update_idem]

theorem change_commit (x : Server β γ) (k : ConnectionId) (table id : String)
    (row : Option (Stored β γ)) :
    (x.change k table id row).commit k
      = { x.settle k with lasting := (x.seen k).set table id row } := by
  have hsettle : (x.change k table id row).settle k = x.settle k := by
    simp only [settle, change, Function.update_idem]
  rw [commit, hsettle, seen_change]

/-- A row that is changed twice is as it was changed last, also if the first change came to last in
between. -/
theorem ended_change (x : Server β γ) (transactional : Bool) (k : ConnectionId) (table id : String)
    (row next : Option (Stored β γ)) :
    (((x.change k table id row).ended transactional k).change k table id next).ended transactional k
      = (x.change k table id next).ended transactional k := by
  cases transactional with
  | false =>
    simp only [ended, change, Bool.false_eq_true, if_false, Function.update_self,
      Function.update_idem]
    congr 2
    funext t i
    split <;> rfl
  | true =>
    simp only [ended, if_true]
    rw [change_commit, settle_commit, seen_commit, seen_change, Contents.set_set, change_commit,
      change_commit]

/-- No connection has changes that it could take back. -/
def Quiet (x : Server β γ) : Prop := ∀ j t i, x.own j t i = none

theorem Quiet.seen (h : x.Quiet) (k : ConnectionId) : x.seen k = x.lasting := by
  funext t i
  simp [Server.seen, h k t i]

theorem Quiet.settle (h : x.Quiet) (k : ConnectionId) : (x.settle k).Quiet := by
  intro j t i
  by_cases hj : j = k
  · simp [Server.settle, hj]
  · simpa [Server.settle, Function.update_of_ne hj] using h j t i

/-- The database is left as it may be between two transactions: no changes are open, cursors and
connections are as fit for use as before, and no row is gone. -/
structure Settled (x y : Server β γ) : Prop where
  quiet : y.Quiet
  cursors : y.cursors = x.cursors
  intact : ∀ j, x.failed j = false → y.failed j = false
  kept : ∀ t i, x.lasting t i ≠ none → y.lasting t i ≠ none

theorem Quiet.settled (h : x.Quiet) : x.Settled x := ⟨h, rfl, fun _ h => h, fun _ _ h => h⟩

theorem failed_settle (h : x.failed j = false) : (x.settle k).failed j = false := by
  by_cases hj : j = k
  · simp [settle, hj]
  · simpa [settle, Function.update_of_ne hj] using h

/-- A row that is stored and committed. -/
theorem Quiet.committed (h : x.Quiet) (k : ConnectionId) (table id : String) (row : Stored β γ) :
    x.Settled ((x.change k table id (some row)).commit k) ∧
      ((x.change k table id (some row)).commit k).lasting = x.lasting.set table id (some row) := by
  rw [change_commit, h.seen]
  refine ⟨⟨h.settle k, rfl, fun j => failed_settle, fun t i hrow => ?_⟩, rfl⟩
  show Contents.set x.lasting table id (some row) t i ≠ none
  unfold Contents.set
  split
  · simp
  · exact hrow

/-- A failure that is taken back. -/
theorem Quiet.takenBack (h : x.Quiet) (k : ConnectionId) : x.Settled ((x.fail k).settle k) := by
  have hback : (x.fail k).settle k = x.settle k := by
    simp only [Server.settle, fail, Function.update_idem]
  rw [hback]
  exact ⟨h.settle k, rfl, fun j => failed_settle, fun _ _ hrow => hrow⟩

end Server

/-! ## Engines -/

/-- The steps of an engine are those of the database that its states stand for. How it connects, and
what it does with a row that another connection is changing, is left open. -/
structure Engine.Realizes {σ : Type} [Engine σ] (db : Schema β γ) (server : σ → Server β γ) :
    Prop where
  openCursor : ∀ k c e, server (Engine.openCursor k c e) = (server e).open k c
  /-- A statement does what it says. -/
  change : ∀ {k c e table id command effect row}, (server e).Takes k c →
    (server e).Clear k table id → db.admits table id → db.Means table id command effect →
    db.on effect ((server e).seen k table id) = some row →
      ∃ count f, Engine.execute c command e = (.ok count, f) ∧
        server f = (server e).change k table id row
  /-- A document is inserted under no id that has one. -/
  refuse : ∀ {k c e table id command effect}, (server e).Takes k c →
    (server e).Clear k table id → db.admits table id → db.Means table id command effect →
    db.on effect ((server e).seen k table id) = none →
      ∃ x f, Engine.execute c command e = (.error x, f) ∧ x.kind = .integrity ∧
        server f = (server e).fail k
  /-- A document is read as its connection sees it. -/
  read : ∀ {k c e table id params}, (server e).Takes k c → db.admits table id →
    params.get? "id" = some (.str id) →
      ∃ count f rows g,
        Engine.execute c (.bound (.select docColumn table .byId [] false false) params) e
          = (.ok count, f) ∧
        Engine.fetchAll c f = (.ok rows, g) ∧ Tells ((server e).seen k table id) rows ∧
        server g = server e
  commit : ∀ {k e}, (server e).failed k = false →
    ∃ f, Engine.commit k e = (.ok (), f) ∧ server f = (server e).commit k
  rollback : ∀ k e, server (Engine.rollback k e) = (server e).settle k

end Docbase
