import Docbase.Engine
import Docbase.Json.Decode
import Docbase.Proofs.Engine.Effect
import Docbase.Proofs.Json.Datum

/-!
# Documents that a database keeps

A database as one connection uses it for single documents: in each table it keeps the object of an
id. What a transaction changes lasts from its commit on, and is gone behind a rollback.

* `Kept`: the objects that are kept, by table and id.
* `Mode.text`, `Effect.text`: the statements that change one document; `Effect.Binds`: the values
  that are bound to them.
* `Database`: what the states of an engine say about documents.
* `Engine.Keeps`: what a store relies on.
-/

namespace Docbase

open Sql

/-- The object of an id in a table, if there is one. -/
abbrev Kept := Contents Object

/-- The statement in SQL that stores a document in a way. -/
def Mode.text (table : String) : Mode → String
  | insert => "INSERT INTO " ++ table ++ " (id, doc) VALUES (%(id)s, %(doc)s)"
  | merge => "UPDATE " ++ table
      ++ " SET doc = (to_jsonb(doc) || CAST(%(doc)s AS JSONB)) WHERE id = %(id)s"
  | replace => "UPDATE " ++ table ++ " SET doc = %(doc)s WHERE id = %(id)s"

/-- The one that deletes the document. -/
def deleteText (table : String) : String := "DELETE FROM " ++ table ++ " WHERE id = %(id)s"

/-- The statement that has an effect on a document. -/
def Effect.text {α : Type} (table : String) : Effect α → String
  | store mode _ => mode.text table
  | delete => deleteText table

/-- The values bound to it: the id, and the JSON text of the document that it stores. -/
inductive Effect.Binds (params : Params) (id : String) : Effect Object → Prop
  | store {mode : Mode} {text : String} {es : Entries} {o : Object}
      (hid : params.get? "id" = some (.str id)) (htext : params.get? "doc" = some (.str text))
      (hdecode : Json.decode none text = .ok (.mapping es)) (hobject : Value.object? es = some o) :
      Binds params id (.store mode o)
  | delete (hid : params.get? "id" = some (.str id)) : Binds params id .delete

theorem Effect.Binds.id {params : Params} {id : String} {effect : Effect Object}
    (h : effect.Binds params id) : params.get? "id" = some (.str id) := by
  cases h with
  | store hid | delete hid => exact hid

/-- The statement that reads the document of the bound id. -/
def readText (table : String) : String := "SELECT doc FROM " ++ table ++ " WHERE id = %(id)s"

/-- The rows that tell a document: none, or one with the document. -/
def Rows : Option Object → List Value → Prop
  | none, rows => rows = []
  | some o, rows => ∃ row es, rows = [.mapping row] ∧ Document.InRow es row ∧
      Value.object? es = some o

/-- What the states of an engine say about documents. -/
structure Database (σ : Type) where
  /-- The rows that there can be: the table is there, and takes the id. -/
  admits : String → String → Prop
  /-- The documents that last. -/
  lasting : σ → Kept
  /-- The documents with the changes of the connection. -/
  seen : σ → Kept
  /-- The transaction of the connection has not failed. -/
  intact : σ → Prop
  /-- The cursor of the connection is open. -/
  opened : CursorId → σ → Prop

/-- The documents that last, and those with the changes of the connection, which is fit for use. -/
structure Database.At {σ : Type} (db : Database σ) (lasting seen : Kept) (e : σ) : Prop where
  intact : db.intact e
  lasting : db.lasting e = lasting
  seen : db.seen e = seen

/-- The engine keeps documents for the connection. -/
structure Engine.Keeps {σ : Type} [Engine σ] (connection : ConnectionId) (db : Database σ) :
    Prop where
  connect : ∀ target e, ∃ f, Engine.connect connection target e = (.ok (), f) ∧
    db.At (db.lasting e) (db.lasting e) f
  openCursor : ∀ {m n e}, db.At m n e → ∀ c,
    db.At m n (Engine.openCursor connection c e) ∧
      db.opened c (Engine.openCursor connection c e)
  /-- A statement does what it says. -/
  change : ∀ {m n e c table id params kept} {effect : Effect Object} {command : Command},
    db.At m n e → db.opened c e → db.admits table id → command.text = effect.text table →
    command.params = some params → effect.Binds params id →
    effect.onDoc Object.merge (n table id) = some kept →
      ∃ count f, Engine.execute c command e = (.ok count, f) ∧
        db.At m (n.set table id kept) f ∧ db.opened c f
  /-- A document is inserted under no id that has one. The transaction has failed then. -/
  refuse : ∀ {m n e c table id params} {effect : Effect Object} {command : Command},
    db.At m n e → db.opened c e → db.admits table id → command.text = effect.text table →
    command.params = some params → effect.Binds params id →
    effect.onDoc Object.merge (n table id) = none →
      ∃ x f, Engine.execute c command e = (.error x, f) ∧ x.kind = .integrity ∧
        db.lasting f = m ∧ db.opened c f
  /-- A document is read with the changes of the connection. -/
  read : ∀ {m n e c table id params} {command : Command},
    db.At m n e → db.opened c e → db.admits table id → command.text = readText table →
    command.params = some params → params.get? "id" = some (.str id) →
      ∃ count f rows g, Engine.execute c command e = (.ok count, f) ∧
        Engine.fetchAll c f = (.ok rows, g) ∧ Rows (n table id) rows ∧
        db.At m n g ∧ db.opened c g
  commit : ∀ {m n e}, db.At m n e → ∃ f, Engine.commit connection e = (.ok (), f) ∧
    db.At n n f ∧ ∀ c, db.opened c e → db.opened c f
  rollback : ∀ e, db.At (db.lasting e) (db.lasting e) (Engine.rollback connection e) ∧
    ∀ c, db.opened c e → db.opened c (Engine.rollback connection e)

end Docbase
