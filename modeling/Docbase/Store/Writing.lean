import Docbase.Collection.Name
import Docbase.Store.Record
import Docbase.Store.Session

/-!
# Changing documents

Every change is worked out in full before the first command is sent; then its command runs in a
transaction, and what was achieved is logged.

* `Plan`: the commands of a change, and what to log in the end.
* `addDocPlan`, `updateDocPlan` and the other plans; `Store.carryOut` runs a plan.
-/

namespace Docbase

open Sql

/-- The commands of a change, and what to log about it, given the number of rows that the last of
them changed. -/
structure Plan where
  commands : List Command
  report : Int → String

/-- The text of a message that names a document and its collection. -/
def documentMessage (verb : String) (id : Value) (link : String) (collection : Value) : String :=
  verb ++ " document '" ++ id.text ++ "' " ++ link ++ " '" ++ collection.text ++ "'."

/-- The text of a message that counts documents of a collection. -/
def countMessage (verb : String) (count : Int) (link : String) (collection : Value) : String :=
  verb ++ " " ++ toString count ++ " document(s) " ++ link ++ " '" ++ collection.text ++ "'."

namespace Options

variable (o : Options)

/-- The table of a collection. -/
def table (collection : Value) : Except Error String :=
  (Collection.tableNameOf collection o.tableStart).mapError .misuse

/-- Adds a document. -/
def addDocPlan (collection id document : Value) : Except Error Plan := do
  let record ← Record.ofDocument o.promote document
  let table ← o.table collection
  pure {
    commands := [.bound (.insert table record.columnNames) (record.bind [("id", id)])]
    report := fun _ => documentMessage "Added" id "to" collection }

/-- Merges a document into a stored one, or puts it in its place. -/
def changeDocPlan (merge : Bool) (collection id document : Value) : Except Error Plan := do
  let record ← Record.ofDocument o.promote document
  let table ← o.table collection
  pure {
    commands :=
      [.bound (.update table (record.assignments merge) .byId) (record.bind [("id", id)])]
    report := fun _ =>
      documentMessage (if merge then "Updated" else "Replaced") id "in" collection }

/-- Merges a document into all that a filter means, or puts it in their place. -/
def changeManyPlan (merge : Bool) (collection : Value) (filter : Given Filter)
    (document : Value) : Except Error Plan := do
  let clause ← Filter.clauseOf o.resolver filter
  let record ← Record.ofDocument o.promote document
  let table ← o.table collection
  pure {
    commands := [.bound (.update table (record.assignments merge) (.ofClause clause))
      (record.bind clause.params)]
    report := fun count =>
      countMessage (if merge then "Updated" else "Replaced") count "in" collection }

/-- Removes a document. -/
def deleteDocPlan (collection id : Value) : Except Error Plan := do
  let table ← o.table collection
  pure {
    commands := [.bound (.delete table .byId) [("id", id)]]
    report := fun _ => documentMessage "Deleted" id "from" collection }

/-- Removes all documents that a filter means. -/
def deleteManyPlan (collection : Value) (filter : Given Filter) : Except Error Plan := do
  let clause ← Filter.clauseOf o.resolver filter
  let table ← o.table collection
  pure {
    commands := [.bound (.delete table (.ofClause clause)) clause.params]
    report := fun count => countMessage "Deleted" count "from" collection }

end Options

namespace Store

variable {σ : Type} [Engine σ]

/-- Runs commands one after the other, and tells the number of rows of the last. -/
def executeAll : List Command → Action σ Int
  | [] => pure 0
  | [c] => execute c
  | c :: cs => do
    let _ ← execute c
    executeAll cs

/-- Runs the commands of a plan in a transaction, and logs what was achieved. -/
def run (plan : Plan) : Action σ Unit := do
  let count ← transaction (executeAll plan.commands)
  announce (plan.report count)

/-- Works a plan out, and runs it. -/
def carryOut (plan : Options → Except Error Plan) : Action σ Unit := do
  let s ← get
  let p ← given (plan s.options)
  run p

/-- Adds a document. -/
def addDoc (collection id document : Value) : Action σ Unit :=
  carryOut fun o => o.addDocPlan collection id document

/-- Merges a document into the stored one of an id. -/
def updateDoc (collection id document : Value) : Action σ Unit :=
  carryOut fun o => o.changeDocPlan true collection id document

/-- Puts a document in the place of the stored one of an id. -/
def replaceDoc (collection id document : Value) : Action σ Unit :=
  carryOut fun o => o.changeDocPlan false collection id document

/-- Merges a document into all that a filter means. -/
def updateMany (collection : Value) (filter : Given Filter) (document : Value) : Action σ Unit :=
  carryOut fun o => o.changeManyPlan true collection filter document

/-- Puts a document in the place of all that a filter means. -/
def replaceMany (collection : Value) (filter : Given Filter) (document : Value) : Action σ Unit :=
  carryOut fun o => o.changeManyPlan false collection filter document

/-- Removes the document of an id. -/
def deleteDoc (collection id : Value) : Action σ Unit :=
  carryOut fun o => o.deleteDocPlan collection id

/-- Removes all documents that a filter means. -/
def deleteMany (collection : Value) (filter : Given Filter) : Action σ Unit :=
  carryOut fun o => o.deleteManyPlan collection filter

end Store

end Docbase
