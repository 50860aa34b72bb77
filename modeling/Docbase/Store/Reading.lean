import Docbase.Number.Whole
import Docbase.Selection.Columns
import Docbase.Sql.Page
import Docbase.Store.Collections

/-!
# Reading documents

* `getDoc`, `getPartialDoc`: the document of an id, in full or in part.
* `filterDocIds`, `countDocs`: the ids and the number of the documents that a filter means.
* `upsertDoc`: merges a document into the stored one, or adds it.
* `Query`: a query for many documents, worked out before it is sent.
-/

namespace Docbase

open Sql

/-- What becomes of a row. -/
inductive Shape
  /-- The document. -/
  | document
  /-- The id and the document. -/
  | pair
  /-- The id and the selected part of the document. -/
  | partialPair (selection : Selection)

/-- The JSON value in the document column of a row. -/
def documentOfRow (row : Value) : Except Misuse Value := do
  let stored ← row.member docColumn
  decodeColumn stored

/-- A row in a shape. -/
def Shape.read (r : Resolver) (shape : Shape) (row : Value) : Except Error Value :=
  match shape with
  | document => (documentOfRow row).mapError .misuse
  | pair => do
    let id ← (row.member idColumn).mapError .misuse
    let doc ← (documentOfRow row).mapError .misuse
    pure (.tuple [id, doc])
  | partialPair selection => do
    let id ← (Selection.docId row).mapError .misuse
    let doc ← selection.assemble r row
    pure (.tuple [id, doc])

/-- A query for many documents. -/
structure Query where
  command : Command
  shape : Shape

/-- How a query is to be cut and sorted. -/
structure Paging where
  skip : Value := .null
  limit : Value := .null
  order : Given Order := .value .null

namespace Options

variable (o : Options)

/-- Binds a number of rows, if one is given. -/
def bindCount (params : Params) (name : String) : Option Nat → Params
  | none => params
  | some n => params.put name (.int n)

/-- The command that reads some columns of the documents that a filter means. -/
def selectCommand (items : String) (collection : Value) (filter : Given Filter)
    (paging : Paging) : Except Error Command := do
  let skip ← pageValue paging.skip "skip"
  let limit ← pageValue paging.limit "limit"
  let clause ← Filter.clauseOf o.resolver filter
  let table ← o.table collection
  let keys ← refuse (Order.optionalKeysOf o.resolver paging.order)
  let params := bindCount (bindCount clause.params "limit" limit) "offset" skip
  pure (.bound (.select items table (.ofClause clause) keys limit.isSome skip.isSome) params)

/-- The query for the documents that a filter means. -/
def docsQuery (collection : Value) (filter : Given Filter) (paging : Paging) :
    Except Error Query := do
  let command ← o.selectCommand docColumn collection filter paging
  pure ⟨command, .document⟩

/-- The query for the documents that a filter means, with their ids. -/
def pairsQuery (collection : Value) (filter : Given Filter) (paging : Paging) :
    Except Error Query := do
  let command ← o.selectCommand (idColumn ++ ", " ++ docColumn) collection filter paging
  pure ⟨command, .pair⟩

/-- The columns of a selection. -/
def selectionItems (select : Given Selection) : Except Error (Selection × String) := do
  let selection ← Selection.ofGiven o.resolver select
  let items ← refuse (selection.listText o.resolver)
  pure (selection, items)

/-- The query for parts of the documents that a filter means, with their ids. -/
def partialPairsQuery (collection : Value) (select : Given Selection) (filter : Given Filter)
    (paging : Paging) : Except Error Query := do
  let (selection, items) ← o.selectionItems select
  let command ← o.selectCommand items collection filter paging
  pure ⟨command, .partialPair selection⟩

/-- The command that reads some columns of the document of an id. -/
def byIdCommand (items : String) (collection id : Value) : Except Error Command := do
  let table ← o.table collection
  pure (.bound (.select items table .byId [] false false) [("id", id)])

/-- The command that reads some columns of all documents that a filter means. -/
def allCommand (items : String) (collection : Value) (filter : Given Filter) :
    Except Error Command := do
  let clause ← Filter.clauseOf o.resolver filter
  let table ← o.table collection
  pure (.bound (.select items table (.ofClause clause) [] false false) clause.params)

end Options

/-- The ids in rows. -/
def idsOfRows : List Value → Except Misuse (List Value)
  | [] => .ok []
  | row :: rows => do
    let id ← row.member idColumn
    let ids ← idsOfRows rows
    pure (id :: ids)

namespace Store

variable {σ : Type} [Engine σ]

/-- The document of an id. -/
def getDoc (collection id : Value) : Action σ Value := do
  let rows ← ask fun o => o.byIdCommand docColumn collection id
  match rows with
  | [] => pure .null
  | row :: _ => given ((documentOfRow row).mapError .misuse)

/-- The selected part of the document of an id. -/
def getPartialDoc (collection : Value) (select : Given Selection) (id : Value) :
    Action σ Value := do
  let o := (← get).options
  let (selection, items) ← given (o.selectionItems select)
  let rows ← ask fun o => o.byIdCommand items collection id
  match rows with
  | [] => pure .null
  | row :: _ => given (selection.assemble o.resolver row)

/-- The ids of the documents that a filter means. -/
def filterDocIds (collection : Value) (filter : Given Filter) : Action σ (List Value) := do
  let rows ← ask fun o => o.allCommand idColumn collection filter
  given ((idsOfRows rows).mapError .misuse)

/-- The number of the documents that a filter means. -/
def countDocs (collection : Value) (filter : Given Filter) : Action σ Int := do
  let rows ← ask fun o => o.allCommand "COUNT(*) AS count" collection filter
  match rows with
  | [] => pure 0
  | row :: _ => given (((row.member "count").bind wholeNumber).mapError .misuse)

/-- Merges a document into the stored one of an id, or adds it if there is none. The two steps are
not one: another writer may come between them. -/
def upsertDoc (collection id document : Value) : Action σ Unit := do
  match ← getDoc collection id with
  | .null => addDoc collection id document
  | _ => updateDoc collection id document

end Store

end Docbase
