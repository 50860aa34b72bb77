import Docbase.Field
import Docbase.Sql.Statement

/-!
# Documents as records

A document is stored as JSON text. With promoted metadata the members of its `metadata` object are
taken out and stored in columns of their own.

* `Record.ofDocument`: the record of a document. It is refused if it is no mapping, if its metadata
  is no object, if it has no JSON text, or if a promoted member has no name for a column.
* `Record.bind`: binds the parts of a record.
-/

namespace Docbase

open Sql

/-- A document as it is stored: its JSON text and its promoted columns. -/
structure Record where
  body : String
  columns : List (Identifier × Value)

namespace Record

/-- A document without its promoted metadata, and the promoted members. -/
def splitMetadata (promote : Bool) (document : Entries) : Except Cause (Entries × Entries) :=
  match promote, Entries.get? document (.str metadataKey) with
  | true, some .null => .ok (Entries.erase document (.str metadataKey), [])
  | true, some (.mapping members) => .ok (Entries.erase document (.str metadataKey), members)
  | true, some v => .error (.metadataNotObject v.typeName)
  | _, _ => .ok (document, [])

/-- The column of a promoted member. -/
def columnOf (name : Key) : Except Error Identifier :=
  Identifier.ofValue name.toValue [("kind", .str "metadata column")]

/-- The columns of promoted members, in order. -/
def columnsOf : Entries → Except Error (List (Identifier × Value))
  | [] => .ok []
  | (name, value) :: rest => do
    let column ← columnOf name
    let columns ← columnsOf rest
    pure ((column, value) :: columns)

/-- The JSON text of the members that stay in the document. -/
def bodyOf (members : Entries) : Except Error String :=
  (encodeText (.mapping members)).mapError .misuse

/-- The record of what is given as a document. -/
def ofDocument (promote : Bool) (document : Value) : Except Error Record := do
  let members ← refuse (Document.ofValue document)
  let (kept, promoted) ← refuse (splitMetadata promote members)
  let body ← bodyOf kept
  let columns ← columnsOf promoted
  pure ⟨body, columns⟩

/-- Binds the columns of a record. -/
def bindColumns (params : Params) : List (Identifier × Value) → Params
  | [] => params
  | (column, value) :: rest => bindColumns (params.put (columnParam column) value) rest

/-- Binds the parts of a record. -/
def bind (params : Params) (r : Record) : Params :=
  bindColumns (params.put "doc" (.str r.body)) r.columns

/-- The names of the promoted columns. -/
def columnNames (r : Record) : List Identifier := r.columns.map (·.1)

/-- The assignments that store a record; the document is merged into the stored one or takes its
place. -/
def assignments (r : Record) (merge : Bool) : List Assignment :=
  (if merge then .mergeDoc else .replaceDoc) :: r.columnNames.map .column

end Record

end Docbase
