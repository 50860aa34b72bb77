import Docbase.Document
import Docbase.Sql.Operand
import Docbase.Text.Split

/-!
# Fields of documents

A field is named by a path, its keys joined by points. Every statement that speaks of a field
finds its operand here, so that filters, orders, indexes and select lists agree on it.

* `Resolver.segments`: the keys of a path; neither the path nor a key may be empty.
* `Resolver.operand`: what a path stands for: a place in the document, or a physical column for a
  promoted path, one under `metadata`.
* `Resolver.bind`: a value as it is bound next to a path: JSON text beside a place in the document,
  itself beside a physical column.
-/

namespace Docbase

open Sql

/-- The member of a document whose members may be promoted to physical columns. -/
def metadataKey : String := "metadata"

/-- The start of a promoted path. -/
def metadataStart : String := metadataKey ++ "."

/-- How paths are resolved: whether metadata is promoted, and the column of the documents. -/
structure Resolver where
  promote : Bool
  base : String := docColumn
  deriving DecidableEq, Repr

namespace Resolver

variable (r : Resolver)

/-- The path names a physical column. -/
def isPromoted (path : String) : Bool :=
  r.promote && metadataStart.toList.isPrefixOf path.toList

/-- The physical column of a promoted path. -/
def columnName (path : String) : Except Cause Identifier :=
  Identifier.ofText (String.ofList (path.toList.drop metadataStart.length)) [("path", .str path)]

/-- The keys of a path. -/
def segments (path : String) : Except Cause (List String) :=
  if path.isEmpty then .error .emptyPath
  else
    let keys := Text.split '.' path
    if keys.any String.isEmpty then .error (.emptySegment path) else .ok keys

/-- All keys of a path but the last, and the last. -/
def splitParent (path : String) : Except Cause (List String × String) := do
  let keys ← segments path
  pure (keys.dropLast, keys.getLast?.getD "")

/-- What a path stands for. -/
def operand (path : String) : Except Cause Operand :=
  if r.isPromoted path then (columnName path).map .column
  else (segments path).map (.json r.base)

/-- What a path stands for as text. -/
def textOperand (path : String) : Except Cause Operand :=
  if r.isPromoted path then (columnName path).map .columnText
  else (splitParent path).map fun p => .jsonText r.base p.1 p.2

/-- Values beside the path are bound as JSON text. -/
def encodes (path : String) : Bool := !r.isPromoted path

/-- A value as JSON text. -/
def jsonText (v : Value) : Except Error Value :=
  ((encodeText v).mapError .misuse).map .str

/-- A value as it is bound beside a path. -/
def bind (value : Value) (path : String) : Except Error Value :=
  if r.encodes path then jsonText value else .ok value

end Resolver

end Docbase
