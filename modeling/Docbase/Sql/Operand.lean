import Docbase.Sql.Identifier
import Docbase.Sql.Literal

/-!
# Operands

What a condition, a sort key, an index key or a select list may speak of: the id column, a
physical column, or a place inside a JSON column.

* `Operand.text`: an operand in SQL. A place is reached with one arrow for each key on the way.
-/

namespace Docbase.Sql

/-- What a statement speaks of. -/
inductive Operand
  /-- The id of the document. -/
  | id
  /-- A physical column. -/
  | column (name : Identifier)
  /-- A physical column as text. -/
  | columnText (name : Identifier)
  /-- The place behind some keys in a JSON column. -/
  | json (base : String) (keys : List String)
  /-- The text at the place behind some keys in a JSON column. -/
  | jsonText (base : String) (keys : List String) (last : String)
  deriving DecidableEq

/-- The arrows that lead along the keys. -/
def arrows : List String → String
  | [] => ""
  | key :: keys => "->" ++ quoteLiteral key ++ arrows keys

/-- The name of the id column. -/
def idColumn : String := "id"

/-- The name of the column that holds the documents. -/
def docColumn : String := "doc"

/-- The operand in SQL. -/
def Operand.text : Operand → String
  | id => idColumn
  | column name => name.text
  | columnText name => name.text ++ "::text"
  | json base keys => base ++ arrows keys
  | jsonText base keys last => base ++ arrows keys ++ "->>" ++ quoteLiteral last

end Docbase.Sql
