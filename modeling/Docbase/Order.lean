import Docbase.Input.Given
import Docbase.Input.Reading
import Docbase.Sql.Direction

/-!
# Orders

An order says how documents are sorted: by fields and ids, each ascending or descending, the later
ones breaking the ties of the earlier.

* `Order`: the tree of an order.
* `Order.fieldOf`, `Order.idOf`, `Order.thenOf` check the parts that a caller gives.
* `Order.toValue`: an order where a plain value is due.
-/

namespace Docbase

open Sql

/-- The tree of an order. -/
inductive Order
  /-- By a field. -/
  | field (path : String) (direction : Direction)
  /-- By the id of the document. -/
  | id (direction : Direction)
  /-- By the first order, and by the second where the first finds no difference. -/
  | both (a b : Order)
  /-- An order of a kind without meaning. -/
  | unknown (typeName : String)
  deriving DecidableEq, Inhabited

namespace Order

/-- An order that says nothing, and has no meaning. -/
def blank : Order := unknown "OrderBy"

/-- The name of an order's kind. -/
def typeName : Order → String
  | field _ .asc => "Asc"
  | field _ .desc => "Desc"
  | id _ => "DocIdOrder"
  | both .. => "AndOrder"
  | unknown name => name

/-- An order as a value. -/
def toValue (o : Order) : Value :=
  match o with
  | field path _ => .node o.typeName [("prop", .str path)]
  | id direction => .node o.typeName [("direction", .str direction.text)]
  | both a b => .node o.typeName [("a", a.toValue), ("b", b.toValue)]
  | unknown _ => .node o.typeName []

open Input

/-- By a field in a direction. -/
def fieldOf (direction : Direction) (path : Value) : Checked Order :=
  ((readText path).named "prop").map (field · direction)

/-- By the id of the document; ascending if no direction is given. -/
def idOf (direction : Option Value) : Checked Order :=
  match direction with
  | none => .ok (id .asc)
  | some d => ((Direction.read d).named "direction").map id

/-- An order that is part of another. -/
def readPart (name : String) (part : Given Order) : Checked Order :=
  (part.read blank).named name

/-- By the first order, then by the second. -/
def thenOf (a b : Given Order) : Checked Order :=
  ((readPart "a" a).both (readPart "b" b)).map fun p => both p.1 p.2

end Order

end Docbase
