import Docbase.Field
import Docbase.Order

/-!
# Orders as sort keys

* `Order.sortKeys`: the sort keys of an order, the first one first.
* `orderByText`: sort keys in SQL, behind `ORDER BY`; no sort keys give no text.
-/

namespace Docbase

open Sql

/-- An operand to sort by, and the direction. -/
structure SortKey where
  operand : Operand
  direction : Direction
  deriving DecidableEq

/-- A sort key in SQL. -/
def SortKey.text (k : SortKey) : String := k.operand.text ++ " " ++ k.direction.text

/-- Sort keys in SQL. -/
def orderByText (keys : List SortKey) : String :=
  if keys.isEmpty then "" else "ORDER BY " ++ ", ".intercalate (keys.map SortKey.text)

namespace Order

/-- The sort keys of an order, or the first fault from the left. -/
def sortKeys (r : Resolver) : Order → Except Cause (List SortKey)
  | both a b => do
    let first ← sortKeys r a
    let second ← sortKeys r b
    pure (first ++ second)
  | id direction => .ok [⟨.id, direction⟩]
  | field path direction => do
    let operand ← r.operand path
    pure [⟨operand, direction⟩]
  | unknown name => .error (.unknownOrder name)

/-- The sort keys of what is given as an order. -/
def sortKeysOf (r : Resolver) : Given Order → Except Cause (List SortKey)
  | .node order => order.sortKeys r
  | given => .error (.unknownOrder (given.typeName typeName))

/-- The sort keys of what may be given as an order; nothing given has none. -/
def optionalKeysOf (r : Resolver) : Given Order → Except Cause (List SortKey)
  | .value .null => .ok []
  | given => sortKeysOf r given

end Order

end Docbase
