import Docbase.Field
import Docbase.Filter
import Docbase.Sql.Condition

/-!
# Filters as conditions

* `Filter.condition`: the condition that a filter stands for. Without one, the fault that comes
  first in the tree from left to right is reported; a negated conjunction, disjunction or negation
  counts as a fault of its own.
* `Filter.clause`: the condition in SQL with the values that it binds; the filter for every
  document has none.
* `Clause.whereText`: the clause behind `WHERE`.
-/

namespace Docbase

open Sql

/-- The operator of a comparison. -/
def Comparison.operator : Comparison → Operator
  | equal => .eq
  | greater => .gt
  | atLeast => .ge
  | less => .lt
  | atMost => .le

namespace Filter

variable (r : Resolver)

/-- Values as they are bound beside a path, the first one first. -/
def bindValues (path : String) : List Value → Except Error (List Value)
  | [] => .ok []
  | v :: vs => do
    let bound ← r.bind v path
    let rest ← bindValues path vs
    pure (bound :: rest)

/-- A filter without parts, as a condition. Only the set tests know a negated form. -/
def leafCondition (negated : Bool) : Filter → Except Error Condition
  | compare comparison path value => do
    let operand ← refuse (r.operand path)
    let bound ← r.bind value path
    pure (.test operand comparison.operator bound)
  | like path pattern => do
    let operand ← refuse (r.textOperand path)
    pure (.test operand .like pattern)
  | contains path element => do
    let operand ← refuse (r.operand path)
    let bound ← Resolver.jsonText (.list [element])
    pure (.test operand .contains bound)
  | present path =>
    if r.isPromoted path then do
      let column ← refuse (Resolver.columnName path)
      pure (.filled column)
    else do
      let (keys, key) ← refuse (Resolver.splitParent path)
      pure (.hasKey r.base keys key)
  | id value => .ok (.test .id .eq (.str value))
  | idIn values => .ok (.among .id (values.map .str) negated)
  | oneOf path values => do
    let operand ← refuse (r.operand path)
    let bound ← bindValues r path values
    pure (.among operand bound negated)
  | f => .error (.refused (.unknownFilter f.typeName))

/-- The condition that a filter stands for. -/
def condition : Filter → Except Error Condition
  | any => .error (.refused .nestedAny)
  | both a b => do
    let left ← condition a
    let right ← condition b
    pure (.both left right)
  | either a b => do
    let left ← condition a
    let right ← condition b
    pure (.either left right)
  | negate (both a b) => .error (.refused (.negatedComposite (both a b).typeName))
  | negate (either a b) => .error (.refused (.negatedComposite (either a b).typeName))
  | negate (negate a) => .error (.refused (.negatedComposite (negate a).typeName))
  | negate any => .error (.refused .nestedAny)
  | negate (idIn values) => leafCondition r true (idIn values)
  | negate (oneOf path values) => leafCondition r true (oneOf path values)
  | negate f => do
    let inner ← leafCondition r false f
    pure (.negate inner)
  | f => leafCondition r false f

end Filter

/-- What a filter adds to a statement: a condition in SQL, if any, and the values it binds. -/
structure Clause where
  text : Option String
  params : Params

namespace Clause

/-- The clause behind `WHERE`; nothing if there is no condition. -/
def whereText (c : Clause) : String :=
  match c.text with
  | none => ""
  | some text => "WHERE " ++ text

end Clause

namespace Filter

/-- The clause of a filter. -/
def clause (r : Resolver) : Filter → Except Error Clause
  | any => .ok ⟨none, []⟩
  | f => do
    let condition ← f.condition r
    let printed := condition.print 0
    pure ⟨some printed.text, printed.params⟩

/-- The clause of what is given as a filter. -/
def clauseOf (r : Resolver) : Given Filter → Except Error Clause
  | .node f => f.clause r
  | given => .error (.notAFilter (given.typeName typeName))

end Filter

end Docbase
