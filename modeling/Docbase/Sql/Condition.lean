import Docbase.Sql.Operand
import Docbase.Sql.Params

/-!
# Conditions

What stands behind `WHERE`: tests of operands against bound values, joined by `AND`, `OR` and
`NOT`. The bound values are named `a0`, `a1` and so on from left to right.

* `Condition.print`: a condition in SQL from a first number on, with the values that it binds and
  the next free number.
-/

namespace Docbase.Sql

/-- The operators between an operand and a bound value. -/
inductive Operator
  | eq
  | gt
  | ge
  | lt
  | le
  | like
  | contains
  deriving DecidableEq, Repr

/-- An operator in SQL. -/
def Operator.symbol : Operator → String
  | eq => "="
  | gt => ">"
  | ge => ">="
  | lt => "<"
  | le => "<="
  | like => "ILIKE"
  | contains => "@>"

/-- A condition on a row. -/
inductive Condition
  /-- Both conditions hold. -/
  | both (a b : Condition)
  /-- One of the conditions holds. -/
  | either (a b : Condition)
  /-- The condition does not hold. -/
  | negate (inner : Condition)
  /-- The operand stands in the relation to the bound value. -/
  | test (operand : Operand) (operator : Operator) (value : Value)
  /-- The operand is one of the bound values, or none of them. -/
  | among (operand : Operand) (values : List Value) (negated : Bool)
  /-- The column is not null. -/
  | filled (column : Identifier)
  /-- The place inside a JSON column has a member of that name. -/
  | hasKey (base : String) (keys : List String) (key : String)

/-- A condition in SQL, with the values that it binds and the next free number. -/
structure Printed where
  text : String
  params : Params
  next : Nat

/-- The name of the bound value of a number. -/
def paramName (number : Nat) : String := "a" ++ toString number

/-- Binds values under the numbers from `number` on. -/
def bindAll (params : Params) (number : Nat) : List Value → Params
  | [] => params
  | v :: vs => bindAll (params.put (paramName number) v) (number + 1) vs

/-- The placeholders of as many bound values as `values` from `number` on. -/
def placeholders (number : Nat) (values : List Value) : String :=
  ", ".intercalate ((List.range' number values.length).map fun n => placeholder (paramName n))

/-- A set test in SQL. No value is in the empty set. -/
def printAmong (operand : Operand) (values : List Value) (negated : Bool) (number : Nat) :
    Printed :=
  if values.isEmpty then ⟨if negated then "1 = 1" else "1 != 1", [], number⟩
  else
    ⟨operand.text ++ (if negated then " NOT IN(" else " IN(") ++ placeholders number values ++ ")",
      bindAll [] number values, number + values.length⟩

/-- Two conditions in SQL, joined in brackets. -/
def Printed.join (connector : String) (a b : Printed) : Printed :=
  ⟨"(" ++ a.text ++ " " ++ connector ++ " " ++ b.text ++ ")", a.params.merge b.params, b.next⟩

/-- The condition in SQL. Its bound values are numbered from `number` on. -/
def Condition.print : Condition → Nat → Printed
  | both a b, number =>
    let left := a.print number
    left.join "AND" (b.print left.next)
  | either a b, number =>
    let left := a.print number
    left.join "OR" (b.print left.next)
  | negate inner, number =>
    let printed := inner.print number
    ⟨"NOT " ++ printed.text, printed.params, printed.next⟩
  | test operand operator value, number =>
    ⟨operand.text ++ " " ++ operator.symbol ++ " " ++ placeholder (paramName number),
      [(paramName number, value)], number + 1⟩
  | among operand values negated, number => printAmong operand values negated number
  | filled column, number => ⟨column.text ++ " IS NOT NULL", [], number⟩
  | hasKey base keys key, number =>
    ⟨"JSONB_EXISTS(" ++ base ++ arrows keys ++ ", " ++ quoteLiteral key ++ ")", [], number⟩

end Docbase.Sql
