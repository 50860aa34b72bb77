import Docbase.Value

/-!
# Bound parameters

The values bound to a statement, by placeholder name, in the order in which they were bound.

* `Params.put`: binds a name; a name that is bound again keeps its place and takes the new value.
* `Params.merge`: binds all names of a second list.
* `placeholder`: the text that stands for a name in a statement.
-/

namespace Docbase.Sql

/-- Values by placeholder name. -/
abbrev Params := List (String × Value)

namespace Params

/-- The value bound to a name. -/
def get? (params : Params) (name : String) : Option Value :=
  (params.find? (·.1 == name)).map (·.2)

/-- Binds a name. -/
def put : Params → String → Value → Params
  | [], name, value => [(name, value)]
  | (n, v) :: rest, name, value =>
    if n = name then (n, value) :: rest else (n, v) :: put rest name value

/-- Binds all names of a second list. -/
def merge (params more : Params) : Params :=
  more.foldl (fun ps p => put ps p.1 p.2) params

/-- The bound names, in order. -/
def names (params : Params) : List String := params.map (·.1)

end Params

/-- The text that stands for a bound name in a statement. -/
def placeholder (name : String) : String := "%(" ++ name ++ ")s"

end Docbase.Sql
