import Docbase.Input.Reading
import Docbase.Text.Lowercase

/-!
# Sort directions

* `Direction.ofValue`: the direction of a value, by its text in any case.
* `Direction.read`: the direction that is given for a field, which has to be a text.
-/

namespace Docbase.Sql

/-- Ascending or descending. -/
inductive Direction
  | asc
  | desc
  deriving DecidableEq, Repr, Inhabited

namespace Direction

/-- A direction in SQL. -/
def text : Direction → String
  | asc => "ASC"
  | desc => "DESC"

/-- The direction of a value, by its text in any case. -/
def ofValue (v : Value) : Except Cause Direction :=
  let word := Text.lower v.text
  if word = "asc" then .ok asc
  else if word = "desc" then .ok desc
  else .error (.invalidDirection v)

/-- A direction by its name. -/
def read (v : Value) : Checked Direction :=
  (Input.readText v).andThen fun s => .ofExcept ((ofValue (.str s)).mapError .refused)

end Direction

end Docbase.Sql
