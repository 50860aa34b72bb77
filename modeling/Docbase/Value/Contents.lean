import Docbase.Error
import Docbase.Text.Search

/-!
# Contents of values

* `Value.holds`: a text is inside a value: a piece of a text, an element of a list, the name of a
  member of a mapping.
* `Value.member`: the member of that name.
* `Value.behind`: a text, a list or the like without its first items.
-/

namespace Docbase.Value

/-- The text is a piece of a text, an element of a list, or the name of a member. -/
def holds (v : Value) (s : String) : Except Misuse Bool :=
  match v with
  | .str t => .ok (Text.contains t s)
  | .list vs | .tuple vs => .ok (vs.any (·.same (.str s)))
  | .mapping es => .ok (Entries.has es (.str s))
  | .node .. => .ok false
  | _ => .error .wrongType

/-- The member of that name. -/
def member (v : Value) (name : String) : Except Misuse Value :=
  match v with
  | .mapping es =>
    match Entries.get? es (.str name) with
    | some w => .ok w
    | none => .error .missingKey
  | _ => .error .wrongType

/-- A value without its first items. -/
def behind (n : Nat) : Value → Except Misuse Value
  | .str s => .ok (.str (String.ofList (s.toList.drop n)))
  | .bytes bs => .ok (.bytes (bs.drop n))
  | .list vs => .ok (.list (vs.drop n))
  | .tuple vs => .ok (.tuple (vs.drop n))
  | _ => .error .wrongType

end Docbase.Value
