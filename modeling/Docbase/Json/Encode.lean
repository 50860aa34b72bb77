import Docbase.Number.Shortest
import Docbase.Text.Digit
import Docbase.Text.Quoted
import Docbase.Value

/-!
# Values as JSON text

Members in their order, a blank after each comma and colon, and all characters but the quote, the
backslash and the control characters as themselves.

* `Json.encode`: the JSON text of a value, or why there is none. Bytes, identifiers, nodes and
  member names that are neither texts, numbers, truth values nor null have no form in JSON, and whole
  numbers of too many digits are not written.
-/

namespace Docbase.Json

/-- Why a value has no text. -/
inductive Obstacle
  | noForm
  | tooManyDigits
  deriving DecidableEq, Repr

/-- Numbers in JSON text: as in messages, with the usual words for the special ones. -/
def numberLayout : FloatLayout where
  leadingZeros := 3
  wholeDigits := 16
  exponentDigits := 2
  nan := "NaN"
  infinity := "Infinity"

/-- A character inside a JSON string. -/
def escapeChar (c : Char) : List Char :=
  if c = '"' then ['\\', '"']
  else if c = '\\' then ['\\', '\\']
  else if c = '\n' then ['\\', 'n']
  else if c = '\r' then ['\\', 'r']
  else if c = '\t' then ['\\', 't']
  else if c.toNat = 8 then ['\\', 'b']
  else if c.toNat = 12 then ['\\', 'f']
  else if c.toNat < 32 then '\\' :: 'u' :: Text.hexDigits 4 c.toNat
  else [c]

/-- A JSON string. -/
def stringChars (cs : List Char) : List Char :=
  '"' :: (cs.flatMap escapeChar ++ ['"'])

/-- A whole number in decimal. -/
def wholeChars (i : Int) : Except Obstacle (List Char) :=
  if digitLimit < (Nat.toDigits 10 i.natAbs).length then .error .tooManyDigits
  else .ok (toString i).toList

/-- The member name written for a key. -/
def memberName : Key → Except Obstacle (List Char)
  | .null => .ok "null".toList
  | .bool b => .ok (if b then "true" else "false").toList
  | .int i => wholeChars i
  | .float x => .ok (numberLayout.text x).toList
  | .str s => .ok s.toList
  | .bytes _ | .uuid _ | .tuple _ => .error .noForm

/-- Written items, with a comma and a blank between them. -/
def joined : List (List Char) → List Char
  | [] => []
  | [item] => item
  | item :: items => item ++ ',' :: ' ' :: joined items

mutual

/-- The JSON text of a value, as characters. -/
def encodeChars : Value → Except Obstacle (List Char)
  | .null => .ok "null".toList
  | .bool b => .ok (if b then "true" else "false").toList
  | .int i => wholeChars i
  | .float x => .ok (numberLayout.text x).toList
  | .str s => .ok (stringChars s.toList)
  | .list vs | .tuple vs => do
    let items ← encodeItems vs
    pure ('[' :: (joined items ++ [']']))
  | .mapping es => do
    let members ← encodeMembers es
    pure ('\x7b' :: (joined members ++ ['\x7d']))
  | .bytes _ | .uuid _ | .node .. => .error .noForm

/-- The JSON texts of values. The first that has none stops them all. -/
def encodeItems : List Value → Except Obstacle (List (List Char))
  | [] => .ok []
  | v :: vs => do
    let item ← encodeChars v
    let items ← encodeItems vs
    pure (item :: items)

/-- The JSON texts of members, each with its name in front. -/
def encodeMembers : List (Key × Value) → Except Obstacle (List (List Char))
  | [] => .ok []
  | (k, v) :: es => do
    let name ← memberName k
    let value ← encodeChars v
    let members ← encodeMembers es
    pure ((stringChars name ++ ':' :: ' ' :: value) :: members)

end

/-- The JSON text of a value. -/
def encode (v : Value) : Except Obstacle String := (encodeChars v).map String.ofList

end Docbase.Json
