import Docbase.Input.Reading
import Docbase.Json.Decode
import Docbase.Json.Encode

/-!
# Documents

* `Document.ofValue`: the members of a document, which has to be a mapping.
* `encodeText`, `decodeText`: a value as JSON text, and the value of a JSON text.
* `decodeColumn`: a JSON value as it comes out of a row: a text or bytes are read, anything else
  is the value already.
-/

namespace Docbase

/-- The members of what is given as a document. -/
def Document.ofValue : Value → Except Cause Entries
  | .mapping es => .ok es
  | v => .error (.notADocument v.typeName)

/-- How a value without a JSON text is refused. -/
def Json.Obstacle.misuse : Json.Obstacle → Misuse
  | .noForm => .wrongType
  | .tooManyDigits => .badNumber

/-- The JSON text of a value. -/
def encodeText (v : Value) : Except Misuse String := (Json.encode v).mapError Json.Obstacle.misuse

/-- The value of a JSON text. -/
def decodeText (s : String) : Except Misuse Value :=
  match Json.decode (some digitLimit) s with
  | .ok v => .ok v
  | .error .malformed => .error .malformedJson
  | .error .tooManyDigits => .error .badNumber

/-- A JSON value as it comes out of a row. -/
def decodeColumn : Value → Except Misuse Value
  | .str s => decodeText s
  | .bytes bs =>
    match Input.utf8Text? bs with
    | some s => decodeText s
    | none => .error .malformedUtf8
  | v => .ok v

end Docbase
