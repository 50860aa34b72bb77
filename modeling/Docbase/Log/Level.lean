import Docbase.Error

/-!
# Log levels

* `Level.ofName`: the level of a name in any case; unknown names count as `INFO`.
-/

namespace Docbase.Log

/-- How grave a record is. -/
inductive Level
  | debug
  | info
  | warning
  | error
  | critical
  deriving DecidableEq, Repr, Inhabited

namespace Level

/-- The name of a level. -/
def name : Level → String
  | debug => "DEBUG"
  | info => "INFO"
  | warning => "WARNING"
  | error => "ERROR"
  | critical => "CRITICAL"

/-- The number of a level. -/
def number : Level → Nat
  | debug => 10
  | info => 20
  | warning => 30
  | error => 40
  | critical => 50

/-- A letter in upper case. Besides those of ASCII, only the dotless `ı` has an upper-case form in
ASCII. -/
def upperChar (c : Char) : Char := if c = 'ı' then 'I' else c.toUpper

/-- The level of a name in any case. -/
def ofName (name : String) : Level :=
  let word := String.ofList (name.toList.map upperChar)
  ([critical, error, warning, info, debug].find? (·.name == word)).getD info

/-- The level of what is given as a name; nothing given counts as an unknown name. -/
def ofValue : Value → Except Misuse Level
  | .str s => .ok (ofName s)
  | .bytes _ => .ok info
  | v => if v.truthy then .error .missingAttribute else .ok info

end Level

end Docbase.Log
