import Docbase.Number.Shortest
import Docbase.Text.Quoted
import Docbase.Value

/-!
# Values as text

* `Value.display`: a value as it stands in messages and logs, texts in quotes.
* `Value.text`: the same, but a text is itself, an identifier its canonical text, and a node its
  parts alone.
-/

namespace Docbase

/-- Numbers in messages: positional from four places behind the point to sixteen before it. -/
def displayLayout : FloatLayout where
  leadingZeros := 3
  wholeDigits := 16
  exponentDigits := 2
  nan := "nan"
  infinity := "inf"

/-- Items between brackets; a tuple of one item ends in a comma. -/
def bracketed (opening closing : String) (items : List String) : String :=
  opening ++ ", ".intercalate items ++ closing

/-- The text of a tuple's items. -/
def tupleText : List String → String
  | [item] => "(" ++ item ++ ",)"
  | items => bracketed "(" ")" items

mutual

/-- A member name in a message. -/
def Key.display : Key → String
  | .null => "None"
  | .bool b => if b then "True" else "False"
  | .int i => toString i
  | .float x => displayLayout.text x
  | .str s => Text.quote s
  | .bytes bs => Text.quoteBytes bs
  | .uuid u => "UUID('" ++ u.text ++ "')"
  | .tuple ks => tupleText (Key.displayAll ks)

/-- Member names in a message. -/
def Key.displayAll : List Key → List String
  | [] => []
  | k :: ks => k.display :: Key.displayAll ks

end

mutual

/-- A value in a message. -/
def Value.display : Value → String
  | .null => "None"
  | .bool b => if b then "True" else "False"
  | .int i => toString i
  | .float x => displayLayout.text x
  | .str s => Text.quote s
  | .bytes bs => Text.quoteBytes bs
  | .uuid u => "UUID('" ++ u.text ++ "')"
  | .list vs => bracketed "[" "]" (Value.displayAll vs)
  | .tuple vs => tupleText (Value.displayAll vs)
  | .mapping es => bracketed "\x7b" "\x7d" (Value.displayEntries es)
  | .node kind parts => bracketed (kind ++ "(") ")" (Value.displayParts parts)

/-- Values in a message. -/
def Value.displayAll : List Value → List String
  | [] => []
  | v :: vs => v.display :: Value.displayAll vs

/-- Members in a message. -/
def Value.displayEntries : List (Key × Value) → List String
  | [] => []
  | (k, v) :: es => (k.display ++ ": " ++ v.display) :: Value.displayEntries es

/-- The parts of a node in a message. -/
def Value.displayParts : List (String × Value) → List String
  | [] => []
  | (n, v) :: parts => (n ++ "=" ++ v.display) :: Value.displayParts parts

end

/-- A value as plain text. -/
def Value.text : Value → String
  | .str s => s
  | .uuid u => u.text
  | .node _ parts => " ".intercalate (Value.displayParts parts)
  | v => v.display

end Docbase
