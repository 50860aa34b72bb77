/-!
# Quoted pieces of SQL

* `quoteLiteral`: a text as a string literal; a single quote inside is written twice.
* `quoteAlias`: a text as a quoted name; a double quote inside is written twice.
* `escapeLike`: a text as a pattern that matches it alone.
-/

namespace Docbase.Sql

/-- Every occurrence of one character written twice. -/
def doubled (mark : Char) : List Char → List Char
  | [] => []
  | c :: cs => if c = mark then mark :: mark :: doubled mark cs else c :: doubled mark cs

/-- Characters between marks, a mark among them written twice. -/
def quoted (mark : Char) (cs : List Char) : List Char :=
  mark :: (doubled mark cs ++ [mark])

/-- A text as a string literal. -/
def quoteLiteral (s : String) : String := String.ofList (quoted '\'' s.toList)

/-- A text as a quoted name. -/
def quoteAlias (s : String) : String := String.ofList (quoted '"' s.toList)

/-- One sign of patterns escaped, wherever it stands. -/
def escapeSign (sign : Char) (cs : List Char) : List Char :=
  cs.flatMap fun c => if c = sign then ['\\', c] else [c]

/-- A text as a pattern that matches it alone. The backslash comes first: those that the other signs
bring in are not escaped again. -/
def escapeLike (s : String) : String :=
  String.ofList (escapeSign '_' (escapeSign '%' (escapeSign '\\' s.toList)))

end Docbase.Sql
