import Docbase.Text.Digit
import Docbase.Text.Printable

/-!
# Quoted text

How texts and bytes are shown inside messages: in single quotes, or in double quotes if the text
has a single quote and no double one; the quote in use, the backslash and everything that is not
printable is escaped.

* `quote`: a text in quotes.
* `quoteBytes`: bytes in quotes, behind a `b`.
-/

namespace Docbase.Text

/-- A number in hexadecimal with at least `width` digits. -/
def hexDigits (width n : Nat) : List Char := padded 16 width n

/-- The escape of a character by its number, in the shortest of three forms. -/
def numberEscape (n : Nat) : List Char :=
  if n < 0x100 then '\\' :: 'x' :: hexDigits 2 n
  else if n < 0x10000 then '\\' :: 'u' :: hexDigits 4 n
  else '\\' :: 'U' :: hexDigits 8 n

/-- A double quote is used for a text with a single quote and without a double one. -/
def quoteMark (cs : List Char) : Char :=
  if cs.contains '\'' && !cs.contains '"' then '"' else '\''

/-- A character between quotes of the given kind. -/
def escapeChar (mark : Char) (printable : Char → Bool) (c : Char) : List Char :=
  if c = mark || c = '\\' then ['\\', c]
  else if c = '\n' then ['\\', 'n']
  else if c = '\r' then ['\\', 'r']
  else if c = '\t' then ['\\', 't']
  else if printable c then [c]
  else numberEscape c.toNat

/-- Characters in quotes. -/
def quoteChars (printable : Char → Bool) (cs : List Char) : List Char :=
  let mark := quoteMark cs
  mark :: cs.flatMap (escapeChar mark printable) ++ [mark]

/-- A text in quotes. -/
def quote (s : String) : String := String.ofList (quoteChars isPrintable s.toList)

/-- Bytes in quotes; only the printable ones of ASCII are shown as characters. -/
def quoteBytes (bs : List UInt8) : String :=
  "b" ++ String.ofList (quoteChars (fun c => ' ' ≤ c && c ≤ '~')
    (bs.map fun b => Char.ofNat b.toNat))

end Docbase.Text
