import Docbase.Input.Reading

/-!
# Selections

A selection says which fields of a document are wanted, and under which alias each of them goes
into the answer. An alias is a path of its own; the alias `$merge` puts the members of a selected
object straight into the answer.

* `Selection.ofValue`: the selection that a mapping or a list of pairs describes.
* `Selection.select`, `Selection.merge`: one more entry.
* `Selection.toValue`: a selection where a plain value is due.
-/

namespace Docbase

/-- A field that is wanted under an alias. -/
structure Selection.Entry where
  aliasName : String
  field : String
  deriving DecidableEq, Repr, Inhabited

/-- The wanted fields, in order. -/
structure Selection where
  entries : List Selection.Entry
  deriving DecidableEq, Repr, Inhabited

namespace Selection

/-- The alias of objects whose members go straight into the answer. -/
def mergeAlias : String := "$merge"

open Input

/-- The items of a pair. -/
def readPair (items : List Value) : Checked Entry :=
  match items with
  | [a, f] =>
    (((readText a).within (.item 0)).both ((readText f).within (.item 1))).map
      fun p => ⟨p.1, p.2⟩
  | [a] => (((readText a).within (.item 0)).both
      (Checked.within (.item 1) (.fault .missing : Checked String))).map fun p => ⟨p.1, p.2⟩
  | [] => .faulty [⟨[.item 0], .missing⟩, ⟨[.item 1], .missing⟩]
  | _ => .fault .tooLong

/-- Neither alias nor field may be empty. -/
def checkFilled (entries : List Entry) : Checked (List Entry) :=
  match entries.find? fun e => e.aliasName.isEmpty || e.field.isEmpty with
  | none => .ok entries
  | some e => .fault (.refused ("Alias and field must be non-empty, got alias="
      ++ Text.quote e.aliasName ++ " field=" ++ Text.quote e.field))

/-- The selection of some pairs, each given by its items. -/
def ofPairs (pairs : List (List Value)) : Checked Selection :=
  (((Checked.items readPair 0 pairs).andThen checkFilled).named "entries").map (⟨·⟩)

/-- The pairs that a mapping or a list describes. -/
def pairsOf (v : Value) : Except Misuse (List (List Value)) :=
  match v with
  | .mapping es => .ok (es.map fun e => [e.1.toValue, e.2])
  | v =>
    match v.elements? with
    | none => .error .wrongType
    | some pairs => pairs.mapM fun pair =>
      match pair.elements? with
      | some items => .ok items
      | none => .error .wrongType

/-- The selection that a mapping or a list of pairs describes. -/
def ofValue (v : Value) : Except Error Selection :=
  match pairsOf v with
  | .ok pairs => (ofPairs pairs).toExcept
  | .error m => .error (.misuse m)

/-- The selection of nothing. -/
def empty : Selection := ⟨[]⟩

/-- A selection as a value. -/
def toValue (s : Selection) : Value :=
  .node "PartialSelect" [("entries", .tuple (s.entries.map fun e =>
    .tuple [.str e.aliasName, .str e.field]))]

/-- The pairs of a selection. -/
def pairs (s : Selection) : List (List Value) :=
  s.entries.map fun e => [.str e.aliasName, .str e.field]

/-- One more field under an alias. -/
def select (s : Selection) (field name : Value) : Except Error Selection :=
  (ofPairs (s.pairs ++ [[name, field]])).toExcept

/-- One more object whose members go straight into the answer. -/
def merge (s : Selection) (field : Value) : Except Error Selection :=
  s.select field (.str mergeAlias)

end Selection

end Docbase
