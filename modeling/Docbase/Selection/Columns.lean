import Docbase.Document
import Docbase.Field.Given
import Docbase.Input.Given
import Docbase.Selection
import Docbase.Value.Contents

/-!
# Selections as columns of a row

A selection is sent to the database as a list of columns. Their labels are numbered, so that no
alias of a caller reaches a statement; the row that comes back is put together again by the labels.

* `Selection.columns`: the columns of a selection; aliases that look like labels are refused.
* `Selection.listText`: the list of columns in SQL, the id of the document first.
* `Selection.assemble`: the document that a row stands for. A point in an alias opens an object,
  and what is missing in the row is null.
-/

namespace Docbase

open Sql

namespace Selection

/-- The label of the document's id. -/
def idLabel : String := "__partial_sel_doc_id__"

/-- The start of the labels of objects whose members go straight into the answer. -/
def mergeLabel : String := "__partial_sel_merge__"

/-- The start of the other labels. -/
def fieldLabel : String := "__partial_sel_field__"

/-- The alias looks like a label. -/
def isReserved (name : String) : Bool :=
  name == idLabel || mergeLabel.toList.isPrefixOf name.toList
    || fieldLabel.toList.isPrefixOf name.toList

/-- An entry and the label of its column. -/
structure Column where
  entry : Entry
  label : String
  deriving DecidableEq, Repr

/-- The members of the selected object go straight into the answer. -/
def Entry.isMerge (e : Entry) : Bool := e.aliasName == mergeAlias

/-- The label of the entry at a position. -/
def label (e : Entry) (position : Nat) : String :=
  (if e.isMerge then mergeLabel else fieldLabel) ++ toString position

/-- The columns of entries from a position on. -/
def columnsFrom (position : Nat) : List Entry → Except Cause (List Column)
  | [] => .ok []
  | e :: es =>
    if isReserved e.aliasName then .error (.reservedAlias e.aliasName (.str e.field))
    else do
      let rest ← columnsFrom (position + 1) es
      pure (⟨e, label e position⟩ :: rest)

/-- The columns of a selection. -/
def columns (s : Selection) : Except Cause (List Column) := columnsFrom 0 s.entries

variable (r : Resolver)

/-- A field as an item of the list of columns: JSON as text, a physical column as it is. -/
def itemText (field : String) : Except Cause String := do
  let operand ← r.operand field
  if r.isPromoted field then pure operand.text
  else pure ("(" ++ operand.text ++ ")::text")

/-- Columns with their labels. -/
def itemTexts : List Column → Except Cause (List String)
  | [] => .ok []
  | c :: cs => do
    let item ← itemText r c.entry.field
    let rest ← itemTexts cs
    pure ((item ++ " AS " ++ quoteAlias c.label) :: rest)

/-- The list of columns in SQL. -/
def listText (s : Selection) : Except Cause String := do
  let cs ← s.columns
  let items ← itemTexts r cs
  pure (", ".intercalate ((idColumn ++ " AS " ++ quoteAlias idLabel) :: items))

/-- The members with a value at the end of a way of names; what stands in the way and is no
mapping is replaced. -/
def setPath (members : Entries) : List String → Value → Entries
  | [], _ => members
  | [name], value => Entries.put members (.str name) value
  | name :: names, value =>
    let inner : Entries :=
      match Entries.get? members (.str name) with
      | some (.mapping es) => es
      | _ => []
    Entries.put members (.str name) (.mapping (setPath inner names value))

/-- The value of a column in a row. -/
def cell (row : Entries) (c : Column) : Except Misuse Value :=
  let stored := (Entries.get? row (.str c.label)).getD .null
  if r.isPromoted c.entry.field then .ok stored else decodeColumn stored

/-- The members with the value of a column added. -/
def place (members : Entries) (c : Column) (value : Value) : Except Error Entries :=
  if c.entry.isMerge then
    match value with
    | .null => .ok members
    | .mapping es => .ok (Entries.merge members es)
    | v => .error (.refused (.mergeNotObject c.entry.field v))
  else .ok (setPath members (Text.split '.' c.entry.aliasName) value)

/-- The members with the values of columns added one by one. -/
def assembleFrom (row : Entries) (members : Entries) : List Column → Except Error Entries
  | [] => .ok members
  | c :: cs => do
    let value ← (cell r row c).mapError .misuse
    let members ← place members c value
    assembleFrom row members cs

/-- The document that a row stands for. -/
def assemble (s : Selection) (row : Value) : Except Error Value := do
  match s.columns with
  | .error c => throw (.refused c)
  | .ok cs =>
    match row with
    | .mapping es => return .mapping (← assembleFrom r es [] cs)
    | _ => if cs.isEmpty then pure (.mapping []) else throw (.misuse .missingAttribute)

/-- The id of the document that a row stands for. -/
def docId (row : Value) : Except Misuse Value := row.member idLabel

/-- The alias that a member of a mapping stands under. -/
def aliasOfMember : Key × Value → Except Error String
  | (.str name, field) =>
    if isReserved name then .error (.refused (.reservedAlias name field)) else .ok name
  | (.bytes _, _) => .error (.misuse .wrongType)
  | _ => .error (.misuse .missingAttribute)

/-- The field that a member of a mapping selects. -/
def fieldOfMember (member : Key × Value) : Except Error String := do
  let _ ← r.operandOf member.2
  match member.2 with
  | .str field => pure field
  | _ => throw (.misuse .wrongType)

/-- What is given as a selection. A mapping of texts is read as its entries; its aliases are looked
at first, then its fields. -/
def ofGiven : Given Selection → Except Error Selection
  | .node s => .ok s
  | .value (.mapping es) => do
    let names ← es.mapM aliasOfMember
    let fields ← es.mapM (fieldOfMember r)
    pure ⟨List.zipWith Entry.mk names fields⟩
  | _ => .error (.misuse .missingAttribute)

end Selection

end Docbase
