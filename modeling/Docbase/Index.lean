import Docbase.Input.Given
import Docbase.Input.Reading
import Docbase.Sql.Direction
import Docbase.Sql.Identifier

/-!
# Index declarations

An index covers one field of the documents, several fields in a row, or is given in SQL. On top of
that a declaration may promote members of the metadata to physical columns, which the index then
covers.

* `FieldIndex.of`, `MultiFieldIndex.of`, `RawIndex.of`, `PromotedIndex.of` check the parts that a
  caller gives; each names the first refusal, or else all faults.
* `Index.toValue`: an index where a plain value is due.
-/

namespace Docbase

open Sql Input

/-- The name of an index. -/
abbrev IndexName := Option Identifier

/-- A name that may be absent, as a value. -/
def IndexName.toValue : IndexName → Value
  | none => .null
  | some n => .str n.text

/-- A name that may be absent. -/
def readIndexName (v : Value) : Checked IndexName :=
  (readText? v).andThen fun
    | none => .ok none
    | some s => .ofExcept
      (((Identifier.ofText s [("kind", .str "index name")]).map some).mapError .refused)

/-- An index on one field. -/
structure FieldIndex where
  field : String
  direction : Direction
  unique : Bool
  name : IndexName
  deriving DecidableEq

/-- An index on one field as a value. -/
def FieldIndex.toValue (i : FieldIndex) : Value :=
  .node "FieldIndex" [("field", .str i.field), ("sort", .str i.direction.text),
    ("unique", .bool i.unique), ("name", IndexName.toValue i.name)]

/-- An index on one field, from its parts. -/
def FieldIndex.of (field direction unique name : Value) : Checked FieldIndex :=
  ((((readText field).named "field").both ((Direction.read direction).named "sort")).both
    (((readBool unique).named "unique").both ((readIndexName name).named "name"))).map
      fun p => ⟨p.1.1, p.1.2, p.2.1, p.2.2⟩

/-- An index on one field with nothing else said. -/
def FieldIndex.plain (field : Value) : Checked FieldIndex :=
  FieldIndex.of field (.str Direction.asc.text) (.bool false) .null

/-- An index on several fields in a row. -/
structure MultiFieldIndex where
  fields : List FieldIndex
  unique : Bool
  name : IndexName
  nonempty : fields ≠ []
  deriving DecidableEq

/-- What a caller gives as a field of an index. -/
abbrev GivenField := Given FieldIndex

/-- A field of an index, from what is given. -/
def GivenField.read : GivenField → Except Error FieldIndex
  | .node f => .ok f
  | .value v => (FieldIndex.plain v).toExcept

/-- There has to be a field. -/
def checkFields (fields : List FieldIndex) : Checked { fs : List FieldIndex // fs ≠ [] } :=
  if h : fields ≠ [] then .ok ⟨fields, h⟩ else .refused (.refused .noIndexFields)

/-- An index on several fields, from its parts. -/
def MultiFieldIndex.of (fields : List GivenField) (unique name : Value) :
    Except Error MultiFieldIndex := do
  let fields ← fields.mapM GivenField.read
  (((checkFields fields).both (((readBool unique).named "unique").both
    ((readIndexName name).named "name"))).map
      fun p => (⟨p.1.1, p.2.1, p.2.2, p.1.2⟩ : MultiFieldIndex)).toExcept

/-- An index given in SQL. -/
structure RawIndex where
  sql : String
  name : IndexName
  deriving DecidableEq

/-- An index given in SQL, from its parts. -/
def RawIndex.of (sql name : Value) : Checked RawIndex :=
  (((readText sql).named "sql").both ((readIndexName name).named "name")).map
    fun p => ⟨p.1, p.2⟩

/-- The text is the type of a column: not empty, without blanks around it, and without the mark
that ends a statement. -/
def isColumnType (s : String) : Bool :=
  !s.isEmpty && !s.toList.contains ';' && Text.strip s == s

/-- The type of a column. -/
structure ColumnType where
  text : String
  valid : isColumnType text = true
  deriving DecidableEq

/-- The type of a column, blanks around it being dropped. -/
def ColumnType.ofText (s : String) : Except Cause ColumnType :=
  if h : isColumnType (Text.strip s) = true then .ok ⟨Text.strip s, h⟩
  else .error (.invalidColumnType s)

/-- A physical column. -/
structure Column where
  name : Identifier
  type : ColumnType
  deriving DecidableEq

/-- A physical column, from its parts. -/
def Column.of (name type : Value) : Checked Column :=
  ((((readText name).andThen fun s => .ofExcept
      ((Identifier.ofText s [("kind", .str "metadata column")]).mapError .refused)).named
        "name").both
    (((readText type).andThen fun s => .ofExcept ((ColumnType.ofText s).mapError .refused)).named
      "sql_type")).map fun p => ⟨p.1, p.2⟩

/-- A column as a value. -/
def Column.toValue (c : Column) : Value :=
  .node "Column" [("name", .str c.name.text), ("sql_type", .str c.type.text)]

/-- A column as it is declared in SQL. -/
def Column.text (c : Column) : String := c.name.text ++ " " ++ c.type.text

/-- An index without promoted columns. -/
inductive PlainIndex
  | field (index : FieldIndex)
  | multi (index : MultiFieldIndex)
  | raw (index : RawIndex)
  | unknown (typeName : String)
  deriving DecidableEq

/-- An index, and the columns that are promoted for it. -/
structure PromotedIndex where
  inner : PlainIndex
  columns : List Column
  nonempty : columns ≠ []
  deriving DecidableEq

/-- An index declaration. -/
inductive Index
  | plain (index : PlainIndex)
  | promoted (index : PromotedIndex)
  deriving DecidableEq

namespace PlainIndex

/-- The name of an index. -/
def name : PlainIndex → IndexName
  | field i => i.name
  | multi i => i.name
  | raw i => i.name
  | unknown _ => none

/-- The name of an index's kind. -/
def typeName : PlainIndex → String
  | field _ => "FieldIndex"
  | multi _ => "MultiFieldIndex"
  | raw _ => "RawSqlIndex"
  | unknown name => name

/-- An index as a value. -/
def toValue : PlainIndex → Value
  | field i => i.toValue
  | multi i => .node "MultiFieldIndex" [("field_indexes", .tuple (i.fields.map FieldIndex.toValue)),
      ("unique", .bool i.unique), ("name", IndexName.toValue i.name)]
  | raw i => .node "RawSqlIndex" [("sql", .str i.sql), ("name", IndexName.toValue i.name)]
  | unknown name => .node name []

end PlainIndex

namespace Index

/-- An index that says nothing, and has no meaning. -/
def blank : Index := plain (.unknown "Index")

instance : Inhabited Index := ⟨blank⟩

/-- The name of an index. -/
def name : Index → IndexName
  | plain i => i.name
  | promoted i => i.inner.name

/-- The name of an index's kind. -/
def typeName : Index → String
  | plain i => i.typeName
  | promoted _ => "MetadataColumnIndex"

/-- An index as a value. -/
def toValue : Index → Value
  | plain i => i.toValue
  | promoted i => .node "MetadataColumnIndex" [("index", i.inner.toValue),
      ("columns", .tuple (i.columns.map Column.toValue))]

/-- An index on one field, to be used as a field of a larger one. -/
def asField : Given Index → GivenField
  | .node (plain (.field f)) => .node f
  | .node i => .value i.toValue
  | .value v => .value v

end Index

/-- Columns are promoted for an index that promotes none itself. -/
def checkInner : Index → Checked PlainIndex
  | .plain i => .ok i
  | .promoted _ => .refused (.refused .nestedPromotion)

/-- There has to be a column. -/
def checkColumns (columns : List Column) : Checked { cs : List Column // cs ≠ [] } :=
  if h : columns ≠ [] then .ok ⟨columns, h⟩ else .refused (.refused .noColumns)

/-- An index with promoted columns, from its parts. -/
def PromotedIndex.of (inner : Given Index) (columns : List Column) : Checked PromotedIndex :=
  ((((inner.read .blank).andThen checkInner).named "index").both (checkColumns columns)).map
    fun p => ⟨p.1, p.2.1, p.2.2⟩

end Docbase
