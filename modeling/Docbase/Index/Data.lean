import Docbase.Index
import Docbase.Value.Contents

/-!
# Index declarations as data

A declaration can be written as a mapping and read back, so that it may live in a file.

* `Index.toData`: the mapping that describes a declaration.
* `Index.ofData`: the declaration that a mapping describes.
-/

namespace Docbase

open Sql

/-- The mapping that describes an index on one field. -/
def FieldIndex.toData (i : FieldIndex) : Value :=
  .object [("type", .str "field"), ("field", .str i.field), ("sort", .str i.direction.text),
    ("unique", .bool i.unique), ("name", IndexName.toValue i.name)]

/-- The mapping that describes an index on several fields. -/
def MultiFieldIndex.toData (i : MultiFieldIndex) : Value :=
  .object [("type", .str "multi_field"), ("fields", .list (i.fields.map FieldIndex.toData)),
    ("unique", .bool i.unique), ("name", IndexName.toValue i.name)]

/-- The mapping that describes an index given in SQL. -/
def RawIndex.toData (i : RawIndex) : Value :=
  .object [("type", .str "raw_sql"), ("sql", .str i.sql), ("name", IndexName.toValue i.name)]

/-- The mapping that describes a column. -/
def Column.toData (c : Column) : Value :=
  .object [("name", .str c.name.text), ("sql_type", .str c.type.text)]

/-- The mapping that describes an index without promoted columns. -/
def PlainIndex.toData : PlainIndex → Except Misuse Value
  | field i => .ok i.toData
  | multi i => .ok i.toData
  | raw i => .ok i.toData
  | unknown _ => .error .notImplemented

/-- The mapping that describes a declaration. -/
def Index.toData : Index → Except Misuse Value
  | plain i => i.toData
  | promoted i => do
    let inner ← i.inner.toData
    pure (.object [("type", .str "metadata_column"), ("index", inner),
      ("columns", .list (i.columns.map Column.toData))])

mutual

/-- How deep mappings and lists are nested in a value. -/
def Value.depth : Value → Nat
  | .list vs | .tuple vs => Value.depthAll vs + 1
  | .mapping es => Value.depthEntries es + 1
  | .node _ parts => Value.depthParts parts + 1
  | _ => 0

/-- The greatest depth among values. -/
def Value.depthAll : List Value → Nat
  | [] => 0
  | v :: vs => max v.depth (Value.depthAll vs)

/-- The greatest depth among members. -/
def Value.depthEntries : List (Key × Value) → Nat
  | [] => 0
  | (_, v) :: es => max v.depth (Value.depthEntries es)

/-- The greatest depth among parts. -/
def Value.depthParts : List (String × Value) → Nat
  | [] => 0
  | (_, v) :: parts => max v.depth (Value.depthParts parts)

end

namespace Index

/-- A member that the data of an index needs. -/
def requireKey (data : Value) (key : String) : Except Error Unit :=
  match data.holds key with
  | .error m => .error (.misuse m)
  | .ok true => .ok ()
  | .ok false =>
    match data with
    | .mapping es =>
      .error (.refused (.missingIndexKey key ((Entries.get? es (.str "type")).getD .null)))
    | _ => .error (.misuse .missingAttribute)

/-- A member that is known to be there. -/
def memberOf (data : Value) (key : String) : Except Error Value :=
  (data.member key).mapError .misuse

/-- A member, or what stands in for it. -/
def memberD (data : Value) (key : String) (default : Value) : Value :=
  match data with
  | .mapping es => (Entries.get? es (.str key)).getD default
  | _ => default

/-- The elements of a value that has to have some. -/
def elementsOf (v : Value) : Except Error (List Value) :=
  match v.elements? with
  | some vs => .ok vs
  | none => .error (.misuse .wrongType)

/-- The column that a mapping describes. -/
def columnOfData (data : Value) : Except Error Column := do
  requireKey data "name"
  requireKey data "sql_type"
  let name ← memberOf data "name"
  let type ← memberOf data "sql_type"
  (Column.of name type).toExcept

/-- The data of a field of a larger index: its kind is taken for granted. -/
def fieldData : Value → Except Error Value
  | .mapping es => .ok (.mapping (Entries.merge [(.str "type", .str "field")] es))
  | _ => .error (.misuse .wrongType)

/-- A field of a larger index: a path, or data of its own. -/
def partOfData (read : Value → Except Error Index) : Value → Except Error GivenField
  | .str s => .ok (.value (.str s))
  | part => do
    let index ← read (← fieldData part)
    pure (asField (.node index))

/-- The declaration that a mapping of at most so many levels describes. -/
def ofDataWithin : Nat → Value → Except Error Index
  | 0, _ => .error (.misuse .wrongType)
  | levels + 1, data => do
    requireKey data "type"
    let type ← memberOf data "type"
    match type with
    | .str "field" =>
      requireKey data "field"
      let field ← memberOf data "field"
      let index ← (FieldIndex.of field (memberD data "sort" (.str Direction.asc.text))
        (.bool (memberD data "unique" (.bool false)).truthy)
        (memberD data "name" .null)).toExcept
      pure (.plain (.field index))
    | .str "multi_field" =>
      requireKey data "fields"
      let parts ← elementsOf (← memberOf data "fields")
      let fields ← parts.mapM (partOfData (ofDataWithin levels))
      let index ← MultiFieldIndex.of fields
        (.bool (memberD data "unique" (.bool false)).truthy) (memberD data "name" .null)
      pure (.plain (.multi index))
    | .str "raw_sql" =>
      requireKey data "sql"
      let sql ← memberOf data "sql"
      let index ← (RawIndex.of sql (memberD data "name" .null)).toExcept
      pure (.plain (.raw index))
    | .str "metadata_column" =>
      requireKey data "index"
      requireKey data "columns"
      let parts ← elementsOf (← memberOf data "columns")
      let columns ← parts.mapM columnOfData
      let inner ← ofDataWithin levels (← memberOf data "index")
      let index ← (PromotedIndex.of (.node inner) columns).toExcept
      pure (.promoted index)
    | type => throw (.refused (.unknownIndex type))

/-- The declaration that a mapping describes. -/
def ofData (data : Value) : Except Error Index := ofDataWithin (data.depth + 1) data

end Index

end Docbase
