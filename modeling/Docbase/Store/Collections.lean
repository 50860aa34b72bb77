import Docbase.Index.Statements
import Docbase.Store.Writing
import Docbase.Value.Contents

/-!
# Collections of a store

* `addCollection`, `dropCollection`: make and drop the table of a collection, with its indexes.
* `addIndex`, `dropIndex`: make and drop an index.
* `hasCollection`, `hasIndex`: look them up in the catalog of the database.
* `listCollections`, `collectionsFrom`: the names of collections.
-/

namespace Docbase

open Sql

/-- The catalog of tables. -/
def tableCatalog : String := "information_schema.tables"

/-- The condition that a column of a catalog has a bound value. -/
def matchText (column param : String) : String := column ++ " = " ++ placeholder param

/-- Conditions that all hold. -/
def allOf (conditions : List String) : Scope := .condition (" AND ".intercalate conditions)

namespace Options

variable (o : Options)

/-- The schema of a name, if it names one. -/
def schemaOf? (collection : Value) : Except Error (Option String) :=
  match collection with
  | .str s => .ok ((Text.splitFirst '.' s).map fun p => Text.lower p.1)
  | _ => .ok none

/-- The statements that create indexes on a table, those of the first index first. -/
def indexStatements (table : String) : List (Given Index) → Except Cause (List String)
  | [] => .ok []
  | i :: rest => do
    let first ← Index.createStatementsOf table o.resolver i
    let others ← indexStatements table rest
    pure (first ++ others)

/-- Makes a collection with its indexes. -/
def addCollectionPlan (collection : Value) (indexes : List (Given Index)) :
    Except Error Plan := do
  let table ← o.table collection
  let schema ← schemaOf? collection
  let statements ← refuse (o.indexStatements table indexes)
  pure {
    commands := (schema.toList.map fun s => .plain (.createSchema s))
      ++ .plain (.createTable table o.idType) :: statements.map fun t => .plain (.index t)
    report := fun _ => "Collection '" ++ collection.text ++ "' created with "
      ++ toString indexes.length ++ " index(es)." }

/-- Makes an index. -/
def addIndexPlan (collection : Value) (index : Given Index) : Except Error Plan := do
  let table ← o.table collection
  let statements ← refuse (Index.createStatementsOf table o.resolver index)
  pure {
    commands := statements.map fun t => .plain (.index t)
    report := fun _ => "Index " ++ index.typeName Index.typeName ++ " added to collection '"
      ++ collection.text ++ "'." }

/-- Drops an index. -/
def dropIndexPlan (collection : Value) (index : Given Index) : Except Error Plan := do
  let schema ← (Collection.schemaOf collection).mapError .misuse
  let table ← o.table collection
  let statements ← refuse (Index.dropStatementsOf table schema index)
  let name ← refuse (Index.nameOf index)
  pure {
    commands := statements.map fun t => .plain (.index t)
    report := fun _ => "Index '" ++ name.getD "None" ++ "' dropped from collection '"
      ++ collection.text ++ "'." }

/-- The schema and the table of a collection, as they are bound in queries of the catalog. -/
def placeParams (collection : Value) : Except Error Params := do
  let schema ← (Collection.schemaOf collection).mapError .misuse
  let table ← (Collection.bareTableNameOf collection o.tableStart).mapError .misuse
  pure [("schema", .str schema), ("table", .str table)]

/-- Looks the table of a collection up. -/
def hasCollectionQuery (collection : Value) : Except Error Command := do
  let params ← o.placeParams collection
  pure (.bound (.select "table_name" tableCatalog
    (allOf [matchText "table_schema" "schema", matchText "table_name" "table"]) [] false false)
    params)

/-- The name of an index in lower case. -/
def lowerName : Value → Except Error Value
  | .str s => .ok (.str (Text.lower s))
  | .bytes bs => .ok (.bytes (bs.map fun b =>
      if 65 ≤ b.toNat && b.toNat ≤ 90 then b + 32 else b))
  | _ => .error (.misuse .missingAttribute)

/-- Looks an index of a collection up. -/
def hasIndexQuery (collection index : Value) : Except Error Command := do
  let params ← o.placeParams collection
  let name ← lowerName index
  pure (.bound (.select "indexname" "pg_indexes"
    (allOf [matchText "schemaname" "schema", matchText "tablename" "table",
      matchText "indexname" "index"]) [] false false)
    (params.put "index" name))

/-- Looks up the tables that match a pattern, in one schema or in all. -/
def tablesQuery (pattern : String) (schema : Option String) : Command :=
  let like := "table_name LIKE " ++ placeholder "pattern"
  let params : Params := [("pattern", .str pattern)]
  match schema with
  | none =>
    .bound (.select "table_schema, table_name" tableCatalog (allOf [like]) [] false false) params
  | some s =>
    .bound (.select "table_schema, table_name" tableCatalog
      (allOf [like, matchText "table_schema" "schema"]) [] false false)
      (params.put "schema" (.str s))

/-- The pattern of all names that start with a text. -/
def startPattern (start : String) : String := escapeLike (Text.lower start) ++ "%"

/-- Looks up the tables of all collections. -/
def allTablesQuery : Command := tablesQuery (startPattern o.tableStart) none

/-- Looks up the tables of the collections whose names start with a text. -/
def tablesFromQuery (start : Value) : Except Error Command :=
  match start with
  | .str s =>
    match Text.splitFirst '.' s with
    | some _ =>
      let (schema, rest) := Collection.split s
      .ok (tablesQuery (startPattern (o.tableStart ++ rest)) (some schema))
    | none => .ok (tablesQuery (startPattern (o.tableStart ++ s)) none)
  | v =>
    match v.holds "." with
    | .error m => .error (.misuse m)
    | .ok true => .error (.misuse .missingAttribute)
    | .ok false => .ok (tablesQuery (startPattern (o.tableStart ++ v.text)) none)

/-- The name of the collection of a table. -/
def collectionOfRow (row : Value) : Except Misuse Value := do
  let table ← row.member "table_name"
  let name ← table.behind (Text.lower o.tableStart).length
  let schema ← row.member "table_schema"
  if schema.same (.str Collection.defaultSchema) then pure name
  else pure (.str (schema.text ++ "." ++ name.text))

/-- The names of the collections of tables. -/
def collectionsOfRows : List Value → Except Misuse (List Value)
  | [] => .ok []
  | row :: rows => do
    let name ← o.collectionOfRow row
    let names ← collectionsOfRows rows
    pure (name :: names)

end Options

namespace Store

variable {σ : Type} [Engine σ]

/-- Makes a collection with its indexes. -/
def addCollection (collection : Value) (indexes : List (Given Index)) : Action σ Unit :=
  carryOut fun o => o.addCollectionPlan collection indexes

/-- Drops a collection. Its name is looked at only in the transaction. -/
def dropCollection (collection : Value) : Action σ Unit := do
  let o := (← get).options
  let _ ← transaction do
    let table ← given (o.table collection)
    execute (.plain (.dropTable table))
  announce ("Collection '" ++ collection.text ++ "' dropped.")

/-- Makes an index. -/
def addIndex (collection : Value) (index : Given Index) : Action σ Unit :=
  carryOut fun o => o.addIndexPlan collection index

/-- Drops an index. -/
def dropIndex (collection : Value) (index : Given Index) : Action σ Unit :=
  carryOut fun o => o.dropIndexPlan collection index

/-- The rows of a command that is worked out from the options. -/
def ask (query : Options → Except Error Command) : Action σ (List Value) := do
  let s ← get
  let c ← given (query s.options)
  fetchAll c

/-- The collection is there. -/
def hasCollection (collection : Value) : Action σ Bool := do
  let rows ← ask fun o => o.hasCollectionQuery collection
  pure !rows.isEmpty

/-- The index of the collection is there. -/
def hasIndex (collection index : Value) : Action σ Bool := do
  let rows ← ask fun o => o.hasIndexQuery collection index
  pure !rows.isEmpty

/-- The names of the collections whose tables a command finds. -/
def namesOf (query : Options → Except Error Command) : Action σ (List Value) := do
  let o := (← get).options
  let rows ← ask query
  given ((o.collectionsOfRows rows).mapError .misuse)

/-- The names of all collections. -/
def listCollections : Action σ (List Value) := namesOf fun o => .ok o.allTablesQuery

/-- The names of the collections that start with a text. -/
def collectionsFrom (start : Value) : Action σ (List Value) :=
  namesOf fun o => o.tablesFromQuery start

end Store

end Docbase
