import Docbase.Sql.Literal
import Docbase.Text.Lowercase
import Docbase.Text.Split
import Docbase.Value.Contents

/-!
# Names of collections

A collection is stored in a table whose name is that of the collection behind a common start; a
point in the name of the collection parts the schema from the rest. Names are folded to lower case.

* `split`: the schema and the rest of a name; without a point the schema is `public`.
* `tableName`: the table of a collection, with its schema if the name has one.
* `bareTableName`: the same without the schema.
-/

namespace Docbase.Collection

/-- The schema of collections that name none. -/
def defaultSchema : String := "public"

/-- The schema and the rest of a name. -/
def split (name : String) : String × String :=
  match Text.splitFirst '.' name with
  | some (schema, rest) => (Text.lower schema, Text.lower rest)
  | none => (defaultSchema, Text.lower name)

/-- The table of a collection. -/
def tableName (name start : String) : String :=
  match Text.splitFirst '.' name with
  | some (schema, rest) => Text.lower (schema ++ "." ++ start ++ rest)
  | none => Text.lower (start ++ name)

/-- The table of a collection, without its schema. -/
def bareTableName (name start : String) : String := Text.lower (start ++ (split name).2)

/-! ## Names given as values -/

/-- The schema and the rest of a name. -/
def splitOf (name : Value) : Except Misuse (String × String) :=
  match name with
  | .str s => .ok (split s)
  | v =>
    match v.holds "." with
    | .ok _ => .error .missingAttribute
    | .error m => .error m

/-- The table of a collection. A value without a point in it counts as its text. -/
def tableNameOf (name : Value) (start : String) : Except Misuse String :=
  match name with
  | .str s => .ok (tableName s start)
  | v =>
    match v.holds "." with
    | .ok true => .error .missingAttribute
    | .ok false => .ok (Text.lower (start ++ v.text))
    | .error m => .error m

/-- The table of a collection, without its schema. -/
def bareTableNameOf (name : Value) (start : String) : Except Misuse String :=
  (splitOf name).map fun p => Text.lower (start ++ p.2)

/-- The schema of a collection. -/
def schemaOf (name : Value) : Except Misuse String := (splitOf name).map (·.1)

end Docbase.Collection
