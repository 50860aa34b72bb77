import Docbase.Field
import Docbase.Index

/-!
# Statements for indexes

* `Index.createStatements`: the statements that create an index on a table, in order: first the
  promoted columns, then the index.
* `Index.dropStatements`: the statements that drop an index and then the columns promoted for it.
-/

namespace Docbase

open Sql

/-- A field of an index in SQL. -/
def FieldIndex.keyText (r : Resolver) (f : FieldIndex) : Except Cause String := do
  let operand ← r.operand f.field
  pure ("(" ++ operand.text ++ ")" ++ if f.direction = .desc then " " ++ f.direction.text else "")

/-- The fields of an index in SQL. -/
def keyTexts (r : Resolver) : List FieldIndex → Except Cause (List String)
  | [] => .ok []
  | f :: fs => do
    let key ← f.keyText r
    let keys ← keyTexts r fs
    pure (key :: keys)

/-- The statement that creates an index on some keys. -/
def createText (table : String) (unique : Bool) (name : IndexName) (keys : List String) : String :=
  "CREATE " ++ (if unique then "UNIQUE INDEX" else "INDEX")
    ++ (match name with
      | none => ""
      | some n => " " ++ n.text)
    ++ " ON " ++ table ++ " (" ++ ", ".intercalate keys ++ ")"

/-- The statements that create an index without promoted columns. -/
def PlainIndex.createStatements (table : String) (r : Resolver) :
    PlainIndex → Except Cause (List String)
  | raw i => .ok [i.sql]
  | field i => do
    let key ← i.keyText r
    pure [createText table i.unique i.name [key]]
  | multi i => do
    let keys ← keyTexts r i.fields
    pure [createText table i.unique i.name keys]
  | unknown name => .error (.unknownIndex (.str name))

namespace Index

/-- The statements that create an index. The fields of an index with promoted columns are resolved
as promoted ones. -/
def createStatements (table : String) (r : Resolver) : Index → Except Cause (List String)
  | plain i => i.createStatements table r
  | promoted i => do
    let rest ← i.inner.createStatements table { promote := true }
    let columns := i.columns.map fun c => "ADD COLUMN " ++ c.text
    pure (("ALTER TABLE " ++ table ++ " " ++ ", ".intercalate columns) :: rest)

/-- The statements that create what is given as an index. -/
def createStatementsOf (table : String) (r : Resolver) :
    Given Index → Except Cause (List String)
  | .node i => i.createStatements table r
  | given => .error (.unknownIndex (.str (given.typeName typeName)))

/-- The name of what is given as an index; a text is a name itself. -/
def nameOf : Given Index → Except Cause (Option String)
  | .node i => .ok (i.name.map (·.text))
  | .value (.str s) => (Identifier.ofText s [("kind", .str "index name")]).map fun n => some n.text
  | _ => .ok none

/-- The promoted columns of what is given as an index. -/
def columnsOf : Given Index → List Column
  | .node (promoted i) => i.columns
  | _ => []

/-- The statements that drop what is given as an index. -/
def dropStatementsOf (table schema : String) (given : Given Index) :
    Except Cause (List String) := do
  match ← nameOf given with
  | none => throw (.unnamedIndex (given.typeName typeName) table)
  | some name =>
    let columns := columnsOf given
    let drops := columns.map fun c => "DROP COLUMN " ++ c.name.text
    pure (("DROP INDEX " ++ schema ++ "." ++ name)
      :: if columns.isEmpty then []
        else ["ALTER TABLE " ++ table ++ " " ++ ", ".intercalate drops])

end Index

end Docbase
