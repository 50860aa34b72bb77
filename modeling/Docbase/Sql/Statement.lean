import Docbase.Filter.Condition
import Docbase.Order.SortKey

/-!
# Statements

The statements that a store sends to the database, and their text.

* `Statement.text`: a statement in SQL.
* `Command`: a statement with the values bound to its placeholders.
-/

namespace Docbase.Sql

/-- The rows that a statement is about. -/
inductive Scope
  /-- All rows. -/
  | all
  /-- The row of the bound id. -/
  | byId
  /-- The rows on which a condition holds. -/
  | condition (text : String)
  deriving DecidableEq, Repr

/-- The rows that a clause means. -/
def Scope.ofClause (c : Clause) : Scope :=
  match c.text with
  | none => all
  | some text => condition text

/-- The scope in SQL. -/
def Scope.text : Scope → String
  | all => ""
  | byId => "WHERE " ++ idColumn ++ " = " ++ placeholder "id"
  | condition text => "WHERE " ++ text

/-- The name under which the value of a promoted column is bound. -/
def columnParam (column : Identifier) : String := "meta_" ++ column.text

/-- What an update does to a column. -/
inductive Assignment
  /-- The bound document takes the place of the stored one. -/
  | replaceDoc
  /-- The members of the bound document are put into the stored one. -/
  | mergeDoc
  /-- A promoted column takes the bound value. -/
  | column (name : Identifier)
  deriving DecidableEq

/-- An assignment in SQL. -/
def Assignment.text : Assignment → String
  | replaceDoc => docColumn ++ " = " ++ placeholder "doc"
  | mergeDoc => docColumn ++ " = (to_jsonb(" ++ docColumn ++ ") || CAST(" ++ placeholder "doc"
      ++ " AS JSONB))"
  | column name => name.text ++ " = " ++ placeholder (columnParam name)

/-- A statement of a store. -/
inductive Statement
  /-- Makes a schema unless it is there. -/
  | createSchema (name : String)
  /-- Makes the table of a collection. -/
  | createTable (table idType : String)
  /-- Drops the table of a collection. -/
  | dropTable (table : String)
  /-- A statement about an index, as it is. -/
  | index (text : String)
  /-- Adds a document, with its promoted columns. -/
  | insert (table : String) (columns : List Identifier)
  /-- Changes documents. -/
  | update (table : String) (assignments : List Assignment) (scope : Scope)
  /-- Removes documents. -/
  | delete (table : String) (scope : Scope)
  /-- Reads rows, sorted, with a limit or with rows skipped. -/
  | select (items table : String) (scope : Scope) (keys : List SortKey) (limited skipped : Bool)

/-- The parts of a statement that are not empty, with blanks between them. -/
def joinParts (parts : List String) : String :=
  " ".intercalate (parts.filter fun part => !part.isEmpty)

/-- Texts with commas between them. -/
def commaList (texts : List String) : String := ", ".intercalate texts

/-- A statement in SQL. -/
def Statement.text : Statement → String
  | createSchema name => "CREATE SCHEMA IF NOT EXISTS " ++ name
  | createTable table idType =>
    "CREATE TABLE " ++ table ++ " (" ++ idColumn ++ " " ++ idType ++ ", " ++ docColumn
      ++ " JSONB NOT NULL, PRIMARY KEY (" ++ idColumn ++ "))"
  | dropTable table => "DROP TABLE " ++ table
  | index text => text
  | insert table columns =>
    "INSERT INTO " ++ table ++ " ("
      ++ commaList (idColumn :: docColumn :: columns.map (·.text)) ++ ") VALUES ("
      ++ commaList (placeholder "id" :: placeholder "doc"
        :: columns.map fun c => placeholder (columnParam c)) ++ ")"
  | update table assignments scope =>
    joinParts ["UPDATE " ++ table ++ " SET " ++ commaList (assignments.map Assignment.text),
      scope.text]
  | delete table scope => joinParts ["DELETE FROM " ++ table, scope.text]
  | select items table scope keys limited skipped =>
    joinParts ["SELECT " ++ items ++ " FROM " ++ table, scope.text, orderByText keys,
      if limited then "LIMIT " ++ placeholder "limit" else "",
      if skipped then "OFFSET " ++ placeholder "offset" else ""]

/-- A statement and the values bound to it; some statements take none. -/
structure Command where
  statement : Statement
  params : Option Params

/-- The text of a command. -/
def Command.text (c : Command) : String := c.statement.text

/-- A command without bound values. -/
def Command.plain (statement : Statement) : Command := ⟨statement, none⟩

/-- A command with bound values. -/
def Command.bound (statement : Statement) (params : Params) : Command := ⟨statement, some params⟩

end Docbase.Sql
