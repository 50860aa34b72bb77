import Docbase.Input.Reading
import Docbase.Text.Lowercase

/-!
# Settings

Where the database is and how a store lays out its tables.

* `Settings.toMembers`, `Settings.assign`: the settings by name, and a change of one.
* `Settings.read`: the settings from what the caller says, the environment and a settings file. The
  caller wins over the environment, the environment over the file, the file over the defaults.
-/

namespace Docbase

/-- Where the database is and how a store lays out its tables. -/
structure Settings where
  host : String := "localhost"
  port : String := "5432"
  database : String := "docstore"
  user : String := "postgres"
  password : String := "postgres"
  tableStart : String := "em_ds_"
  idType : String := "UUID NOT NULL"
  transactional : Bool := true
  promote : Bool := false
  batch : Int := 2000
  logLevel : String := "INFO"
  deriving DecidableEq, Repr, Inhabited

namespace Settings

/-- Texts by name; of two of one name the later counts. -/
abbrev Named := List (String × String)

/-- The text of a name, whatever the case of its letters. -/
def Named.find? (texts : Named) (name : String) : Option String :=
  let wanted := Text.lower name
  (texts.reverse.find? fun t => Text.lower t.1 == wanted).map (·.2)

/-- Where the value of a setting comes from. -/
structure Sources where
  caller : List (String × Value) := []
  environment : Named := []
  file : Named := []

/-- What the caller says under a name: in just this spelling, or else in any case of its letters. -/
def Sources.callerValue? (sources : Sources) (name : String) : Option Value :=
  match sources.caller.find? (·.1 == name) with
  | some (_, v) => some v
  | none =>
    let wanted := Text.lower name
    (sources.caller.reverse.find? fun c => Text.lower c.1 == wanted).map (·.2)

/-- The value of a setting, if any source has one. -/
def Sources.value? (sources : Sources) (name : String) : Option Value :=
  match sources.callerValue? name with
  | some v => some v
  | none =>
    match Named.find? sources.environment name with
    | some s => some (.str s)
    | none => (Named.find? sources.file name).map .str

/-- The settings by name. -/
def toMembers (s : Settings) : List (String × Value) :=
  [("PG_HOST", .str s.host), ("PG_PORT", .str s.port), ("PG_DBNAME", .str s.database),
    ("PG_USER", .str s.user), ("PG_PASSWORD", .str s.password),
    ("DOCSTORE_TABLE_PREFIX", .str s.tableStart), ("DOCSTORE_DOC_ID_SCHEMA", .str s.idType),
    ("DOCSTORE_TRANSACTIONAL", .bool s.transactional),
    ("DOCSTORE_USE_METADATA_COLUMNS", .bool s.promote),
    ("DOCSTORE_CURSOR_ITERSIZE", .int s.batch), ("LOG_LEVEL", .str s.logLevel)]

/-- The settings with a text changed. -/
def assignText (s : Settings) (name text : String) : Settings :=
  match name with
  | "PG_HOST" => { s with host := text }
  | "PG_PORT" => { s with port := text }
  | "PG_DBNAME" => { s with database := text }
  | "PG_USER" => { s with user := text }
  | "PG_PASSWORD" => { s with password := text }
  | "DOCSTORE_TABLE_PREFIX" => { s with tableStart := text }
  | "DOCSTORE_DOC_ID_SCHEMA" => { s with idType := text }
  | "LOG_LEVEL" => { s with logLevel := text }
  | _ => s

/-- The settings with one of them changed. No text counts as the empty one; a value of another kind
changes nothing. -/
def assign (s : Settings) (name : String) (v : Value) : Settings :=
  match name, v with
  | "DOCSTORE_TRANSACTIONAL", .bool b => { s with transactional := b }
  | "DOCSTORE_USE_METADATA_COLUMNS", .bool b => { s with promote := b }
  | "DOCSTORE_CURSOR_ITERSIZE", .int i => { s with batch := i }
  | name, .str text => s.assignText name text
  | name, .null => s.assignText name ""
  | _, _ => s

open Input

variable {α : Type}

/-- A setting, or its default. -/
def Sources.read (sources : Sources) (name : String) (check : Value → Checked α) (default : α) :
    Checked α :=
  match sources.value? name with
  | none => .ok default
  | some v => (check v).named name

/-- The settings from their sources. -/
def read (sources : Sources) : Checked Settings :=
  let d : Settings := {}
  let connection := (((sources.read "PG_HOST" readText d.host).both
    (sources.read "PG_PORT" readText d.port)).both
    ((sources.read "PG_DBNAME" readText d.database).both
      ((sources.read "PG_USER" readText d.user).both
        (sources.read "PG_PASSWORD" readText d.password))))
  let layout := (((sources.read "DOCSTORE_TABLE_PREFIX" readText d.tableStart).both
    (sources.read "DOCSTORE_DOC_ID_SCHEMA" readText d.idType)).both
    (((sources.read "DOCSTORE_TRANSACTIONAL" readBool d.transactional).both
      (sources.read "DOCSTORE_USE_METADATA_COLUMNS" readBool d.promote)).both
        ((sources.read "DOCSTORE_CURSOR_ITERSIZE" readInt d.batch).both
          (sources.read "LOG_LEVEL" readText d.logLevel))))
  (connection.both layout).map fun
    | (((host, port), (database, (user, password))),
        ((tableStart, idType), ((transactional, promote), (batch, logLevel)))) =>
      { host, port, database, user, password, tableStart, idType, transactional, promote, batch,
        logLevel }

end Settings

end Docbase
