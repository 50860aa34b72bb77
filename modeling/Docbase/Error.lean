import Docbase.Value.Text

/-!
# Errors

Everything that can stop an operation, by its cause.

* `Cause`: what the library itself refuses; `Cause.report` gives the words.
* `Report`: a category, a headline and details by name; `Report.message` is its one-line form.
* `Fault`: a part of a declaration that is not of the kind it should be.
* `EngineError`: what the database engine reports; it passes through unchanged.
* `Misuse`: a value of a kind that the operation at hand has no meaning for.
-/

namespace Docbase

/-- The families of reported errors. -/
inductive Category
  | general
  | configuration
  | invalidArgument
  | missingConfig
  | unsupported
  | unsupportedFilter
  | unsupportedOrder
  | unsupportedIndex
  | validation
  | invalidField
  | connection
  deriving DecidableEq, Repr, Inhabited

namespace Category

/-- All categories. -/
def all : List Category :=
  [general, configuration, invalidArgument, missingConfig, unsupported, unsupportedFilter,
    unsupportedOrder, unsupportedIndex, validation, invalidField, connection]

/-- The name under which a category is reported. -/
def name : Category → String
  | general => "DocStoreError"
  | configuration => "ConfigurationError"
  | invalidArgument => "InvalidArgumentError"
  | missingConfig => "MissingConfigError"
  | unsupported => "UnsupportedConstructError"
  | unsupportedFilter => "UnsupportedFilterError"
  | unsupportedOrder => "UnsupportedOrderByError"
  | unsupportedIndex => "UnsupportedIndexError"
  | validation => "ValidationError"
  | invalidField => "InvalidFieldError"
  | connection => "ConnectionError"

/-- The category of a name. -/
def ofName? (name : String) : Option Category := all.find? (·.name == name)

/-- The category next above. -/
def parent? : Category → Option Category
  | general => none
  | invalidArgument | missingConfig => some configuration
  | unsupportedFilter | unsupportedOrder | unsupportedIndex => some unsupported
  | invalidField => some validation
  | configuration | unsupported | validation | connection => some general

/-- The steps up to the top. -/
def depth : Category → Nat
  | general => 0
  | configuration | unsupported | validation | connection => 1
  | _ => 2

theorem depth_of_parent? {c p : Category} (h : c.parent? = some p) : p.depth < c.depth := by
  revert h
  cases c <;> cases p <;> simp [parent?, depth]

/-- A category and those above it, the nearest first. -/
def lineage (c : Category) : List Category :=
  match _h : c.parent? with
  | none => [c]
  | some p => c :: lineage p
termination_by c.depth
decreasing_by exact depth_of_parent? (by assumption)

end Category

/-- A reported error: a headline, and details by name. -/
structure Report where
  category : Category
  headline : String
  details : List (String × Value) := []
  deriving Inhabited

namespace Report

/-- The details as `name=value`, with commas. -/
def detailText (r : Report) : String :=
  ", ".intercalate (r.details.map fun d => d.1 ++ "=" ++ d.2.display)

/-- The one-line form: the headline, with the details in brackets behind it. -/
def message (r : Report) : String :=
  if r.details.isEmpty then r.headline
  else if r.headline.isEmpty then r.detailText
  else r.headline ++ " (" ++ r.detailText ++ ")"

/-- The form that shows category, headline and details apart. -/
def describe (r : Report) : String :=
  r.category.name ++ "(message=" ++ Text.quote r.headline ++ ", details="
    ++ (Value.object r.details).display ++ ")"

end Report

/-- A value of a kind that the operation at hand has no meaning for. -/
inductive Misuse
  | wrongType
  | missingAttribute
  | missingKey
  | badNumber
  | numberTooLarge
  | malformedJson
  | malformedUtf8
  | notImplemented
  deriving DecidableEq, Repr, Inhabited

/-- The report of a headline and details, as a caller names them. A detail of the name `message` is
the headline if no other is given; the report itself is no detail. -/
def Report.ofParts (category : Category) (headline : Option String)
    (details : List (String × Value)) : Except Misuse Report :=
  let named := details.find? (·.1 == "message")
  if details.any (·.1 == "self") || (headline.isSome && named.isSome) then .error .wrongType
  else .ok {
    category
    headline := headline.getD ((named.map (·.2.text)).getD "")
    details := details.filter (·.1 != "message") }

/-- A step on the way to a part of a declaration. -/
inductive Place
  | field (name : String)
  | item (index : Nat)
  deriving DecidableEq, Repr

/-- What is wrong with a part of a declaration. -/
inductive FaultKind
  | notText
  | notUtf8
  | notList
  | notNode
  | missing
  | tooLong
  | notBool
  | unreadableBool
  | notInt
  | unreadableInt
  | hugeInt
  | fractionalInt
  | notFinite
  | refused (reason : String)
  deriving DecidableEq, Repr

namespace FaultKind

/-- The code under which a fault is reported. -/
def code : FaultKind → String
  | notText => "string_type"
  | notUtf8 => "string_unicode"
  | notList => "list_type"
  | notNode => "model_type"
  | missing => "missing"
  | tooLong => "too_long"
  | notBool => "bool_type"
  | unreadableBool => "bool_parsing"
  | notInt => "int_type"
  | unreadableInt => "int_parsing"
  | hugeInt => "int_parsing_size"
  | fractionalInt => "int_from_float"
  | notFinite => "finite_number"
  | refused _ => "value_error"

/-- The words of a fault that has its own. -/
def message? : FaultKind → Option String
  | refused reason => some ("Value error, " ++ reason)
  | _ => none

end FaultKind

/-- A part of a declaration that is not of the kind it should be. -/
structure Fault where
  place : List Place
  kind : FaultKind
  deriving DecidableEq, Repr

/-- The kinds of errors of the database engine. The foreign ones come from below it and are none
of its own. -/
inductive EngineErrorKind
  | integrity
  | programming
  | operational
  | data
  | foreign
  deriving DecidableEq, Repr, Inhabited

namespace EngineErrorKind

/-- The name of a kind of engine error. -/
def name : EngineErrorKind → String
  | integrity => "IntegrityError"
  | programming => "ProgrammingError"
  | operational => "OperationalError"
  | data => "DataError"
  | foreign => "Injected"

/-- The kind of a name. -/
def ofName? (name : String) : Option EngineErrorKind :=
  [integrity, programming, operational, data, foreign].find? (·.name == name)

end EngineErrorKind

/-- An error of the database engine. -/
structure EngineError where
  kind : EngineErrorKind
  text : String
  deriving DecidableEq, Repr, Inhabited

/-- The engine itself reports it, so a transaction that it hits is lost. -/
def EngineError.isOwn (e : EngineError) : Bool := e.kind != .foreign

/-- What the library itself refuses. -/
inductive Cause
  | emptyPath
  | emptySegment (path : String)
  | invalidIdentifier (name : Value) (context : List (String × Value))
  | invalidDirection (direction : Value)
  | invalidPage (name : String) (value : Value)
  | notADocument (typeName : String)
  | metadataNotObject (typeName : String)
  | nestedAny
  | negatedComposite (typeName : String)
  | unknownFilter (typeName : String)
  | unknownOrder (typeName : String)
  | unknownIndex (type : Value)
  | reservedAlias (name : String) (field : Value)
  | mergeNotObject (field : String) (value : Value)
  | missingIndexKey (key : String) (type : Value)
  | noIndexFields
  | noColumns
  | nestedPromotion
  | invalidColumnType (text : String)
  | unnamedIndex (typeName table : String)
  | databaseNotSet
  | connectFailed (database host port user reason : String)

/-- The report on a cause. -/
def Cause.report : Cause → Report
  | emptyPath => ⟨.invalidArgument, "Field path must not be empty", []⟩
  | emptySegment path =>
    ⟨.invalidArgument, "Field path contains an empty segment", [("path", .str path)]⟩
  | invalidIdentifier name context =>
    ⟨.invalidField, "Invalid SQL identifier", ("field", name) :: context⟩
  | invalidDirection direction =>
    ⟨.invalidArgument, "Invalid sort direction",
      [("direction", direction), ("expected", .str "ASC|DESC")]⟩
  | invalidPage name value =>
    ⟨.invalidArgument, "'" ++ name ++ "' must be a non-negative integer", [(name, value)]⟩
  | notADocument typeName =>
    ⟨.invalidField, "Document must be a mapping of string keys",
      [("expected_type", .str "dict"), ("got", .str typeName)]⟩
  | metadataNotObject typeName =>
    ⟨.invalidField, "Metadata must be an object",
      [("field", .str "metadata"), ("got", .str typeName)]⟩
  | nestedAny =>
    ⟨.configuration, "AnyFilter cannot be used together with other filters.", []⟩
  | negatedComposite typeName =>
    ⟨.configuration, "Not filter cannot be combined with a non prop filter!",
      [("inner_type", .str typeName)]⟩
  | unknownFilter typeName =>
    ⟨.unsupportedFilter, "Unsupported filter type", [("filter_type", .str typeName)]⟩
  | unknownOrder typeName =>
    ⟨.unsupportedOrder, "Unsupported order by type", [("order_by_type", .str typeName)]⟩
  | unknownIndex type => ⟨.unsupportedIndex, "Unsupported index type", [("index_type", type)]⟩
  | reservedAlias name field =>
    ⟨.configuration, "Alias is reserved for internal use",
      [("alias", .str name), ("field", field)]⟩
  | mergeNotObject field value =>
    ⟨.invalidField, "Merge not possible, selected value is not an object",
      [("field", .str field), ("value", value)]⟩
  | missingIndexKey key type =>
    ⟨.invalidArgument, "Missing key in index data", [("key", .str key), ("index_type", type)]⟩
  | noIndexFields => ⟨.invalidArgument, "MultiFieldIndex needs at least one field", []⟩
  | noColumns => ⟨.invalidArgument, "MetadataColumnIndex needs at least one column", []⟩
  | nestedPromotion =>
    ⟨.invalidArgument, "MetadataColumnIndex cannot wrap another MetadataColumnIndex", []⟩
  | invalidColumnType text =>
    ⟨.invalidArgument, "Invalid column type", [("sql_type", .str text)]⟩
  | unnamedIndex typeName table =>
    ⟨.invalidArgument, "Cannot drop an index without a name",
      [("index_type", .str typeName), ("table", .str table)]⟩
  | databaseNotSet =>
    ⟨.missingConfig, "PG_DBNAME is not set. Set it via environment variable or .env file.",
      [("config_key", .str "PG_DBNAME")]⟩
  | connectFailed database host port user reason =>
    ⟨.connection, "PostgreSQL connection failed",
      [("database", .str database), ("host", .str host), ("port", .str port), ("user", .str user),
        ("original_error", .str reason)]⟩

/-- Everything that can stop an operation. -/
inductive Error
  | refused (cause : Cause)
  | invalid (faults : List Fault)
  | notAFilter (typeName : String)
  | engine (e : EngineError)
  | misuse (m : Misuse)

instance : Inhabited Error := ⟨.misuse .wrongType⟩

/-- A refusal as an error. -/
def refuse {α : Type} : Except Cause α → Except Error α
  | .ok a => .ok a
  | .error c => .error (.refused c)

/-- The words of an error that has its own. -/
def Error.message? : Error → Option String
  | refused cause => some cause.report.message
  | notAFilter typeName => some ("filter must be a Filter node, got " ++ typeName)
  | engine e => some e.text
  | invalid _ | misuse _ => none

end Docbase
