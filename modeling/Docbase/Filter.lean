import Docbase.Input.Given
import Docbase.Input.Reading

/-!
# Filters

A filter says which documents of a collection are meant: conditions on fields and ids, joined by
and, or and not.

* `Filter`: the tree of a filter.
* `Filter.compareOf`, `Filter.bothOf` and the other builders check the parts that a caller gives.
* `Filter.same`: equality, values being compared as values.
* `Filter.toValue`: a filter where a plain value is due.
-/

namespace Docbase

/-- The comparisons of a field with a value. -/
inductive Comparison
  | equal
  | greater
  | atLeast
  | less
  | atMost
  deriving DecidableEq, Repr

/-- The tree of a filter. -/
inductive Filter
  /-- Every document. -/
  | any
  /-- The documents that both filters mean. -/
  | both (a b : Filter)
  /-- The documents that one of the filters means. -/
  | either (a b : Filter)
  /-- The documents that the filter does not mean. -/
  | negate (inner : Filter)
  /-- The field compares with the value. -/
  | compare (comparison : Comparison) (path : String) (value : Value)
  /-- The text of the field matches the pattern, whatever the case of its letters. -/
  | like (path : String) (pattern : Value)
  /-- The field is a list with such an element. -/
  | contains (path : String) (element : Value)
  /-- The field is there. -/
  | present (path : String)
  /-- The document has the id. -/
  | id (value : String)
  /-- The document has one of the ids. -/
  | idIn (values : List String)
  /-- The field is one of the values. -/
  | oneOf (path : String) (values : List Value)
  /-- A filter of a kind without meaning. -/
  | unknown (typeName : String)
  deriving Inhabited

namespace Filter

/-- A filter that says nothing, and has no meaning. -/
def blank : Filter := unknown "Filter"

/-- The name of a filter's kind. -/
def typeName : Filter → String
  | any => "AnyFilter"
  | both .. => "AndFilter"
  | either .. => "OrFilter"
  | negate _ => "NotFilter"
  | compare .equal .. => "EqFilter"
  | compare .greater .. => "GtFilter"
  | compare .atLeast .. => "GteFilter"
  | compare .less .. => "LtFilter"
  | compare .atMost .. => "LteFilter"
  | like .. => "LikeFilter"
  | contains .. => "InArrayFilter"
  | present _ => "ExistsFilter"
  | id _ => "DocIdFilter"
  | idIn _ => "AnyOfDocIdFilter"
  | oneOf .. => "AnyOfFilter"
  | unknown name => name

/-- A filter as a value. -/
def toValue (f : Filter) : Value :=
  match f with
  | both a b | either a b => .node f.typeName [("a", a.toValue), ("b", b.toValue)]
  | negate inner => .node f.typeName [("inner", inner.toValue)]
  | compare _ path value | like path value | contains path value =>
    .node f.typeName [("prop", .str path), ("val", value)]
  | present path => .node f.typeName [("prop", .str path)]
  | id value => .node f.typeName [("val", .str value)]
  | idIn values => .node f.typeName [("val_list", .list (values.map .str))]
  | oneOf path values => .node f.typeName [("prop", .str path), ("val_list", .list values)]
  | any | unknown _ => .node f.typeName []

/-- The two filters are built alike from the same values. -/
def same : Filter → Filter → Bool
  | any, any => true
  | both a b, both c d => a.same c && b.same d
  | either a b, either c d => a.same c && b.same d
  | negate a, negate b => a.same b
  | compare c p v, compare d q w => c == d && p == q && v.same w
  | like p v, like q w => p == q && v.same w
  | contains p v, contains q w => p == q && v.same w
  | present p, present q => p == q
  | id a, id b => a == b
  | idIn a, idIn b => a == b
  | oneOf p vs, oneOf q ws => p == q && Value.sameAll vs ws
  | unknown a, unknown b => a == b
  | _, _ => false

/-! ## Building filters from given parts -/

open Input

/-- The path of a field. -/
def readPath (path : Value) : Checked String := (readText path).named "prop"

/-- The items of a list. -/
def readItems : Value → Checked (List Value)
  | .list vs | .tuple vs => .ok vs
  | _ => .fault .notList

/-- An identifier as its text. -/
def idText : Value → Value
  | .uuid u => .str u.text
  | v => v

/-- A filter that is part of another. -/
def readPart (name : String) (part : Given Filter) : Checked Filter :=
  (part.read blank).named name

/-- Both filters. -/
def bothOf (a b : Given Filter) : Checked Filter :=
  ((readPart "a" a).both (readPart "b" b)).map fun p => both p.1 p.2

/-- One of the filters. -/
def eitherOf (a b : Given Filter) : Checked Filter :=
  ((readPart "a" a).both (readPart "b" b)).map fun p => either p.1 p.2

/-- Not the filter. -/
def negateOf (inner : Given Filter) : Checked Filter := (readPart "inner" inner).map negate

/-- A comparison of a field with a value. -/
def compareOf (comparison : Comparison) (path value : Value) : Checked Filter :=
  (readPath path).map (compare comparison · value)

/-- A pattern for the text of a field. -/
def likeOf (path pattern : Value) : Checked Filter := (readPath path).map (like · pattern)

/-- An element of a field that is a list. -/
def containsOf (path element : Value) : Checked Filter := (readPath path).map (contains · element)

/-- The presence of a field. -/
def presentOf (path : Value) : Checked Filter := (readPath path).map present

/-- The id of the document. -/
def idOf (value : Value) : Checked Filter := ((readText (idText value)).named "val").map id

/-- The possible ids of the document. -/
def idInOf (values : Value) : Checked Filter :=
  (((readItems values).andThen fun vs => Checked.items (readText ∘ idText) 0 vs).named
    "val_list").map idIn

/-- The possible values of a field. -/
def oneOfOf (path values : Value) : Checked Filter :=
  ((readPath path).both ((readItems values).named "val_list")).map fun p => oneOf p.1 p.2

end Filter

end Docbase
