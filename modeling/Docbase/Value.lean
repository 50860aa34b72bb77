import Docbase.Number.Binary64
import Docbase.Uuid

/-!
# Document values

The values a caller hands in, binds to a statement or gets back from a row: the JSON values, and
besides them bytes, identifiers, tuples, mappings whose member names are not texts, and nodes: the
declarations of this library where a plain value is due.

* `Value.same`: equality of values. Numbers are compared as numbers (`1`, `1.0` and `true` are the
  same), members of mappings without regard to their order.
* `Entries.get?`, `Entries.put`, `Entries.erase`: members of a mapping; a member that is put again
  keeps its place.
* `Value.truthy`: the values other than null, zero and the empty ones.
-/

namespace Docbase

/-- A member name of a mapping. -/
inductive Key
  | null
  | bool (b : Bool)
  | int (i : Int)
  | float (x : Binary64)
  | str (s : String)
  | bytes (bs : List UInt8)
  | uuid (u : Uuid)
  | tuple (items : List Key)
  deriving Inhabited

/-- A value. The members of a mapping are kept in the order in which they were added. A node is a
filter, an order, a selection or an index, by its kind and its parts. -/
inductive Value
  | null
  | bool (b : Bool)
  | int (i : Int)
  | float (x : Binary64)
  | str (s : String)
  | bytes (bs : List UInt8)
  | uuid (u : Uuid)
  | list (items : List Value)
  | tuple (items : List Value)
  | mapping (entries : List (Key × Value))
  | node (kind : String) (parts : List (String × Value))
  deriving Inhabited

/-- The members of a mapping, in order. -/
abbrev Entries := List (Key × Value)

/-- A number of either kind. -/
inductive Number
  | whole (i : Int)
  | real (x : Binary64)

/-- The two are the same number. -/
def Number.same : Number → Number → Bool
  | .whole i, .whole j => i == j
  | .real x, .real y => x.same y
  | .whole i, .real x | .real x, .whole i => x.sameInt i

mutual

/-- The member name as a value. -/
def Key.toValue : Key → Value
  | .null => .null
  | .bool b => .bool b
  | .int i => .int i
  | .float x => .float x
  | .str s => .str s
  | .bytes bs => .bytes bs
  | .uuid u => .uuid u
  | .tuple ks => .tuple (Key.toValues ks)

/-- The member names as values. -/
def Key.toValues : List Key → List Value
  | [] => []
  | k :: ks => k.toValue :: Key.toValues ks

end

/-- The number a member name stands for; a truth value counts as zero or one. -/
def Key.number? : Key → Option Number
  | .bool b => some (.whole (if b then 1 else 0))
  | .int i => some (.whole i)
  | .float x => some (.real x)
  | _ => none

mutual

/-- The two name the same member. -/
def Key.same : Key → Key → Bool
  | .null, .null => true
  | .str a, .str b => a == b
  | .bytes a, .bytes b => a == b
  | .uuid a, .uuid b => a == b
  | .tuple a, .tuple b => Key.sameAll a b
  | a, b =>
    match a.number?, b.number? with
    | some x, some y => x.same y
    | _, _ => false

/-- The two lists name the same members, one by one. -/
def Key.sameAll : List Key → List Key → Bool
  | [], [] => true
  | a :: as, b :: bs => a.same b && Key.sameAll as bs
  | _, _ => false

end

mutual

/-- The value as a member name. Lists, mappings and nodes name no member. -/
def Value.toKey? : Value → Option Key
  | .null => some .null
  | .bool b => some (.bool b)
  | .int i => some (.int i)
  | .float x => some (.float x)
  | .str s => some (.str s)
  | .bytes bs => some (.bytes bs)
  | .uuid u => some (.uuid u)
  | .tuple vs => (Value.toKeys? vs).map .tuple
  | .list _ | .mapping _ | .node .. => none

/-- The values as member names. -/
def Value.toKeys? : List Value → Option (List Key)
  | [] => some []
  | v :: vs => do
    let k ← v.toKey?
    let ks ← Value.toKeys? vs
    some (k :: ks)

end

namespace Entries

/-- The member of that name. -/
def get? (entries : Entries) (name : Key) : Option Value :=
  match entries with
  | [] => none
  | (k, v) :: rest => if k.same name then some v else get? rest name

/-- The entries with one member set: in place if there is one of that name, else at the end. -/
def put (entries : Entries) (name : Key) (value : Value) : Entries :=
  match entries with
  | [] => [(name, value)]
  | (k, v) :: rest => if k.same name then (k, value) :: rest else (k, v) :: put rest name value

/-- The entries without the member of that name. -/
def erase (entries : Entries) (name : Key) : Entries :=
  match entries with
  | [] => []
  | (k, v) :: rest => if k.same name then rest else (k, v) :: erase rest name

/-- There is a member of that name. -/
def has (entries : Entries) (name : Key) : Bool := (get? entries name).isSome

/-- The entries with those of a second mapping put into them one by one. -/
def merge (entries more : Entries) : Entries :=
  more.foldl (fun es e => put es e.1 e.2) entries

end Entries

namespace Value

/-- The number a value stands for; a truth value counts as zero or one. -/
def number? : Value → Option Number
  | .bool b => some (.whole (if b then 1 else 0))
  | .int i => some (.whole i)
  | .float x => some (.real x)
  | _ => none

mutual

/-- Equality of values. -/
def same : Value → Value → Bool
  | .null, .null => true
  | .str a, .str b => a == b
  | .bytes a, .bytes b => a == b
  | .uuid a, .uuid b => a == b
  | .list a, .list b => sameAll a b
  | .tuple a, .tuple b => sameAll a b
  | .mapping a, .mapping b => a.length == b.length && sameEntries a b
  | .node k a, .node l b => k == l && sameParts a b
  | a, b =>
    match a.number?, b.number? with
    | some x, some y => x.same y
    | _, _ => false

/-- Equality of lists, element by element. -/
def sameAll : List Value → List Value → Bool
  | [], [] => true
  | a :: as, b :: bs => a.same b && sameAll as bs
  | _, _ => false

/-- Every member of the first mapping is the same in the second. -/
def sameEntries : List (Key × Value) → List (Key × Value) → Bool
  | [], _ => true
  | (k, v) :: rest, other =>
    (match Entries.get? other k with
      | some w => v.same w
      | none => false) && sameEntries rest other

/-- Equality of the parts of nodes, one by one. -/
def sameParts : List (String × Value) → List (String × Value) → Bool
  | [], [] => true
  | (n, v) :: rest, (m, w) :: more => n == m && v.same w && sameParts rest more
  | _, _ => false

end

/-- The name of a value's type in messages. -/
def typeName : Value → String
  | .null => "NoneType"
  | .bool _ => "bool"
  | .int _ => "int"
  | .float _ => "float"
  | .str _ => "str"
  | .bytes _ => "bytes"
  | .uuid _ => "UUID"
  | .list _ => "list"
  | .tuple _ => "tuple"
  | .mapping _ => "dict"
  | .node kind _ => kind

/-- The values other than null, false, zero and the empty ones. A node is empty if a tuple without
items is all that it is made of. -/
def truthy : Value → Bool
  | .null => false
  | .bool b => b
  | .int i => i != 0
  | .float x => !x.isZero
  | .str s => !s.isEmpty
  | .bytes bs => !bs.isEmpty
  | .uuid _ => true
  | .list vs | .tuple vs => !vs.isEmpty
  | .mapping es => !es.isEmpty
  | .node _ [(_, .tuple [])] => false
  | .node .. => true

/-- The elements of a value that has elements: the characters of a text, the numbers of bytes,
the member names of a mapping, the parts of a node with their names. -/
def elements? : Value → Option (List Value)
  | .str s => some (s.toList.map fun c => .str (String.singleton c))
  | .bytes bs => some (bs.map fun b => .int b.toNat)
  | .list vs | .tuple vs => some vs
  | .mapping es => some (es.map fun e => e.1.toValue)
  | .node _ parts => some (parts.map fun p => .tuple [.str p.1, p.2])
  | _ => none

/-- A mapping with texts as member names. -/
def object (members : List (String × Value)) : Value :=
  .mapping (members.map fun m => (.str m.1, m.2))

end Value

end Docbase
