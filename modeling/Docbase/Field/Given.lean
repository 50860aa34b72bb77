import Docbase.Field
import Docbase.Value.Contents

/-!
# Paths given as values

A path should be a text. Any other value is refused as soon as something is asked of it that only a
text can tell.

* `Resolver.operandOf`, `Resolver.segmentsOf` and the others: what `Resolver.operand`,
  `Resolver.segments` and the others say of a text, and how they fail on any other value.
-/

namespace Docbase.Resolver

open Sql

variable (r : Resolver)

/-- What befalls the question for a start or a separator of a value that is no text. -/
def notAPath : Value → Misuse
  | .bytes _ => .wrongType
  | _ => .missingAttribute

/-- The path names a physical column. Without promotion none does. -/
def isPromotedOf : Value → Except Misuse Bool
  | .str path => .ok (r.isPromoted path)
  | v => if r.promote then .error (notAPath v) else .ok false

/-- Values beside the path are bound as JSON text. -/
def encodesOf (path : Value) : Except Misuse Bool := (r.isPromotedOf path).map (!·)

/-- The physical column of a promoted path. -/
def columnNameOf (path : Value) : Except Error Identifier :=
  match path.behind metadataStart.length with
  | .ok rest => Identifier.ofValue rest [("path", path)]
  | .error m => .error (.misuse m)

/-- The keys of a path. -/
def segmentsOf : Value → Except Error (List String)
  | .str path => refuse (segments path)
  | v => if v.truthy then .error (.misuse (notAPath v)) else .error (.refused .emptyPath)

/-- All keys of a path but the last, and the last. -/
def splitParentOf (path : Value) : Except Error (List String × String) := do
  let keys ← segmentsOf path
  pure (keys.dropLast, keys.getLast?.getD "")

/-- What a path stands for. -/
def operandOf (path : Value) : Except Error Operand := do
  if ← (r.isPromotedOf path).mapError .misuse then (columnNameOf path).map .column
  else (segmentsOf path).map (.json r.base)

/-- What a path stands for as text. -/
def textOperandOf (path : Value) : Except Error Operand := do
  if ← (r.isPromotedOf path).mapError .misuse then (columnNameOf path).map .columnText
  else (splitParentOf path).map fun p => .jsonText r.base p.1 p.2

/-- A value as it is bound beside a path. -/
def bindOf (value path : Value) : Except Error Value := do
  if ← (r.encodesOf path).mapError .misuse then jsonText value else pure value

end Docbase.Resolver
