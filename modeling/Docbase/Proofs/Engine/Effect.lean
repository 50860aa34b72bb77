import Docbase.Document
import Docbase.Sql.Statement

/-!
# What a statement does under an id

A statement about a single document stores the one that is bound to it, or deletes what is there.
This is said once for whatever is kept under an id, be it an object or a row.

* `Contents`: what is kept, by table and id.
* `Mode`: the ways in which a document is stored; `Mode.statement`: the statement that does so;
  `Mode.doc`: the document that comes to be; `Mode.on`: what is left under an id.
* `Effect`, `Effect.on`: what a statement does, and what it leaves.
* `Effect.onDoc`: the same where nothing but documents is kept.
* `Document.Given`, `Document.InRow`: a document as a row has it.
-/

namespace Docbase

open Sql

variable {α ρ : Type}

/-- What is kept, by table and id. -/
abbrev Contents (ρ : Type) := String → String → Option ρ

namespace Contents

/-- What is kept, with one of the ids changed. -/
def set (m : Contents ρ) (table id : String) (x : Option ρ) : Contents ρ :=
  fun t i => if t = table ∧ i = id then x else m t i

theorem set_self (m : Contents ρ) (table id : String) (x : Option ρ) :
    m.set table id x table id = x := if_pos ⟨rfl, rfl⟩

theorem set_set (m : Contents ρ) (table id : String) (x y : Option ρ) :
    (m.set table id x).set table id y = m.set table id y := by
  funext t i
  unfold set
  split <;> rfl

theorem set_same (m : Contents ρ) (table id : String) : m.set table id (m table id) = m := by
  funext t i
  unfold set
  split
  · next h => rw [h.1, h.2]
  · rfl

end Contents

/-- The ways in which a document is stored: it is added, merged into the stored one, or put in its
place. -/
inductive Mode
  | insert
  | merge
  | replace
  deriving DecidableEq

namespace Mode

/-- The statement that stores a document in a way, and values in some columns beside it. -/
def statement (table : String) (columns : List Identifier) : Mode → Statement
  | insert => .insert table columns
  | merge => .update table (.mergeDoc :: columns.map .column) .byId
  | replace => .update table (.replaceDoc :: columns.map .column) .byId

/-- The document that comes to be, given the one that is there. -/
def doc (merged : α → α → α) (bound : α) : Mode → Option α → α
  | merge, some old => merged old bound
  | _, _ => bound

/-- What is left under an id, given what is stored there. An insertion is refused if there is
something already; the other ways store nothing where there is nothing. -/
def on (written : Option ρ → ρ) : Mode → Option ρ → Option (Option ρ)
  | insert, none => some (some (written none))
  | insert, some _ => none
  | merge, stored | replace, stored => some (stored.map fun old => written (some old))

end Mode

/-- What a statement does under an id: it stores something in a way, or deletes what is there. -/
inductive Effect (α : Type)
  | store (mode : Mode) (bound : α)
  | delete

namespace Effect

/-- What a statement leaves under its id, given what comes of something that it stores. -/
def on (written : Mode → α → Option ρ → ρ) : Effect α → Option ρ → Option (Option ρ)
  | store mode bound, stored => mode.on (written mode bound) stored
  | delete, _ => some none

/-- What it leaves of a document. -/
def onDoc (merged : α → α → α) : Effect α → Option α → Option (Option α) :=
  on fun mode bound => mode.doc merged bound

/-- The effect of something that is bound in another form. -/
def map (f : α → ρ) : Effect α → Effect ρ
  | store mode bound => store mode (f bound)
  | delete => delete

/-- Documents in another form become what they become in the first. -/
theorem onDoc_map {f : α → ρ} {merged : α → α → α} {merged' : ρ → ρ → ρ}
    (h : ∀ old new, f (merged old new) = merged' (f old) (f new)) (effect : Effect α)
    (stored : Option α) :
    (effect.map f).onDoc merged' (stored.map f)
      = (effect.onDoc merged stored).map (Option.map f) := by
  cases effect with
  | delete => rfl
  | store mode bound =>
    cases mode with
    | insert | replace => cases stored <;> rfl
    | merge =>
      cases stored with
      | none => rfl
      | some old => exact congrArg (fun d => some (some d)) (h old bound).symm

end Effect

/-- A document as a row has it: read already, or as a JSON text that can be read. -/
inductive Document.Given (document : Entries) : Value → Prop
  | decoded : Given document (.mapping document)
  | text {s : String} (h : decodeText s = .ok (.mapping document)) : Given document (.str s)
  | bytes {bs : List UInt8} {s : String} (hs : Input.utf8Text? bs = some s)
      (h : decodeText s = .ok (.mapping document)) : Given document (.bytes bs)

theorem Document.Given.decodeColumn {document : Entries} {v : Value}
    (h : Document.Given document v) : decodeColumn v = .ok (.mapping document) := by
  cases h with
  | decoded => rfl
  | text h => exact h
  | bytes hs h =>
    rw [Docbase.decodeColumn, hs]
    exact h

/-- The row has the document. -/
def Document.InRow (document row : Entries) : Prop :=
  ∃ v, Entries.get? row (.str docColumn) = some v ∧ Document.Given document v

end Docbase
