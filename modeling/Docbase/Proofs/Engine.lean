import Docbase.Engine.Scripted

/-!
# Rows that cursors hold

Each cursor of an engine holds the rows of its own statement. They are given one by one, and nothing
that is done with other cursors or with connections changes them. An engine may refuse to give a row
at any time.

* `Engine.KeepsRows`: what a reader relies on.
* `Scripted.keepsRows`: the scripted engine is such an engine.
-/

namespace Docbase

open Sql

variable {σ : Type}

/-- The rows that cursors hold are kept for them. -/
structure Engine.KeepsRows [Engine σ] (held : CursorId → σ → List Value) : Prop where
  /-- A row that is given is the first of those that were held. -/
  next : ∀ {c e v f}, Engine.fetchNext c e = (.ok (some v), f) → held c e = v :: held c f
  /-- No row is given when none is held. -/
  last : ∀ {c e f}, Engine.fetchNext c e = (.ok none, f) → held c e = []
  /-- The rows of a cursor are not touched by what is done with other cursors. -/
  fetchNext : ∀ {c d}, c ≠ d → ∀ e, held c (Engine.fetchNext d e).2 = held c e
  fetchAll : ∀ {c d}, c ≠ d → ∀ e, held c (Engine.fetchAll d e).2 = held c e
  execute : ∀ {c d}, c ≠ d → ∀ command e, held c (Engine.execute d command e).2 = held c e
  openCursor : ∀ {c d}, c ≠ d → ∀ connection e, held c (Engine.openCursor connection d e) = held c e
  closeCursor : ∀ {c d}, c ≠ d → ∀ e, held c (Engine.closeCursor d e) = held c e
  /-- Nor by what is done with connections. -/
  connect : ∀ c connection target e, held c (Engine.connect connection target e).2 = held c e
  commit : ∀ c connection e, held c (Engine.commit connection e).2 = held c e
  rollback : ∀ c connection e, held c (Engine.rollback connection e) = held c e

namespace Scripted

/-- The rows up to the first failure. -/
def values : List Row → List Value
  | .row v :: rows => v :: values rows
  | _ => []

/-- The rows that a cursor holds. -/
def rowsOf (c : CursorId) (s : Scripted) : List Value := values (s.held c)

variable {c d : CursorId}

theorem held_hold_self (s : Scripted) (rows : List Row) : (s.hold c rows).held c = rows := by
  simp [held, hold]

theorem held_hold (h : c ≠ d) (s : Scripted) (rows : List Row) : (s.hold d rows).held c = s.held c := by
  have hfind : ∀ pending : List (CursorId × List Row),
      (pending.filter (·.1 != d)).find? (·.1 == c) = pending.find? (·.1 == c) := by
    intro pending
    rw [List.find?_filter]
    congr 1
    funext p
    by_cases hp : p.1 = c
    · simp [hp, h]
    · simp [hp]
  have hd : (d == c) = false := by simpa using h.symm
  rw [held, held, hold, List.find?_cons, hd, hfind]

theorem rowsOf_hold (h : c ≠ d) (s : Scripted) (rows : List Row) :
    rowsOf c (s.hold d rows) = rowsOf c s := by
  rw [rowsOf, held_hold h, rowsOf]

/-- What the scripted engine does when the next row is asked for. -/
theorem fetchNext_eq (c : CursorId) (s : Scripted) :
    Engine.fetchNext c s = match s.held c with
      | [] => (.ok none, s)
      | .row v :: rows => (.ok (some v), s.hold c rows)
      | .failure e :: _ => (.error e, s.hold c []) := rfl

theorem keepsRows : Engine.KeepsRows rowsOf where
  next := by
    intro c s v f h
    rw [fetchNext_eq] at h
    split at h
    · cases h
    · rename_i rows hheld
      cases h
      rw [rowsOf, rowsOf, hheld, held_hold_self, values]
    · cases h
  last := by
    intro c s f h
    rw [fetchNext_eq] at h
    split at h
    · rename_i hheld
      rw [rowsOf, hheld, values]
      simp
    · cases h
    · cases h
  fetchNext := by
    intro c d h s
    rw [fetchNext_eq]
    split
    · rfl
    · exact rowsOf_hold h s _
    · exact rowsOf_hold h s _
  fetchAll := fun h s => rowsOf_hold h s []
  execute := by
    intro c d h command s
    have hrun : Engine.execute d command s = s.run d command := rfl
    rw [hrun, run]
    split
    · rfl
    · exact rowsOf_hold h _ _
  openCursor := fun _ _ _ => rfl
  closeCursor := fun _ _ => rfl
  connect := fun _ _ _ _ => rfl
  commit := fun _ _ _ => rfl
  rollback := fun _ _ _ => rfl

end Scripted

end Docbase
