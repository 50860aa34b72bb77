import Docbase.Proofs.Field.Uses

/-!
# What is wrong with a path

A path has a meaning unless there is something wrong with it: it is empty, one of its keys is, or it
is promoted and what stands behind the point is no name of a column.

* `Resolver.WellFormed`: a path with a meaning.
* `Resolver.PathFault`: what is wrong with any other, and how it is reported.
* `accepts_iff`, `operand_error_iff`: **exactly the paths with a meaning stand for something**, and
  the others are refused for what is wrong with them.
-/

namespace Docbase.Resolver

open Sql

variable {r : Resolver} {path : String} {c : Cause} {k : Category}

/-- What stands behind `metadata` and the point in a promoted path. -/
def promotedName (path : String) : String :=
  String.ofList (path.toList.drop metadataStart.length)

/-- A path has a meaning: a promoted one names a column, and any other has keys, none of which is
empty. -/
def WellFormed (r : Resolver) (path : String) : Prop :=
  if r.isPromoted path = true then isIdentifier (promotedName path).toList = true
  else path ≠ "" ∧ "" ∉ Text.split '.' path

/-- What is wrong with a path, the category under which it is reported, and the cause. -/
inductive PathFault (r : Resolver) (path : String) : Category → Cause → Prop
  | empty : r.isPromoted path = false → path = "" → PathFault r path .invalidArgument .emptyPath
  | segment : r.isPromoted path = false → path ≠ "" → "" ∈ Text.split '.' path →
      PathFault r path .invalidArgument (.emptySegment path)
  | column : r.isPromoted path = true → isIdentifier (promotedName path).toList = false →
      PathFault r path .invalidField
        (.invalidIdentifier (.str (promotedName path)) [("path", .str path)])

theorem PathFault.category (h : r.PathFault path k c) : c.report.category = k := by
  cases h <;> rfl

/-- It has nothing to do with the database. -/
theorem PathFault.isConnection (h : r.PathFault path k c) : c.isConnection = false := by
  cases h <;> rfl

/-- Nothing is wrong with a path exactly if it has a meaning. -/
theorem wellFormed_iff : r.WellFormed path ↔ ∀ k c, ¬ r.PathFault path k c := by
  unfold WellFormed
  constructor
  · intro h k c hfault
    cases hfault with
    | empty hp he => exact absurd he (by simp_all)
    | segment hp _ hmem => exact absurd hmem (by simp_all)
    | column hp hn => simp_all
  · intro h
    cases hp : r.isPromoted path with
    | true =>
      rw [if_pos rfl]
      by_contra hn
      exact h _ _ (.column hp (by simpa using hn))
    | false =>
      rw [if_neg Bool.false_ne_true]
      have hne : path ≠ "" := fun he => h _ _ (.empty hp he)
      exact ⟨hne, fun hmem => h _ _ (.segment hp hne hmem)⟩

/-! ## Keys -/

/-- The keys of a path are what stands between its points. -/
theorem segments_eq (path : String) :
    segments path =
      if path = "" then .error .emptyPath
      else if "" ∈ Text.split '.' path then .error (.emptySegment path)
      else .ok (Text.split '.' path) := by
  simp [segments]

theorem segments_error_iff :
    segments path = .error c ↔
      (path = "" ∧ .emptyPath = c) ∨
        (path ≠ "" ∧ "" ∈ Text.split '.' path ∧ .emptySegment path = c) := by
  rw [segments_eq]
  split
  · simp_all
  · split
    · simp_all
    · simp_all

theorem columnName_error_iff :
    columnName path = .error c ↔ isIdentifier (promotedName path).toList = false ∧
      .invalidIdentifier (.str (promotedName path)) [("path", .str path)] = c := by
  have hname : columnName path =
      Identifier.ofText (promotedName path) [("path", .str path)] := rfl
  rw [hname, Identifier.ofText]
  split
  · simp_all
  · simp_all

/-! ## Paths -/

/-- **A path is refused for what is wrong with it.** -/
theorem operand_error_iff : r.operand path = .error c ↔ ∃ k, r.PathFault path k c := by
  constructor
  · intro h
    rcases operand_error h with ⟨hp, h⟩ | ⟨hp, h⟩
    · obtain ⟨hn, rfl⟩ := columnName_error_iff.1 h
      exact ⟨_, .column hp hn⟩
    · rcases segments_error_iff.1 h with ⟨he, rfl⟩ | ⟨hne, hmem, rfl⟩
      · exact ⟨_, .empty hp he⟩
      · exact ⟨_, .segment hp hne hmem⟩
  · rintro ⟨k, h⟩
    unfold operand
    cases h with
    | empty hp he =>
      rw [hp, if_neg Bool.false_ne_true, segments_error_iff.2 (.inl ⟨he, rfl⟩)]
      rfl
    | segment hp hne hmem =>
      rw [hp, if_neg Bool.false_ne_true, segments_error_iff.2 (.inr ⟨hne, hmem, rfl⟩)]
      rfl
    | column hp hn =>
      rw [hp, if_pos rfl, columnName_error_iff.2 ⟨hn, rfl⟩]
      rfl

/-- A path is refused for what it is. -/
theorem operand_rejects (r : Resolver) (path : String) :
    FailsWith (fun c => c.isConnection = false) (r.operand path) := by
  intro c h
  obtain ⟨k, hfault⟩ := operand_error_iff.1 h
  exact hfault.isConnection

/-- **Exactly the paths with a meaning stand for something.** -/
theorem accepts_iff : r.Accepts path ↔ r.WellFormed path := by
  rw [wellFormed_iff]
  unfold Accepts
  cases h : r.operand path with
  | error c =>
    obtain ⟨k, hfault⟩ := operand_error_iff.1 h
    simp only [reduceCtorEq, exists_false, false_iff]
    exact fun hnone => hnone k c hfault
  | ok e =>
    simp only [Except.ok.injEq, exists_eq', true_iff]
    intro k c hfault
    have herror := operand_error_iff.2 ⟨k, hfault⟩
    rw [h] at herror
    cases herror

end Docbase.Resolver
