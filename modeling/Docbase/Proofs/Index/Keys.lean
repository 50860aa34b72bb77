import Docbase.Index.Statements
import Docbase.Proofs.Outcome
import Mathlib.Data.List.Forall2

/-!
# Keys of indexes

An index over fields has one key for each of them, made of what the path of the field stands for.

* `FieldIndex.keyText_eq`: a field in SQL, in one equation.
* `keyTexts_ok`, `keyTexts_error`: fields whose paths are accepted have a key each; else the first
  path that is refused says why.
* `PlainIndex.Covers`: the index covers some fields; `statements`, `statements_ok` and
  `statements_error` say what it is created with.
* `Index.resolver`: how the paths of an index are resolved.
-/

namespace Docbase

open Sql

/-- A key of an index: what it is made of, and whether its values go down. -/
structure IndexKey where
  operand : Operand
  descending : Bool
  deriving DecidableEq

/-- A key in SQL. -/
def IndexKey.text (k : IndexKey) : String :=
  "(" ++ k.operand.text ++ ")" ++ if k.descending then " DESC" else ""

/-- The key is made for the field: of what its path stands for, and down exactly if it says so. -/
structure FieldIndex.HasKey (r : Resolver) (f : FieldIndex) (k : IndexKey) : Prop where
  operand : r.operand f.field = .ok k.operand
  descending : k.descending = true ↔ f.direction = .desc

/-- The path is accepted. -/
def Resolver.Accepts (r : Resolver) (path : String) : Prop := ∃ e, r.operand path = .ok e

variable {r : Resolver} {f : FieldIndex} {fs : List FieldIndex}

theorem FieldIndex.hasKey {e : Operand} (h : r.operand f.field = .ok e) :
    f.HasKey r ⟨e, f.direction = .desc⟩ :=
  ⟨h, decide_eq_true_iff⟩

/-- A field in SQL is the text of its key. -/
theorem FieldIndex.keyText_eq (r : Resolver) (f : FieldIndex) :
    f.keyText r = (r.operand f.field).map fun e => IndexKey.text ⟨e, f.direction = .desc⟩ := by
  unfold keyText IndexKey.text
  cases r.operand f.field with
  | error c => rfl
  | ok e =>
    cases f.direction with
    | asc => rfl
    | desc => rfl

/-- Fields whose paths are accepted have a key each, in their order. -/
theorem keyTexts_ok (h : ∀ f ∈ fs, r.Accepts f.field) :
    ∃ keys, List.Forall₂ (FieldIndex.HasKey r) fs keys ∧
      keyTexts r fs = .ok (keys.map IndexKey.text) := by
  induction fs with
  | nil => exact ⟨[], .nil, rfl⟩
  | cons f fs ih =>
    obtain ⟨e, he⟩ := h f List.mem_cons_self
    obtain ⟨keys, hkeys, htexts⟩ := ih fun g hg => h g (List.mem_cons_of_mem f hg)
    refine ⟨⟨e, f.direction = .desc⟩ :: keys, .cons (FieldIndex.hasKey he) hkeys, ?_⟩
    rw [keyTexts, FieldIndex.keyText_eq, he, htexts]
    rfl

/-- The first path that is refused says why. -/
theorem keyTexts_error {before after : List FieldIndex} {c : Cause}
    (hbefore : ∀ g ∈ before, r.Accepts g.field) (h : r.operand f.field = .error c) :
    keyTexts r (before ++ f :: after) = .error c := by
  induction before with
  | nil =>
    rw [List.nil_append, keyTexts, FieldIndex.keyText_eq, h]
    rfl
  | cons g before ih =>
    obtain ⟨e, he⟩ := hbefore g List.mem_cons_self
    have hrest := ih fun g' hg' => hbefore g' (List.mem_cons_of_mem g hg')
    rw [List.cons_append, keyTexts, FieldIndex.keyText_eq, he, hrest]
    rfl

/-- Fields that are put into SQL have paths that are accepted. -/
theorem accepts_of_keyTexts {texts : List String} (h : keyTexts r fs = .ok texts) :
    ∀ f ∈ fs, r.Accepts f.field := by
  induction fs generalizing texts with
  | nil => simp
  | cons f fs ih =>
    obtain ⟨text, htext, h⟩ := bind_eq_ok.1 h
    obtain ⟨rest, hrest, -⟩ := bind_eq_ok.1 h
    rw [FieldIndex.keyText_eq] at htext
    obtain ⟨e, he, -⟩ := map_eq_ok.1 htext
    intro g hg
    rcases List.mem_cons.1 hg with rfl | hg
    · exact ⟨e, he⟩
    · exact ih hrest g hg

namespace PlainIndex

/-- The index covers some fields, and says whether their values have to differ. -/
inductive Covers : PlainIndex → Bool → List FieldIndex → Prop
  | field (i : FieldIndex) : Covers (.field i) i.unique [i]
  | multi (i : MultiFieldIndex) : Covers (.multi i) i.unique i.fields

variable {p : PlainIndex} {unique : Bool} {table : String}

/-- An index over fields is created with the texts of the fields. -/
theorem Covers.createStatements_eq (h : p.Covers unique fs) (table : String) (r : Resolver) :
    p.createStatements table r
      = (keyTexts r fs).map fun keys => [createText table unique p.name keys] := by
  cases h with
  | field i =>
    rw [createStatements, keyTexts, keyTexts]
    cases i.keyText r with
    | error c => rfl
    | ok text => rfl
  | multi i =>
    rw [createStatements]
    cases keyTexts r i.fields with
    | error c => rfl
    | ok texts => rfl

/-- An index over fields whose paths are accepted is created with a key for each of them. -/
theorem Covers.statements_ok (hcovers : p.Covers unique fs) (table : String)
    (h : ∀ f ∈ fs, r.Accepts f.field) :
    ∃ keys, List.Forall₂ (FieldIndex.HasKey r) fs keys ∧
      p.createStatements table r
        = .ok [createText table unique p.name (keys.map IndexKey.text)] := by
  obtain ⟨keys, hkeys, htexts⟩ := keyTexts_ok h
  refine ⟨keys, hkeys, ?_⟩
  rw [hcovers.createStatements_eq, htexts]
  rfl

/-- Whatever an index over fields is created with has a key for each of them. -/
theorem Covers.statements (hcovers : p.Covers unique fs) {texts : List String}
    (h : p.createStatements table r = .ok texts) :
    ∃ keys, List.Forall₂ (FieldIndex.HasKey r) fs keys ∧
      texts = [createText table unique p.name (keys.map IndexKey.text)] := by
  have hkeyTexts := h
  rw [hcovers.createStatements_eq] at hkeyTexts
  obtain ⟨keyTexts, hkeyTexts, -⟩ := map_eq_ok.1 hkeyTexts
  obtain ⟨keys, hkeys, hok⟩ := hcovers.statements_ok table (accepts_of_keyTexts hkeyTexts)
  rw [hok] at h
  exact ⟨keys, hkeys, (Except.ok.inj h).symm⟩

/-- An index over fields is refused for the first path that is. -/
theorem Covers.statements_error {before after : List FieldIndex} {c : Cause}
    (hcovers : p.Covers unique (before ++ f :: after)) (table : String)
    (hbefore : ∀ g ∈ before, r.Accepts g.field) (h : r.operand f.field = .error c) :
    p.createStatements table r = .error c := by
  rw [hcovers.createStatements_eq, keyTexts_error hbefore h]
  rfl

end PlainIndex

namespace Index

/-- The index itself, without what is promoted for it. -/
def inner : Index → PlainIndex
  | plain i => i
  | promoted i => i.inner

/-- How the paths of the fields are resolved: those of an index with promoted columns always as
promoted ones. -/
def resolver (r : Resolver) : Index → Resolver
  | plain _ => r
  | promoted _ => { promote := true }

end Index

end Docbase
