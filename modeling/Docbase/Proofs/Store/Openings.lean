import Docbase.Proofs.Store.Run

/-!
# Openings of readers

* `Opening.WellFormed`: all that a reader is opened with is in order.
* `Opening.query_ok_iff`: **a reader is opened exactly then**.
-/

namespace Docbase

open Sql

namespace Opening

/-- The collection that is read. -/
def collection : Opening → Value
  | filterDocs collection .. | findDocs collection .. | findPartialDocs collection .. => collection

def filter : Opening → Given Filter
  | filterDocs _ filter _ | findDocs _ filter _ | findPartialDocs _ _ filter _ => filter

def paging : Opening → Paging
  | filterDocs _ _ paging | findDocs _ _ paging | findPartialDocs _ _ _ paging => paging

/-- The selection, if only parts of the documents are asked for. -/
def select : Opening → Option (Given Selection)
  | findPartialDocs _ select _ _ => some select
  | _ => none

/-- All that a reader is opened with is in order. -/
structure WellFormed (o : Options) (q : Opening) : Prop where
  collection : ∃ table, o.table q.collection = .ok table
  filter : ∃ clause, Filter.clauseOf o.resolver q.filter = .ok clause
  order : ∃ keys, Order.optionalKeysOf o.resolver q.paging.order = .ok keys
  skip : ∃ n, pageCount? q.paging.skip = some n
  limit : ∃ n, pageCount? q.paging.limit = some n
  select : ∀ select, q.select = some select → ∃ items, o.selectionItems select = .ok items

end Opening

theorem pageValue_eq_ok {value : Value} {name : String} {n : Option Nat} :
    pageValue value name = .ok n ↔ pageCount? value = some n := by
  unfold pageValue
  cases hcount : pageCount? value with
  | some m => simp
  | none =>
    simp only [reduceCtorEq, iff_false]
    split
    · rintro ⟨⟩
    · rintro ⟨⟩

/-- A command is worked out exactly if all that it is made of is in order. -/
theorem selectCommand_ok_iff {o : Options} {items : String} {collection : Value}
    {filter : Given Filter} {paging : Paging} :
    (∃ command, o.selectCommand items collection filter paging = .ok command) ↔
      (∃ table, o.table collection = .ok table) ∧
      (∃ clause, Filter.clauseOf o.resolver filter = .ok clause) ∧
      (∃ keys, Order.optionalKeysOf o.resolver paging.order = .ok keys) ∧
      (∃ n, pageCount? paging.skip = some n) ∧ ∃ n, pageCount? paging.limit = some n := by
  constructor
  · rintro ⟨command, h⟩
    obtain ⟨skip, hskip, h⟩ := bind_eq_ok.1 h
    obtain ⟨limit, hlimit, h⟩ := bind_eq_ok.1 h
    obtain ⟨clause, hclause, h⟩ := bind_eq_ok.1 h
    obtain ⟨table, htable, h⟩ := bind_eq_ok.1 h
    obtain ⟨keys, hkeys, h⟩ := bind_eq_ok.1 h
    exact ⟨⟨table, htable⟩, ⟨clause, hclause⟩, ⟨keys, refuse_eq_ok.1 hkeys⟩,
      ⟨skip, pageValue_eq_ok.1 hskip⟩, ⟨limit, pageValue_eq_ok.1 hlimit⟩⟩
  · rintro ⟨⟨table, htable⟩, ⟨clause, hclause⟩, ⟨keys, hkeys⟩, ⟨skip, hskip⟩, ⟨limit, hlimit⟩⟩
    exact ⟨_, bind_eq_ok.2 ⟨skip, pageValue_eq_ok.2 hskip, bind_eq_ok.2 ⟨limit,
      pageValue_eq_ok.2 hlimit, bind_eq_ok.2 ⟨clause, hclause, bind_eq_ok.2 ⟨table, htable,
        bind_eq_ok.2 ⟨keys, refuse_eq_ok.2 hkeys, rfl⟩⟩⟩⟩⟩⟩

/-- **A reader is opened exactly if all that it is opened with is in order.** -/
theorem Opening.query_ok_iff {o : Options} {q : Opening} :
    (∃ query, q.query o = .ok query) ↔ q.WellFormed o := by
  have hbind : ∀ {items : String} {shape : Shape} {collection : Value} {filter : Given Filter}
      {paging : Paging}, (∃ query, (do
        let command ← o.selectCommand items collection filter paging
        pure ⟨command, shape⟩ : Except Error Query) = .ok query) ↔
          ∃ command, o.selectCommand items collection filter paging = .ok command := by
    intro items shape collection filter paging
    constructor
    · rintro ⟨query, h⟩
      obtain ⟨command, hcommand, -⟩ := bind_eq_ok.1 h
      exact ⟨command, hcommand⟩
    · rintro ⟨command, hcommand⟩
      exact ⟨_, bind_eq_ok.2 ⟨command, hcommand, rfl⟩⟩
  cases q with
  | filterDocs collection filter paging | findDocs collection filter paging =>
    refine hbind.trans (selectCommand_ok_iff.trans ⟨?_, ?_⟩)
    · rintro ⟨htable, hclause, hkeys, hskip, hlimit⟩
      exact ⟨htable, hclause, hkeys, hskip, hlimit, fun _ h => by cases h⟩
    · rintro ⟨htable, hclause, hkeys, hskip, hlimit, -⟩
      exact ⟨htable, hclause, hkeys, hskip, hlimit⟩
  | findPartialDocs collection select filter paging =>
    constructor
    · rintro ⟨query, h⟩
      obtain ⟨items, hitems, h⟩ := bind_eq_ok.1 h
      obtain ⟨htable, hclause, hkeys, hskip, hlimit⟩ :=
        selectCommand_ok_iff.1 (hbind.1 ⟨query, h⟩)
      refine ⟨htable, hclause, hkeys, hskip, hlimit, fun _ h => ?_⟩
      cases h
      exact ⟨items, hitems⟩
    · rintro ⟨htable, hclause, hkeys, hskip, hlimit, hselect⟩
      obtain ⟨items, hitems⟩ := hselect select rfl
      obtain ⟨query, hquery⟩ :=
        hbind.2 (selectCommand_ok_iff.2 ⟨htable, hclause, hkeys, hskip, hlimit⟩)
      exact ⟨query, bind_eq_ok.2 ⟨items, hitems, hquery⟩⟩

end Docbase
