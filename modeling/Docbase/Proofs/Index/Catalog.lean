import Docbase.Proofs.Index.Keys
import Docbase.Proofs.Sql.Alteration
import Mathlib.Data.List.Nodup
import Mathlib.Logic.Function.Basic

/-!
# Indexes created and dropped on a catalog

A declaration is put into SQL twice, once to create what it describes and once to drop it. The
statements are read here as steps on a catalog: the columns of a table, and what stands under each
name among the indexes of its schema. A column or an index that is there already cannot be added,
and one that is not there cannot be dropped. What is added to a table is read from the text, in which
the types of columns stand as they were given.

* `Catalog.addAll_eq_some`, `Catalog.dropAll_append`: columns added, and dropped from behind others.
* `Column.Single`: a column whose declaration is read as that of this one column.
* `Index.createStatements_eq`, `Index.dropStatements_eq`: the statements are the texts of steps.
* `Index.created`, `Index.dropped`: what the steps leave, and that dropping takes it back.
* `Index.created_dropped`: **a declaration that was created is dropped again, and the catalog is the
  one from before**, if its columns are single.
* `Index.left_behind`: a column that is not.
-/

namespace Docbase

open Sql

/-! ## Catalogs -/

/-- What stands under the name of an index. -/
structure IndexEntry where
  unique : Bool
  keys : List IndexKey
  deriving DecidableEq

/-- The columns of a table, and the indexes in its schema. -/
@[ext] structure Catalog (ν : Type) where
  columns : List ν
  indexes : ν → Option IndexEntry

namespace Catalog

variable {ν : Type} [DecidableEq ν] {c c' : Catalog ν} {names : List ν}

/-- A column that is not there yet is added behind the others. -/
def addColumn (c : Catalog ν) (name : ν) : Option (Catalog ν) :=
  if name ∈ c.columns then none else some { c with columns := c.columns ++ [name] }

/-- A column that is there is dropped. -/
def dropColumn (c : Catalog ν) (name : ν) : Option (Catalog ν) :=
  if name ∈ c.columns then some { c with columns := c.columns.erase name } else none

/-- An index is put under a name that is free. -/
def createIndex (c : Catalog ν) (name : ν) (entry : IndexEntry) : Option (Catalog ν) :=
  if (c.indexes name).isSome then none
  else some { c with indexes := Function.update c.indexes name (some entry) }

/-- An index that is there is dropped. -/
def dropIndex (c : Catalog ν) (name : ν) : Option (Catalog ν) :=
  if (c.indexes name).isSome then
    some { c with indexes := Function.update c.indexes name none }
  else none

/-- What an item of an alteration does, where a name is read in some way. -/
def alter (read : String → ν) (c : Catalog ν) : Alteration → Option (Catalog ν)
  | .add name => c.addColumn (read name)
  | .drop name => c.dropColumn (read name)

/-- Columns are added one after the other. -/
def addAll (c : Catalog ν) (names : List ν) : Option (Catalog ν) := names.foldlM addColumn c

/-- Columns are dropped one after the other. -/
def dropAll (c : Catalog ν) (names : List ν) : Option (Catalog ν) := names.foldlM dropColumn c

theorem addColumn_eq_some {name : ν} :
    c.addColumn name = some c' ↔
      name ∉ c.columns ∧ c' = { c with columns := c.columns ++ [name] } := by
  unfold addColumn
  by_cases hname : name ∈ c.columns
  · simp [hname]
  · simp [hname, eq_comm]

theorem createIndex_eq_some {name : ν} {entry : IndexEntry} :
    c.createIndex name entry = some c' ↔
      c.indexes name = none ∧
        c' = { c with indexes := Function.update c.indexes name (some entry) } := by
  unfold createIndex
  cases hname : c.indexes name with
  | none => simp [eq_comm]
  | some old => simp

/-- The columns that are added are new, to the table and to one another, and stand behind the
others. -/
theorem addAll_eq_some (h : c.addAll names = some c') :
    names.Nodup ∧ (∀ n ∈ names, n ∉ c.columns) ∧
      c' = { c with columns := c.columns ++ names } := by
  induction names generalizing c with
  | nil =>
    cases h
    simp
  | cons name names ih =>
    obtain ⟨next, hnext, h⟩ := Option.bind_eq_some_iff.1 h
    obtain ⟨hfresh, rfl⟩ := addColumn_eq_some.1 hnext
    obtain ⟨hnodup, hnew, rfl⟩ := ih h
    have hapart : ∀ n ∈ names, n ∉ c.columns ∧ n ≠ name := by
      intro n hn
      simpa using hnew n hn
    refine ⟨?_, ?_, ?_⟩
    · exact List.nodup_cons.2 ⟨fun hmem => (hapart name hmem).2 rfl, hnodup⟩
    · intro n hn
      rcases List.mem_cons.1 hn with rfl | hn
      · exact hfresh
      · exact (hapart n hn).1
    · simp

/-- Columns that stand behind others are dropped, and the others are left as they were. -/
theorem dropAll_append (indexes : ν → Option IndexEntry) {columns : List ν}
    (hnodup : names.Nodup) (hnew : ∀ n ∈ names, n ∉ columns) :
    dropAll ⟨columns ++ names, indexes⟩ names = some ⟨columns, indexes⟩ := by
  induction names with
  | nil => simp [dropAll]
  | cons name names ih =>
    have hname : name ∉ columns := hnew name List.mem_cons_self
    -- The first of the columns to drop is the one in question: before it there is none of its name.
    have hdrop : dropColumn ⟨columns ++ name :: names, indexes⟩ name
        = some ⟨columns ++ names, indexes⟩ := by
      unfold dropColumn
      rw [if_pos (by simp), List.erase_append_right _ hname, List.erase_cons_head]
    have hrest := ih (List.nodup_cons.1 hnodup).2 fun n hn => hnew n (List.mem_cons_of_mem name hn)
    unfold dropAll at hrest ⊢
    rw [List.foldlM_cons, hdrop]
    exact hrest

/-- An index that was put under a free name is dropped, and the name is free again. -/
theorem dropIndex_createIndex {name : ν} {entry : IndexEntry}
    (h : c.createIndex name entry = some c') : c'.dropIndex name = some c := by
  obtain ⟨hfree, rfl⟩ := createIndex_eq_some.1 h
  unfold dropIndex
  simp [← hfree]

end Catalog

/-! ## Steps -/

/-- A statement that is about a catalog. -/
inductive CatalogStep
  /-- The table is altered, by the items of a text. -/
  | alter (items : String)
  /-- An index on the table is put under a name. -/
  | createIndex (name : Identifier) (entry : IndexEntry)
  /-- The index under a name is dropped. -/
  | dropIndex (name : Identifier)

/-- A key list in SQL, behind the table that it is for. -/
def IndexEntry.onText (table : String) (e : IndexEntry) : String :=
  " ON " ++ table ++ " (" ++ ", ".intercalate (e.keys.map IndexKey.text) ++ ")"

/-- What an index is created as. -/
def IndexEntry.kindText (e : IndexEntry) : String := if e.unique then "UNIQUE INDEX" else "INDEX"

namespace CatalogStep

/-- A step in SQL, about a table and the schema of its indexes. -/
def text (table schema : String) : CatalogStep → String
  | alter items => "ALTER TABLE " ++ table ++ " " ++ items
  | createIndex name e => "CREATE " ++ e.kindText ++ " " ++ name.text ++ e.onText table
  | dropIndex name => "DROP INDEX " ++ schema ++ "." ++ name.text

variable {ν : Type} [DecidableEq ν]

/-- A step on a catalog, where a name is read in some way. An alteration does what its items say, one
after the other, if they can be read. -/
def run (read : String → ν) (c : Catalog ν) : CatalogStep → Option (Catalog ν)
  | alter items => (readAlterations items).bind fun as => as.foldlM (Catalog.alter read) c
  | createIndex name e => c.createIndex (read name.word) e
  | dropIndex name => c.dropIndex (read name.word)

/-- Steps one after the other: the first that fails ends them. -/
def runAll (read : String → ν) (steps : List CatalogStep) (c : Catalog ν) : Option (Catalog ν) :=
  steps.foldlM (run read) c

variable {read : String → ν} {c : Catalog ν}

@[simp] theorem runAll_nil : runAll read [] = some := rfl

@[simp] theorem runAll_cons (step : CatalogStep) (steps : List CatalogStep) :
    runAll read (step :: steps) c = (run read c step).bind (runAll read steps) := rfl

theorem runAll_append (steps steps' : List CatalogStep) :
    runAll read (steps ++ steps') c = (runAll read steps c).bind (runAll read steps') :=
  List.foldlM_append ..

end CatalogStep

/-! ## Columns -/

/-- The declaration of the column is read as that of this column and of nothing else. -/
def Column.Single (c : Column) : Prop :=
  readAlterations ("ADD COLUMN " ++ c.text) = some [.add c.name.word]

instance (c : Column) : Decidable c.Single := inferInstanceAs (Decidable (_ = _))

namespace CatalogStep

variable {ν : Type} [DecidableEq ν] {columns : List Column}

/-- Columns that are declared on their own are added. -/
theorem run_add (read : String → ν) (c : Catalog ν) (hne : columns ≠ [])
    (hsingle : ∀ column ∈ columns, column.Single) :
    run read c (.alter (", ".intercalate (columns.map fun column => "ADD COLUMN " ++ column.text)))
      = c.addAll (columns.map fun column => read column.name.word) := by
  rw [run, readAlterations_intercalate hne hsingle, Option.bind_some, List.foldlM_map,
    Catalog.addAll, List.foldlM_map]
  rfl

/-- A comma in brackets ends no item. -/
example : Column.Single ⟨⟨"price", by decide⟩, ⟨"NUMERIC(10, 2) DEFAULT 0", by decide⟩⟩ := by
  decide +kernel

/-- Columns are dropped by their names. -/
theorem run_drop (read : String → ν) (c : Catalog ν) (hne : columns ≠ []) :
    run read c
        (.alter (", ".intercalate (columns.map fun column => "DROP COLUMN " ++ column.name.text)))
      = c.dropAll (columns.map fun column => read column.name.word) := by
  have hread := readAlterations_intercalate hne fun column _ => readAlterations_drop column.name
  rw [run, hread, Option.bind_some, List.foldlM_map, Catalog.dropAll, List.foldlM_map]
  rfl

end CatalogStep

/-! ## Declarations -/

namespace Index

/-- The step that adds the promoted columns, if there are some. -/
def promotion : Index → List CatalogStep
  | plain _ => []
  | promoted i => [.alter (", ".intercalate (i.columns.map fun c => "ADD COLUMN " ++ c.text))]

/-- The steps that create an index under a name. -/
def creation (i : Index) (name : Identifier) (entry : IndexEntry) : List CatalogStep :=
  i.promotion ++ [.createIndex name entry]

/-- The steps that drop an index, and then the columns promoted for it. -/
def removal (name : Identifier) : Index → List CatalogStep
  | plain _ => [.dropIndex name]
  | promoted i =>
    [.dropIndex name,
      .alter (", ".intercalate (i.columns.map fun c => "DROP COLUMN " ++ c.name.text))]

/-- The names under which the promoted columns are added. -/
def addedNames {ν : Type} (read : String → ν) (i : Index) : List ν :=
  (columnsOf (.node i)).map fun c => read c.name.word

variable {r : Resolver} {table schema : String} {i : Index} {unique : Bool}
  {fields : List FieldIndex}

/-- The statements that create an index: the promoted columns first, then the index with a key for
each field. -/
theorem createStatements_eq (schema : String) {texts : List String}
    (hcovers : i.inner.Covers unique fields) (h : createStatementsOf table r (.node i) = .ok texts) :
    ∃ keys, List.Forall₂ (FieldIndex.HasKey (i.resolver r)) fields keys ∧
      texts = i.promotion.map (·.text table schema)
        ++ [createText table unique i.name (keys.map IndexKey.text)] := by
  cases i with
  | plain p => exact hcovers.statements h
  | promoted p =>
    obtain ⟨rest, hrest, h⟩ := bind_eq_ok.1 h
    cases h
    obtain ⟨keys, hkeys, rfl⟩ := hcovers.statements hrest
    exact ⟨keys, hkeys, rfl⟩

/-- An index without a name is created without one. -/
theorem createText_unnamed (keys : List IndexKey) :
    createText table unique none (keys.map IndexKey.text)
      = "CREATE " ++ IndexEntry.kindText ⟨unique, keys⟩
        ++ IndexEntry.onText table ⟨unique, keys⟩ := by
  unfold createText IndexEntry.kindText IndexEntry.onText
  simp only [String.append_assoc, String.append_empty]

theorem createText_named (schema : String) (keys : List IndexKey) (name : Identifier) :
    createText table unique (some name) (keys.map IndexKey.text)
      = (CatalogStep.createIndex name ⟨unique, keys⟩).text table schema := by
  unfold createText CatalogStep.text IndexEntry.kindText IndexEntry.onText
  simp only [String.append_assoc]

/-- The statements that drop an index are the texts of its removal. -/
theorem dropStatements_eq {name : Identifier} (h : i.name = some name) :
    dropStatementsOf table schema (.node i)
      = .ok ((i.removal name).map (·.text table schema)) := by
  have hname : nameOf (.node i) = .ok (some name.text) := by simp [nameOf, h]
  unfold dropStatementsOf
  rw [hname]
  cases i with
  | plain p => rfl
  | promoted p =>
    have hne : p.columns.isEmpty = false := by simpa using p.nonempty
    show Except.ok (_ :: if p.columns.isEmpty then [] else ["ALTER TABLE " ++ table ++ " "
      ++ ", ".intercalate (p.columns.map fun c => "DROP COLUMN " ++ c.name.text)]) = _
    rw [hne, if_neg Bool.false_ne_true]
    rfl

variable {ν : Type} [DecidableEq ν] {read : String → ν} {name : Identifier} {entry : IndexEntry}
  {before after : Catalog ν}

/-- The promoted columns are new, to the table and to one another, and come to stand behind the
others. -/
theorem runAll_promotion (hsingle : ∀ c ∈ columnsOf (.node i), c.Single)
    (h : CatalogStep.runAll read i.promotion before = some after) :
    (i.addedNames read).Nodup ∧ (∀ n ∈ i.addedNames read, n ∉ before.columns) ∧
      after = { before with columns := before.columns ++ i.addedNames read } := by
  cases i with
  | plain p =>
    cases h
    simp [addedNames, columnsOf]
  | promoted p =>
    have hadd : CatalogStep.run read before (.alter
        (", ".intercalate (p.columns.map fun c => "ADD COLUMN " ++ c.text))) = some after := by
      simpa [promotion] using h
    rw [CatalogStep.run_add read before p.nonempty hsingle] at hadd
    exact Catalog.addAll_eq_some hadd

/-- Creating an index first adds the promoted columns. -/
theorem runAll_creation (h : CatalogStep.runAll read (i.creation name entry) before = some after) :
    ∃ next, CatalogStep.runAll read i.promotion before = some next ∧
      next.createIndex (read name.word) entry = some after := by
  rw [creation, CatalogStep.runAll_append] at h
  obtain ⟨next, hnext, h⟩ := Option.bind_eq_some_iff.1 h
  exact ⟨next, hnext, by simpa [CatalogStep.run] using h⟩

/-- Where an index was created the promoted columns stand behind the others, and the index under its
name. -/
theorem created (hsingle : ∀ c ∈ columnsOf (.node i), c.Single)
    (h : CatalogStep.runAll read (i.creation name entry) before = some after) :
    after = {
      columns := before.columns ++ i.addedNames read
      indexes := Function.update before.indexes (read name.word) (some entry) } := by
  obtain ⟨next, hnext, hcreate⟩ := runAll_creation h
  obtain ⟨-, -, rfl⟩ := runAll_promotion hsingle hnext
  exact (Catalog.createIndex_eq_some.1 hcreate).2

/-- An index that was created is dropped again, and the columns promoted for it with it. -/
theorem dropped (hsingle : ∀ c ∈ columnsOf (.node i), c.Single)
    (h : CatalogStep.runAll read (i.creation name entry) before = some after) :
    CatalogStep.runAll read (i.removal name) after = some before := by
  obtain ⟨next, hnext, hcreate⟩ := runAll_creation h
  obtain ⟨hnodup, hnew, hcolumns⟩ := runAll_promotion hsingle hnext
  -- The index was created last and goes first; what was promoted then stands behind the others.
  have hindex : CatalogStep.run read after (.dropIndex name) = some next :=
    Catalog.dropIndex_createIndex hcreate
  cases i with
  | plain p =>
    have hnone : next = before := by simpa [addedNames, columnsOf] using hcolumns
    simp [removal, hindex, hnone]
  | promoted p =>
    have hdrop : next.dropAll (addedNames read (promoted p)) = some before := by
      rw [hcolumns]
      exact Catalog.dropAll_append _ hnodup hnew
    have hcolumns := (CatalogStep.run_drop read next p.nonempty).trans hdrop
    simp [removal, hindex, hcolumns]

/-- An index without a name is not dropped: the argument is refused. -/
theorem dropStatements_unnamed (h : i.name = none) :
    dropStatementsOf table schema (.node i) = .error (.unnamedIndex i.typeName table) := by
  have hname : nameOf (.node i) = .ok none := by simp [nameOf, h]
  unfold dropStatementsOf
  rw [hname]
  rfl

/-- **A declaration that was created is dropped again.** Where the statements that create an index
under a name all succeed, the index has a key for each field in the order of the fields and is
unique exactly if it is declared so. If the declarations of the promoted columns are read as those of
one column each, the statements that drop the same declaration succeed behind them and give back the
catalog from before. Without a name an index is created without one, and not dropped. -/
theorem created_dropped (read : String → ν) (table schema : String) (r : Resolver)
    (hcovers : i.inner.Covers unique fields) :
    (∀ name, i.name = some name →
      dropStatementsOf table schema (.node i)
        = .ok ((i.removal name).map (·.text table schema)) ∧
      ∀ texts, createStatementsOf table r (.node i) = .ok texts →
        ∃ entry : IndexEntry, entry.unique = unique ∧
          List.Forall₂ (FieldIndex.HasKey (i.resolver r)) fields entry.keys ∧
          texts = (i.creation name entry).map (·.text table schema) ∧
          ((∀ c ∈ columnsOf (.node i), c.Single) → ∀ before after,
            CatalogStep.runAll read (i.creation name entry) before = some after →
              after.indexes (read name.word) = some entry ∧
              CatalogStep.runAll read (i.removal name) after = some before)) ∧
    (i.name = none →
      (∃ cause, dropStatementsOf table schema (.node i) = .error cause ∧
        cause.report.category = .invalidArgument) ∧
      ∀ texts, createStatementsOf table r (.node i) = .ok texts →
        ∃ entry : IndexEntry, entry.unique = unique ∧
          List.Forall₂ (FieldIndex.HasKey (i.resolver r)) fields entry.keys ∧
          texts = i.promotion.map (·.text table schema)
            ++ ["CREATE " ++ entry.kindText ++ entry.onText table]) := by
  constructor
  · intro name hname
    refine ⟨dropStatements_eq hname, fun texts htexts => ?_⟩
    obtain ⟨keys, hkeys, rfl⟩ := createStatements_eq schema hcovers htexts
    refine ⟨⟨unique, keys⟩, rfl, hkeys, ?_, ?_⟩
    · rw [hname, createText_named schema keys name, creation, List.map_append]
      rfl
    · intro hsingle before after hrun
      refine ⟨?_, dropped hsingle hrun⟩
      rw [created hsingle hrun]
      exact Function.update_self ..
  · intro hname
    refine ⟨⟨_, dropStatements_unnamed hname, rfl⟩, fun texts htexts => ?_⟩
    obtain ⟨keys, hkeys, rfl⟩ := createStatements_eq schema hcovers htexts
    refine ⟨⟨unique, keys⟩, rfl, hkeys, ?_⟩
    rw [hname, createText_unnamed]

/-- An index on two fields, of which the first goes down, and two columns promoted for it. -/
def versions : PromotedIndex where
  inner := .multi {
    fields := [⟨"metadata.version", .desc, false, none⟩, ⟨"name", .asc, false, none⟩]
    unique := true
    name := some ⟨"by_version", by decide⟩
    nonempty := by decide }
  columns := [⟨⟨"version", by decide⟩, ⟨"BIGINT", by decide⟩⟩,
    ⟨⟨"species", by decide⟩, ⟨"TEXT", by decide⟩⟩]
  nonempty := by decide

theorem created_dropped_versions :
    (promoted versions).inner.Covers true
      [⟨"metadata.version", .desc, false, none⟩, ⟨"name", .asc, false, none⟩] ∧
    createStatementsOf "app.animals" { promote := false } (.node (promoted versions)) = .ok
      ["ALTER TABLE app.animals ADD COLUMN version BIGINT, ADD COLUMN species TEXT",
        "CREATE UNIQUE INDEX by_version ON app.animals ((version) DESC, (doc->'name'))"] ∧
    dropStatementsOf "app.animals" "app" (.node (promoted versions)) = .ok
      ["DROP INDEX app.by_version",
        "ALTER TABLE app.animals DROP COLUMN version, DROP COLUMN species"] ∧
    ∃ (entry : IndexEntry) (after : Catalog String), entry.unique = true ∧
      CatalogStep.runAll id ((promoted versions).creation ⟨"by_version", by decide⟩ entry)
        ⟨["id", "doc"], fun _ => none⟩ = some after ∧
      after.indexes "by_version" = some entry ∧
      CatalogStep.runAll id ((promoted versions).removal ⟨"by_version", by decide⟩) after
        = some ⟨["id", "doc"], fun _ => none⟩ := by
  have hcreate : createStatementsOf "app.animals" { promote := false } (.node (promoted versions))
      = .ok ["ALTER TABLE app.animals ADD COLUMN version BIGINT, ADD COLUMN species TEXT",
        "CREATE UNIQUE INDEX by_version ON app.animals ((version) DESC, (doc->'name'))"] := by rfl
  obtain ⟨hnamed, -⟩ := created_dropped (i := promoted versions) id "app.animals" "app"
    { promote := false } (.multi _)
  obtain ⟨hdrop, hcreated⟩ := hnamed ⟨"by_version", by decide⟩ rfl
  obtain ⟨entry, hunique, -, -, hrun⟩ := hcreated _ hcreate
  have hsingle : ∀ c ∈ versions.columns, c.Single := by decide +kernel
  obtain ⟨after, hafter⟩ : ∃ after, CatalogStep.runAll id
      ((promoted versions).creation ⟨"by_version", by decide⟩ entry) ⟨["id", "doc"], fun _ => none⟩
        = some after := by
    rw [creation, promotion, CatalogStep.runAll_append, CatalogStep.runAll_cons,
      CatalogStep.run_add id _ versions.nonempty hsingle]
    exact ⟨_, rfl⟩
  obtain ⟨hentry, hback⟩ := hrun hsingle _ after hafter
  exact ⟨.multi _, hcreate, by rfl, entry, after, hunique, hafter, hentry, hback⟩

/-- An index with a column whose type has a second column behind it. -/
def smuggler : PromotedIndex where
  inner := .field ⟨"metadata.a", .asc, false, some ⟨"by_a", by decide⟩⟩
  columns := [⟨⟨"a", by decide⟩, ⟨"TEXT, ADD COLUMN x INT", by decide⟩⟩]
  nonempty := by decide

/-- The second column is added with the first, and is still there when the index is dropped. -/
theorem left_behind :
    createStatementsOf "em_ds_animals" { promote := false } (.node (promoted smuggler)) = .ok
      ["ALTER TABLE em_ds_animals ADD COLUMN a TEXT, ADD COLUMN x INT",
        "CREATE INDEX by_a ON em_ds_animals ((a))"] ∧
    dropStatementsOf "em_ds_animals" "public" (.node (promoted smuggler)) = .ok
      ["DROP INDEX public.by_a", "ALTER TABLE em_ds_animals DROP COLUMN a"] ∧
    ∃ (entry : IndexEntry) (after : Catalog String),
      ((promoted smuggler).creation ⟨"by_a", by decide⟩ entry).map (·.text "em_ds_animals" "public")
        = ["ALTER TABLE em_ds_animals ADD COLUMN a TEXT, ADD COLUMN x INT",
          "CREATE INDEX by_a ON em_ds_animals ((a))"] ∧
      ((promoted smuggler).removal ⟨"by_a", by decide⟩).map (·.text "em_ds_animals" "public")
        = ["DROP INDEX public.by_a", "ALTER TABLE em_ds_animals DROP COLUMN a"] ∧
      CatalogStep.runAll id ((promoted smuggler).creation ⟨"by_a", by decide⟩ entry)
        ⟨["id", "doc"], fun _ => none⟩ = some after ∧
      (CatalogStep.runAll id ((promoted smuggler).removal ⟨"by_a", by decide⟩) after).map (·.columns)
        = some ["id", "doc", "x"] := by
  -- the comma in the type begins a second item
  have hread : readAlterations
      (", ".intercalate (smuggler.columns.map fun c => "ADD COLUMN " ++ c.text))
        = some [.add "a", .add "x"] := by decide +kernel
  obtain ⟨entry, hentry⟩ : ∃ entry : IndexEntry,
      entry = ⟨false, [⟨.column ⟨"a", by decide⟩, false⟩]⟩ := ⟨_, rfl⟩
  obtain ⟨after, hafter⟩ : ∃ after : Catalog String,
      after = ⟨["id", "doc", "a", "x"], Function.update (fun _ => none) "by_a" (some entry)⟩ :=
    ⟨_, rfl⟩
  have hcreate : CatalogStep.runAll id ((promoted smuggler).creation ⟨"by_a", by decide⟩ entry)
      ⟨["id", "doc"], fun _ => none⟩ = some after := by
    rw [creation, promotion, CatalogStep.runAll_append, CatalogStep.runAll_cons, CatalogStep.run,
      hread, hafter]
    rfl
  have hindex : CatalogStep.run id after (.dropIndex ⟨"by_a", by decide⟩)
      = some ⟨["id", "doc", "a", "x"], fun _ => none⟩ := by
    have hput : Catalog.createIndex ⟨["id", "doc", "a", "x"], fun _ => none⟩ "by_a" entry
        = some after := by
      rw [hafter]
      rfl
    exact Catalog.dropIndex_createIndex hput
  refine ⟨by rfl, by rfl, entry, after, by rw [hentry]; rfl, by rfl, hcreate, ?_⟩
  rw [removal, CatalogStep.runAll_cons, hindex, Option.bind_some, CatalogStep.runAll_cons,
    CatalogStep.run_drop id _ smuggler.nonempty]
  rfl

end Index

end Docbase
