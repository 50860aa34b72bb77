import Docbase.Proofs.Engine.Tables
import Docbase.Proofs.Store.Reaching
import Docbase.Store.Collections
import Mathlib.Data.List.Nodup

/-!
# Listing collections

A store lists its collections by the tables with the common start, and searches for collections by
the tables whose names go on with a text behind it.

* `namesOf_found`: the names that a question for tables gives.
* `collections_listed`: **one name for each table with the common start, which leads to that table
  again**.
* `searched_as_listed_iff`: **a search finds the names that start with a text, if no table strays from
  it**; `searched_astray` is one that does.
-/

namespace Docbase

open Sql Store Text

variable {σ : Type} [Engine σ]

namespace Options

theorem asked_tablesQuery (pattern : String) (schema : Option String) :
    Search.ofCommand? (tablesQuery pattern schema) = some ⟨pattern, schema⟩ := by
  cases schema <;> rfl

variable {o : Options} {t : Table} {row : Value}

/-- The tables of all collections are those with the common start. -/
theorem finds_startPattern (start : String) :
    Search.finds ⟨startPattern start, none⟩ = Table.belongs start := by
  funext t
  have hlike := like_escapeLike_start (lower start) t.name
  rw [Search.finds, startPattern, Option.all_none, Bool.and_true, Bool.eq_iff_iff, hlike,
    Table.belongs, List.isPrefixOf_iff_prefix]

/-- A search for a start asks for the tables that are sought. -/
theorem asked_tablesFromQuery (o : Options) (start : String) :
    ∃ command q, o.tablesFromQuery (.str start) = .ok command ∧
      Search.ofCommand? command = some q ∧ q.finds = Table.sought o.tableStart start := by
  cases hsplit : splitFirst '.' start with
  | none =>
    refine ⟨_, _, by rw [tablesFromQuery, hsplit], asked_tablesQuery _ none, ?_⟩
    funext t
    rw [Search.finds, Option.all_none, Bool.and_true, Table.sought, hsplit, startPattern]
  | some parts =>
    refine ⟨_, _, by rw [tablesFromQuery, hsplit], asked_tablesQuery _ (some _), ?_⟩
    funext t
    rw [Search.finds, Option.all_some, Table.sought, hsplit, startPattern]

/-- A row that tells a table tells the name of its collection. -/
theorem collectionOfRow_told (h : t.Told row) :
    o.collectionOfRow row = .ok (.str (t.listed o.tableStart)) := by
  have hread : o.collectionOfRow row
      = if Value.same (.str t.schema) (.str Collection.defaultSchema)
        then .ok (.str (t.rest o.tableStart))
        else .ok (.str (t.schema ++ "." ++ t.rest o.tableStart)) := by
    unfold collectionOfRow
    rw [h.name, h.schema]
    rfl
  have hsame : Value.same (.str t.schema) (.str Collection.defaultSchema)
      = (t.schema == Collection.defaultSchema) := by rw [Value.same]
  rw [hread, hsame, Table.listed]
  by_cases hpublic : t.schema = Collection.defaultSchema
  · simp [hpublic]
  · simp [hpublic]

theorem collectionsOfRows_told {tables : List Table} {rows : List Value}
    (h : List.Forall₂ Table.Told tables rows) :
    o.collectionsOfRows rows = .ok ((tables.map (Table.listed o.tableStart)).map Value.str) := by
  induction h with
  | nil => rfl
  | cons hrow _ ih =>
    rw [collectionsOfRows, collectionOfRow_told hrow, ih]
    rfl

end Options

namespace Store

variable {inventory : Inventory σ} {k : ConnectionId} {s : Session σ} {tables : List Table}

/-- **A question for tables gives the names of their collections**, and can be followed by others. -/
theorem namesOf_found (hlists : Engine.Lists inventory)
    (hs : s.Reaches k (inventory.At tables s.cursorId))
    {query : Options → Except Error Command} {command : Command} {q : Search}
    (hquery : query s.options = .ok command) (hasked : Search.ofCommand? command = some q) :
    ∃ u, runFrom s (namesOf query)
        = (.ok (((tables.filter q.finds).map (Table.listed s.options.tableStart)).map Value.str), u) ∧
      u.options = s.options ∧ u.Reaches k (inventory.At tables u.cursorId) := by
  obtain ⟨rows, u, hfetch, hu, htold, hfinds⟩ := hs.fetchAll fun e he => hlists.find he hasked
  refine ⟨u, ?_, hu.options, .ready hu.connection hu.cursor ?_⟩
  · rw [namesOf, runFrom_bind, runFrom_get]
    simp only [runFrom_bind, ask, runFrom_get, runFrom_given, hquery, hfetch,
      Options.collectionsOfRows_told htold]
    rfl
  · rwa [hu.cursorId]

/-- All collections are those of the tables with the common start. -/
theorem listCollections_found (hlists : Engine.Lists inventory)
    (hs : s.Reaches k (inventory.At tables s.cursorId)) :
    ∃ u, runFrom s listCollections
        = (.ok (((tables.filter (Table.belongs s.options.tableStart)).map
            (Table.listed s.options.tableStart)).map Value.str), u) ∧
      u.options = s.options ∧ u.Reaches k (inventory.At tables u.cursorId) := by
  rw [← Options.finds_startPattern]
  exact namesOf_found hlists hs rfl (Options.asked_tablesQuery _ none)

/-- The collections of a search are those of the tables that are sought. -/
theorem collectionsFrom_found (hlists : Engine.Lists inventory)
    (hs : s.Reaches k (inventory.At tables s.cursorId)) (start : String) :
    ∃ u, runFrom s (collectionsFrom (.str start))
        = (.ok (((tables.filter (Table.sought s.options.tableStart start)).map
            (Table.listed s.options.tableStart)).map Value.str), u) ∧
      u.options = s.options ∧ u.Reaches k (inventory.At tables u.cursorId) := by
  obtain ⟨command, q, hquery, hasked, hfinds⟩ := Options.asked_tablesFromQuery s.options start
  rw [← hfinds]
  exact namesOf_found hlists hs hquery hasked

end Store

/-! ## All collections -/

variable {inventory : Inventory σ} {k : ConnectionId} {s : Session σ} {tables : List Table}

/-- **Listing and naming are inverse**: the names that are listed are those of the tables with the
common start, in their order, each another one, and each leads to its table again; and the table of a
collection that is there is among them. -/
theorem collections_listed (hlists : Engine.Lists inventory)
    (hs : s.Reaches k (inventory.At tables s.cursorId)) (hstart : IsWord s.options.tableStart)
    (hfolded : ∀ t ∈ tables, t.Folded) (hdistinct : tables.Nodup) :
    ∃ (names : List String) (u : Session σ),
      runFrom s listCollections = (.ok (names.map Value.str), u) ∧ names.Nodup ∧
      List.Forall₂
        (fun t name => Collection.place name s.options.tableStart = t ∧
          Collection.tableName name s.options.tableStart = t.shown)
        (tables.filter (Table.belongs s.options.tableStart)) names ∧
      ∀ name, Collection.IsName name →
        Collection.tableName name s.options.tableStart
            = Collection.qualified name (Collection.place name s.options.tableStart).schema
              (Collection.place name s.options.tableStart).name ∧
          (Collection.place name s.options.tableStart ∈ tables →
            ∃ other ∈ names, Collection.place other s.options.tableStart
              = Collection.place name s.options.tableStart) := by
  obtain ⟨u, hrun, -, -⟩ := listCollections_found hlists hs
  have hmem : ∀ t ∈ tables.filter (Table.belongs s.options.tableStart),
      t.Folded ∧ t.belongs s.options.tableStart = true := fun t ht =>
    ⟨hfolded t (List.mem_filter.1 ht).1, (List.mem_filter.1 ht).2⟩
  refine ⟨_, u, hrun, ?_, ?_, fun name hname => ?_⟩
  · refine (hdistinct.filter _).map_on fun t ht t' ht' h => ?_
    exact Table.eq_of_listed hstart (hmem t ht).1 (hmem t ht).2 (hmem t' ht').1 (hmem t' ht').2 h
  · refine List.forall₂_map_right_iff.2 (List.forall₂_same.2 fun t ht => ?_)
    exact ⟨Table.place_listed hstart (hmem t ht).1 (hmem t ht).2,
      Table.tableName_listed hstart (hmem t ht).1 (hmem t ht).2⟩
  · obtain ⟨hbelongs, hplace, hqualified⟩ := Collection.place_belongs hstart hname
    refine ⟨hqualified, fun hmem => ?_⟩
    have hlisted := List.mem_map_of_mem (f := Table.listed s.options.tableStart)
      (List.mem_filter.2 ⟨hmem, hbelongs⟩)
    exact ⟨_, hlisted, Table.place_listed hstart hplace hbelongs⟩

/-- A store whose database has collections in two schemas. -/
def Session.onDirectory : Session Directory :=
  .withConnection { (default : Options) with tableStart := "em_ds_" } {}
    { tables :=
        [⟨"public", "em_ds_animals"⟩, ⟨"app", "em_ds_plants"⟩, ⟨"app", "emxds_other"⟩] }

theorem onDirectory_reaches : Session.onDirectory.Reaches 0
    (Directory.inventory.At Session.onDirectory.engine.tables Session.onDirectory.cursorId) :=
  .held rfl rfl ⟨trivial, rfl⟩

theorem onDirectory_folded : ∀ t ∈ Session.onDirectory.engine.tables, t.Folded := by decide +kernel

/-- The tables of two collections, and one with a letter in place of the underscore. -/
theorem collections_listed_onDirectory :
    ∃ (names : List String) (u : Session Directory),
      runFrom .onDirectory listCollections = (.ok (names.map Value.str), u) ∧ names.Nodup ∧
      names.map (Collection.place · "em_ds_")
        = [⟨"public", "em_ds_animals"⟩, ⟨"app", "em_ds_plants"⟩] := by
  obtain ⟨names, u, hrun, hdistinct, hplaces, -⟩ := collections_listed Directory.lists
    onDirectory_reaches (by decide +kernel) onDirectory_folded (by decide +kernel)
  have htables : Session.onDirectory.engine.tables.filter
      (Table.belongs Session.onDirectory.options.tableStart)
      = [⟨"public", "em_ds_animals"⟩, ⟨"app", "em_ds_plants"⟩] := by decide +kernel
  rw [htables] at hplaces
  obtain _ | ⟨⟨hanimals, -⟩, _ | ⟨⟨hplants, -⟩, _ | _⟩⟩ := hplaces
  exact ⟨_, u, hrun, hdistinct, congrArg₂ (fun t u => [t, u]) hanimals hplants⟩

/-! ## Searches -/

/-- The names of tables, where each leads to its table, are the same only for the same tables. -/
theorem filter_listed_inj {start : String} {p q : Table → Bool} (hstart : IsWord start)
    (hfolded : ∀ t ∈ tables, t.Folded) (hp : ∀ t ∈ tables, p t = true → t.belongs start = true)
    (hq : ∀ t ∈ tables, q t = true → t.belongs start = true) :
    (tables.filter p).map (Table.listed start) = (tables.filter q).map (Table.listed start) ↔
      ∀ t ∈ tables, p t = q t := by
  -- the names lead back to the tables
  have hback : ∀ r : Table → Bool, (∀ t ∈ tables, r t = true → t.belongs start = true) →
      ((tables.filter r).map (Table.listed start)).map (Collection.place · start)
        = tables.filter r := by
    intro r hr
    rw [List.map_map]
    refine (List.map_congr_left fun t ht => ?_).trans (List.map_id _)
    obtain ⟨ht, hrt⟩ := List.mem_filter.1 ht
    exact Table.place_listed hstart (hfolded t ht) (hr t ht hrt)
  constructor
  · intro h t ht
    have hsame : tables.filter p = tables.filter q := by
      rw [← hback p hp, ← hback q hq, h]
    have hmem : t ∈ tables.filter p ↔ t ∈ tables.filter q := by rw [hsame]
    rw [List.mem_filter, List.mem_filter, and_iff_right ht, and_iff_right ht] at hmem
    exact Bool.eq_iff_iff.2 hmem
  · intro h
    rw [List.filter_congr h]

/-- **A search finds the names that start with a text exactly if no table strays from it.** What it
finds are the names of the tables that are sought. -/
theorem searched_as_listed_iff (hlists : Engine.Lists inventory)
    (hs : s.Reaches k (inventory.At tables s.cursorId)) (hstart : IsWord s.options.tableStart)
    (hfolded : ∀ t ∈ tables, t.Folded) {start : String} (hname : Collection.IsName start) :
    ∃ (names found : List String) (t u : Session σ),
      runFrom s listCollections = (.ok (names.map Value.str), t) ∧
      runFrom t (collectionsFrom (.str start)) = (.ok (found.map Value.str), u) ∧
      found = (tables.filter (Table.sought s.options.tableStart start)).map
        (Table.listed s.options.tableStart) ∧
      (found = names.filter (fun name => (lower start).toList.isPrefixOf name.toList) ↔
        ∀ t ∈ tables, t.belongs s.options.tableStart = true →
          ¬ t.Strays s.options.tableStart start) := by
  obtain ⟨t, hlist, hoptions, ht⟩ := listCollections_found hlists hs
  obtain ⟨u, hsearch, -, -⟩ := collectionsFrom_found hlists ht start
  rw [hoptions] at hsearch
  refine ⟨_, _, t, u, hlist, hsearch, rfl, ?_⟩
  -- the names that start so are those of the tables that are named so
  have hnamed : ((tables.filter (Table.belongs s.options.tableStart)).map
        (Table.listed s.options.tableStart)).filter
        (fun name => (lower start).toList.isPrefixOf name.toList)
      = (tables.filter fun t => t.named s.options.tableStart start &&
          t.belongs s.options.tableStart).map (Table.listed s.options.tableStart) := by
    rw [List.filter_map, List.filter_filter]
    rfl
  rw [hnamed, filter_listed_inj hstart hfolded
    (fun t _ h => Table.belongs_of_sought hstart hname h)
    (fun t _ h => (Bool.and_eq_true_iff.1 h).2)]
  refine forall₂_congr fun t ht => ?_
  cases hbelongs : t.belongs s.options.tableStart with
  | false =>
    -- a table without the common start is not found, nor is it listed
    have hsought : t.sought s.options.tableStart start = false := by
      rw [Bool.eq_false_iff]
      intro h
      rw [Table.belongs_of_sought hstart hname h] at hbelongs
      cases hbelongs
    simp [hsought]
  | true =>
    rw [Bool.and_true, Table.sought_eq_named_iff hstart hname (hfolded t ht) hbelongs]
    simp

/-- A search with a schema finds what it is asked for. -/
theorem searched_as_listed_app :
    Collection.IsName "App.Pl" ∧ ∃ (names found : List String) (t u : Session Directory),
      runFrom .onDirectory listCollections = (.ok (names.map Value.str), t) ∧
      runFrom t (collectionsFrom (.str "App.Pl")) = (.ok (found.map Value.str), u) ∧
      found = ["app.plants"] ∧
      found = names.filter fun name => (lower "App.Pl").toList.isPrefixOf name.toList := by
  have hname : Collection.IsName "App.Pl" := by decide +kernel
  obtain ⟨names, found, t, u, hlist, hsearch, hfound, hiff⟩ := searched_as_listed_iff
    Directory.lists onDirectory_reaches (by decide +kernel) onDirectory_folded hname
  refine ⟨hname, names, found, t, u, hlist, hsearch, hfound.trans ?_, hiff.2 ?_⟩
  · decide +kernel
  · decide +kernel

/-- Of one collection in another schema, a search finds the rest of its name, and not the start. -/
theorem searched_astray :
    ∃ t u v : Session Directory,
      runFrom .onDirectory listCollections = (.ok [.str "animals", .str "app.plants"], t) ∧
      runFrom t (collectionsFrom (.str "pl")) = (.ok [.str "app.plants"], u) ∧
      ¬ (lower "pl").toList <+: "app.plants".toList ∧
      runFrom t (collectionsFrom (.str "ap")) = (.ok [], v) ∧
      (lower "ap").toList <+: "app.plants".toList := by
  obtain ⟨t, hlist, hoptions, ht⟩ := listCollections_found Directory.lists onDirectory_reaches
  obtain ⟨u, hplants, -⟩ := collectionsFrom_found Directory.lists ht "pl"
  obtain ⟨v, happ, -⟩ := collectionsFrom_found Directory.lists ht "ap"
  rw [hoptions] at hplants happ
  have hall : (Session.onDirectory.engine.tables.filter
      (Table.belongs Session.onDirectory.options.tableStart)).map
      (Table.listed Session.onDirectory.options.tableStart) = ["animals", "app.plants"] := by
    decide +kernel
  have hpl : (Session.onDirectory.engine.tables.filter
      (Table.sought Session.onDirectory.options.tableStart "pl")).map
      (Table.listed Session.onDirectory.options.tableStart) = ["app.plants"] := by
    decide +kernel
  have hap : (Session.onDirectory.engine.tables.filter
      (Table.sought Session.onDirectory.options.tableStart "ap")).map
      (Table.listed Session.onDirectory.options.tableStart) = [] := by
    decide +kernel
  rw [hall] at hlist
  rw [hpl] at hplants
  rw [hap] at happ
  exact ⟨t, u, v, hlist, hplants, by decide +kernel, happ, by decide +kernel⟩

end Docbase
