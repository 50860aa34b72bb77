import Docbase.Engine.Scripted
import Docbase.Proofs.Store.Run
import Docbase.Proofs.Store.Statements

/-!
# Placeholders in the commands of a store

A command that is sent with bound values is read once more by the driver, for the places of the
values. Tables and the keys of paths go into its text as the caller wrote them, percent signs and
all, so it depends on them whether the driver finds the right places.

* `Request.texts`: what the caller of a request writes into its commands.
* `Command.Places`: a command shows some texts of callers, and has the places of its values.
* `Request.Sends.places`: **every command that a request sends shows exactly its texts**.
* `executed_wellFormed_iff`: **a command that is sent in a run is well formed exactly if the texts of
  its request are innocent**, and they are read as nothing but text exactly if they are inert.
-/

namespace Docbase

open Sql Store

/-! ## Commands -/

namespace Sql

/-- A command shows these texts of callers, and has the places of its values. -/
def Command.Places (c : Command) (texts : List String) : Prop :=
  ∀ params, c.params = some params →
    ∃ ps, Assembled params.names c.text ps ∧ Piece.callers ps = texts

variable {statement : Statement} {params : Params} {texts labels : List String}

theorem Shows.places (h : Shows (statement.text ++ " ") texts labels)
    (hn : ∀ n, n ∈ params.names ↔ n ∈ labels) : (Command.bound statement params).Places texts := by
  intro ps hps
  cases hps
  obtain ⟨pieces, hconcat, hplain, hcallers, rfl⟩ := h
  exact ⟨pieces, ⟨hconcat, hplain, hn⟩, hcallers⟩

/-- The driver does not read commands without bound values. -/
theorem Command.plain_places : (Command.plain statement).Places texts := fun _ h => by cases h

theorem shows_unsorted : Shows (orderByText []) [] [] := Shows.empty

/-- A condition of a command that looks something up: a text, and the name of the value behind it. -/
structure Lookup where
  text : String
  name : String

namespace Lookup

/-- The condition in SQL. -/
def condition (l : Lookup) : String := l.text ++ placeholder l.name

/-- There is nothing in the condition that could be misread. -/
def Plain (l : Lookup) : Prop := '%' ∉ l.text.toList ∧ Bare l.name

instance (l : Lookup) : Decidable l.Plain :=
  inferInstanceAs (Decidable ('%' ∉ l.text.toList ∧ Bare l.name))

/-- A command of the library's own, about rows of a catalog. -/
theorem shows (items catalog : String) (lookups : List Lookup)
    (h : '%' ∉ items.toList ∧ '%' ∉ catalog.toList ∧ ∀ l ∈ lookups, l.Plain) :
    Shows ((Statement.select items catalog (allOf (lookups.map condition)) [] false false).text
      ++ " ") [] (lookups.map (·.name)) := by
  obtain ⟨hitems, hcatalog, hlookups⟩ := h
  have htable : Shows (catalog ++ " ") [] [] := .text (by simpa using hcatalog)
  have hand : '%' ∉ " AND ".toList := by decide
  have hconditions : Shows (" AND ".intercalate (lookups.map condition))
      (lookups.flatMap fun _ => []) (lookups.flatMap fun l => [l.name]) :=
    Shows.intercalate hand fun l hl => (Shows.text (hlookups l hl).1).append (.hole (hlookups l hl).2)
  have hscope := (Shows.text (by decide : '%' ∉ "WHERE ".toList)).append hconditions
  rw [List.flatMap_eq_nil_iff.2 fun _ _ => rfl, ← List.map_eq_flatMap] at hscope
  have hall : Shows (allOf (lookups.map condition)).text [] (lookups.map (·.name)) := hscope
  simpa [pageLabels] using shows_select (.text hitems) htable hall shows_unsorted false false

end Lookup

end Sql

namespace Record

theorem mem_names_bindColumns {params : Params} {columns : List (Identifier × Value)} {n : String} :
    n ∈ (bindColumns params columns).names ↔
      n ∈ params.names ∨ n ∈ columns.map fun c => columnParam c.1 := by
  induction columns generalizing params with
  | nil => simp [bindColumns]
  | cons c cs ih =>
    obtain ⟨column, value⟩ := c
    rw [bindColumns, ih, Params.mem_names_put]
    simp only [List.map_cons, List.mem_cons, or_assoc]

/-- The parts of a record are bound under the names that its statements have places for. -/
theorem mem_names_bind {record : Record} {params : Params} {n : String} :
    n ∈ (record.bind params).names ↔
      n ∈ params.names ∨ n ∈ "doc" :: record.columnNames.map columnParam := by
  rw [bind, mem_names_bindColumns, Params.mem_names_put, columnNames, List.map_map, List.mem_cons,
    or_assoc]
  rfl

theorem label_assignments (record : Record) (merge : Bool) :
    (record.assignments merge).map Assignment.label =
      "doc" :: record.columnNames.map columnParam := by
  cases merge <;> simp [assignments, Assignment.label, Function.comp_def]

end Record

namespace Options

variable {o : Options} {collection : Value}

/-- The table of a collection, as a list. -/
def tables (o : Options) (collection : Value) : List String :=
  match o.table collection with
  | .ok table => [table]
  | .error _ => []

theorem tables_ok {table : String} (h : o.table collection = .ok table) :
    o.tables collection = [table] := by
  rw [tables, h]

end Options

/-- The keys of what is given as a filter. -/
def Filter.keysOf (r : Resolver) : Given Filter → List String
  | .node f => f.keys r
  | .value _ => []

theorem Filter.shows_of_given {r : Resolver} (hr : r.base = docColumn) {filter : Given Filter}
    {clause : Clause} (h : Filter.clauseOf r filter = .ok clause) :
    Shows (Scope.ofClause clause).text (Filter.keysOf r filter) clause.params.names := by
  cases filter with
  | value v => cases h
  | node f =>
    have htext : (Scope.ofClause clause).text = clause.whereText := by
      rw [Scope.ofClause, Clause.whereText]
      cases clause.text <;> rfl
    rw [htext]
    exact shows_of_clause hr h

namespace Options

variable {o : Options} {collection : Value} {items : String} {itemKeys : List String} {c : Command}

theorem resolver_base : o.resolver.base = docColumn := rfl

theorem byId_places (hitems : Shows items itemKeys []) {id : Value}
    (h : o.byIdCommand items collection id = .ok c) : c.Places (itemKeys ++ o.tables collection) := by
  obtain ⟨table, ht, h⟩ := bind_eq_ok.1 h
  cases h
  rw [tables_ok ht]
  have hshows := shows_select hitems (.table table) shows_byId shows_unsorted false false
  refine Shows.places (by simpa [pageLabels] using hshows) fun n => ?_
  simp

theorem all_places (hitems : Shows items itemKeys []) {filter : Given Filter}
    (h : o.allCommand items collection filter = .ok c) :
    c.Places (itemKeys ++ (o.tables collection ++ Filter.keysOf o.resolver filter)) := by
  obtain ⟨clause, hc, h⟩ := bind_eq_ok.1 h
  obtain ⟨table, ht, h⟩ := bind_eq_ok.1 h
  cases h
  rw [tables_ok ht]
  have hscope := Filter.shows_of_given resolver_base hc
  have hshows := shows_select hitems (.table table) hscope shows_unsorted false false
  exact Shows.places (by simpa [pageLabels] using hshows) fun n => Iff.rfl

/-- The numbers of rows are bound if they are given. -/
theorem mem_names_bindCounts {params : Params} {limit skip : Option Nat} {n : String} :
    n ∈ (bindCount (bindCount params "limit" limit) "offset" skip).names ↔
      n ∈ params.names ++ pageLabels limit.isSome skip.isSome := by
  cases limit <;> cases skip <;> simp [bindCount, pageLabels, Params.mem_names_put, or_assoc]

theorem select_places (hitems : Shows items itemKeys []) {filter : Given Filter} {paging : Paging}
    (h : o.selectCommand items collection filter paging = .ok c) :
    c.Places (itemKeys ++ (o.tables collection ++ (Filter.keysOf o.resolver filter ++
      Order.keysOf o.resolver paging.order))) := by
  obtain ⟨skip, -, h⟩ := bind_eq_ok.1 h
  obtain ⟨limit, -, h⟩ := bind_eq_ok.1 h
  obtain ⟨clause, hc, h⟩ := bind_eq_ok.1 h
  obtain ⟨table, ht, h⟩ := bind_eq_ok.1 h
  obtain ⟨ks, hks, h⟩ := bind_eq_ok.1 h
  cases h
  rw [tables_ok ht]
  have hscope := Filter.shows_of_given resolver_base hc
  have horder := Order.shows_of_keys resolver_base (refuse_eq_ok.1 hks)
  exact Shows.places
    (shows_select hitems (.table table) hscope horder limit.isSome skip.isSome)
    fun n => mem_names_bindCounts

theorem shows_selectionItems {select : Given Selection} {p : Selection × String}
    (h : o.selectionItems select = .ok p) : Shows p.2 (Selection.keysOf o.resolver select) [] := by
  obtain ⟨selection, hselect, h⟩ := bind_eq_ok.1 h
  obtain ⟨items, hitems, h⟩ := bind_eq_ok.1 h
  cases h
  rw [Selection.keysOf, hselect]
  exact Selection.shows_of_list resolver_base (refuse_eq_ok.1 hitems)

theorem placeParams_names {params : Params} (h : o.placeParams collection = .ok params) :
    params.names = ["schema", "table"] := by
  obtain ⟨schema, -, h⟩ := bind_eq_ok.1 h
  obtain ⟨table, -, h⟩ := bind_eq_ok.1 h
  cases h
  rfl

theorem hasCollection_places (h : o.hasCollectionQuery collection = .ok c) : c.Places [] := by
  obtain ⟨params, hparams, h⟩ := bind_eq_ok.1 h
  cases h
  have hshows := Lookup.shows "table_name" tableCatalog
    [⟨"table_schema" ++ " = ", "schema"⟩, ⟨"table_name" ++ " = ", "table"⟩] (by decide)
  refine Shows.places hshows fun n => ?_
  rw [placeParams_names hparams]
  rfl

theorem hasIndex_places {index : Value} (h : o.hasIndexQuery collection index = .ok c) :
    c.Places [] := by
  obtain ⟨params, hparams, h⟩ := bind_eq_ok.1 h
  obtain ⟨name, -, h⟩ := bind_eq_ok.1 h
  cases h
  have hshows := Lookup.shows "indexname" "pg_indexes"
    [⟨"schemaname" ++ " = ", "schema"⟩, ⟨"tablename" ++ " = ", "table"⟩,
      ⟨"indexname" ++ " = ", "index"⟩] (by decide)
  refine Shows.places hshows fun n => ?_
  rw [Params.mem_names_put, placeParams_names hparams]
  simp [or_assoc]

theorem tables_places (pattern : String) (schema : Option String) :
    (tablesQuery pattern schema).Places [] := by
  cases schema with
  | none =>
    have hshows := Lookup.shows "table_schema, table_name" tableCatalog
      [⟨"table_name LIKE ", "pattern"⟩] (by decide)
    exact Shows.places hshows fun n => Iff.rfl
  | some schema =>
    have hshows := Lookup.shows "table_schema, table_name" tableCatalog
      [⟨"table_name LIKE ", "pattern"⟩, ⟨"table_schema" ++ " = ", "schema"⟩] (by decide)
    exact Shows.places hshows fun n => by simp [Params.put, Params.names]

theorem tablesFrom_places {start : Value} (h : o.tablesFromQuery start = .ok c) : c.Places [] := by
  unfold tablesFromQuery at h
  split at h
  · split at h
    · cases h; exact tables_places _ _
    · cases h; exact tables_places _ _
  · split at h
    · cases h
    · cases h
    · cases h; exact tables_places _ _

end Options

/-! ## Changes -/

namespace Options

variable {o : Options} {collection : Value} {p : Plan} {c : Command}

theorem addDoc_places {id document : Value} (hp : o.addDocPlan collection id document = .ok p)
    (hc : c ∈ p.commands) : c.Places (o.tables collection) := by
  obtain ⟨record, -, hp⟩ := bind_eq_ok.1 hp
  obtain ⟨table, ht, hp⟩ := bind_eq_ok.1 hp
  cases hp
  cases List.mem_singleton.1 hc
  rw [tables_ok ht]
  refine Shows.places (shows_insert (.table table) record.columnNames) fun n => ?_
  rw [Record.mem_names_bind, Params.names_cons, Params.names_nil, List.mem_singleton,
    ← List.mem_cons]

theorem changeDoc_places {merge : Bool} {id document : Value}
    (hp : o.changeDocPlan merge collection id document = .ok p) (hc : c ∈ p.commands) :
    c.Places (o.tables collection) := by
  obtain ⟨record, -, hp⟩ := bind_eq_ok.1 hp
  obtain ⟨table, ht, hp⟩ := bind_eq_ok.1 hp
  cases hp
  cases List.mem_singleton.1 hc
  rw [tables_ok ht]
  have hshows := shows_update (.table table) (record.assignments merge) shows_byId
  refine Shows.places hshows fun n => ?_
  -- the id is bound first, but its place comes last
  rw [Record.mem_names_bind, Record.label_assignments, List.mem_append, or_comm]
  rfl

theorem changeMany_places {merge : Bool} {filter : Given Filter} {document : Value}
    (hp : o.changeManyPlan merge collection filter document = .ok p) (hc : c ∈ p.commands) :
    c.Places (o.tables collection ++ Filter.keysOf o.resolver filter) := by
  obtain ⟨clause, hclause, hp⟩ := bind_eq_ok.1 hp
  obtain ⟨record, -, hp⟩ := bind_eq_ok.1 hp
  obtain ⟨table, ht, hp⟩ := bind_eq_ok.1 hp
  cases hp
  cases List.mem_singleton.1 hc
  rw [tables_ok ht]
  have hscope := Filter.shows_of_given resolver_base hclause
  refine Shows.places (shows_update (.table table) (record.assignments merge) hscope) fun n => ?_
  rw [Record.mem_names_bind, Record.label_assignments, List.mem_append, or_comm]

theorem deleteDoc_places {id : Value} (hp : o.deleteDocPlan collection id = .ok p)
    (hc : c ∈ p.commands) : c.Places (o.tables collection) := by
  obtain ⟨table, ht, hp⟩ := bind_eq_ok.1 hp
  cases hp
  cases List.mem_singleton.1 hc
  rw [tables_ok ht]
  exact Shows.places (shows_delete (.table table) shows_byId) fun n => Iff.rfl

theorem deleteMany_places {filter : Given Filter}
    (hp : o.deleteManyPlan collection filter = .ok p) (hc : c ∈ p.commands) :
    c.Places (o.tables collection ++ Filter.keysOf o.resolver filter) := by
  obtain ⟨clause, hclause, hp⟩ := bind_eq_ok.1 hp
  obtain ⟨table, ht, hp⟩ := bind_eq_ok.1 hp
  cases hp
  cases List.mem_singleton.1 hc
  rw [tables_ok ht]
  have hscope := Filter.shows_of_given resolver_base hclause
  exact Shows.places (shows_delete (.table table) hscope) fun n => Iff.rfl

end Options

/-- The statement adds documents or changes them. -/
def Sql.Statement.isWrite : Statement → Bool
  | insert .. | update .. => true
  | _ => false

/-- The change is one of collections or indexes. -/
def Change.isSchema : Change → Bool
  | addCollection .. | dropCollection _ | addIndex .. | dropIndex .. => true
  | _ => false

/-- Commands about collections and indexes are sent without bound values, and write no documents. -/
theorem Change.plain_of_plan {o : Options} {m : Change} {p : Plan} {c : Command}
    (hp : m.plan o = .ok p) (hm : m.isSchema = true) (hc : c ∈ p.commands) :
    ∃ statement, c = .plain statement ∧ statement.isWrite = false := by
  cases m with
  | addCollection collection indexes =>
    obtain ⟨table, -, hp⟩ := bind_eq_ok.1 hp
    obtain ⟨schema, -, hp⟩ := bind_eq_ok.1 hp
    obtain ⟨statements, -, hp⟩ := bind_eq_ok.1 hp
    cases hp
    simp only [List.mem_append, List.mem_map, List.mem_cons] at hc
    rcases hc with ⟨s, -, rfl⟩ | rfl | ⟨t, -, rfl⟩ <;> exact ⟨_, rfl, rfl⟩
  | dropCollection collection =>
    obtain ⟨table, -, hp⟩ := bind_eq_ok.1 hp
    cases hp
    exact ⟨_, List.mem_singleton.1 hc, rfl⟩
  | addIndex collection index =>
    obtain ⟨table, -, hp⟩ := bind_eq_ok.1 hp
    obtain ⟨statements, -, hp⟩ := bind_eq_ok.1 hp
    cases hp
    obtain ⟨statement, -, rfl⟩ := List.mem_map.1 hc
    exact ⟨_, rfl, rfl⟩
  | dropIndex collection index =>
    obtain ⟨schema, -, hp⟩ := bind_eq_ok.1 hp
    obtain ⟨table, -, hp⟩ := bind_eq_ok.1 hp
    obtain ⟨statements, -, hp⟩ := bind_eq_ok.1 hp
    obtain ⟨name, -, hp⟩ := bind_eq_ok.1 hp
    cases hp
    obtain ⟨statement, -, rfl⟩ := List.mem_map.1 hc
    exact ⟨_, rfl, rfl⟩
  | _ => cases hm

/-! ## Requests -/

/-- What the caller of a change writes into the command that is sent with bound values. -/
def Change.texts (o : Options) : Change → List String
  | addCollection .. | dropCollection _ | addIndex .. | dropIndex .. => []
  | addDoc collection _ _ | updateDoc collection _ _ | replaceDoc collection _ _
  | deleteDoc collection _ => o.tables collection
  | updateMany collection filter _ | replaceMany collection filter _ | deleteMany collection filter =>
    o.tables collection ++ Filter.keysOf o.resolver filter

/-- What the caller of a question writes into its command. -/
def Question.texts (o : Options) : Question → List String
  | listCollections | collectionsFrom _ | hasCollection _ | hasIndex .. => []
  | getDoc collection _ => o.tables collection
  | getPartialDoc collection select _ => Selection.keysOf o.resolver select ++ o.tables collection
  | filterDocIds collection filter | countDocs collection filter =>
    o.tables collection ++ Filter.keysOf o.resolver filter

/-- What the caller writes into the command of a reader. -/
def Opening.texts (o : Options) : Opening → List String
  | filterDocs collection filter paging | findDocs collection filter paging =>
    o.tables collection ++ (Filter.keysOf o.resolver filter ++ Order.keysOf o.resolver paging.order)
  | findPartialDocs collection select filter paging =>
    Selection.keysOf o.resolver select ++ (o.tables collection ++
      (Filter.keysOf o.resolver filter ++ Order.keysOf o.resolver paging.order))

/-- What the caller of a request writes into its commands. -/
def Request.texts (o : Options) : Request → List String
  | .change m => m.texts o
  | .upsertDoc collection _ _ => o.tables collection
  | .question q => q.texts o
  | .opening q => q.texts o
  | .next _ | .finish _ | .client | .cursor | .close => []

variable {o : Options} {c : Command}

theorem Change.Sends.places {m : Change} (h : m.Sends o c) : c.Places (m.texts o) := by
  obtain ⟨p, hp, hc⟩ := h
  cases m with
  | addCollection | dropCollection | addIndex | dropIndex =>
    -- statements about tables and indexes are sent without bound values
    obtain ⟨statement, rfl, -⟩ := Change.plain_of_plan hp rfl hc
    exact Command.plain_places
  | addDoc collection id document => exact Options.addDoc_places hp hc
  | updateDoc collection id document => exact Options.changeDoc_places hp hc
  | replaceDoc collection id document => exact Options.changeDoc_places hp hc
  | updateMany collection filter document => exact Options.changeMany_places hp hc
  | replaceMany collection filter document => exact Options.changeMany_places hp hc
  | deleteDoc collection id => exact Options.deleteDoc_places hp hc
  | deleteMany collection filter => exact Options.deleteMany_places hp hc

theorem Question.places {q : Question} (h : q.command o = .ok c) : c.Places (q.texts o) := by
  have hplain : ∀ {s : String}, '%' ∉ s.toList → Shows s [] [] := Shows.text
  cases q with
  | listCollections => cases h; exact Options.tables_places _ _
  | collectionsFrom start => exact Options.tablesFrom_places h
  | hasCollection collection => exact Options.hasCollection_places h
  | hasIndex collection index => exact Options.hasIndex_places h
  | getDoc collection id => exact Options.byId_places (hplain (by decide)) h
  | getPartialDoc collection select id =>
    obtain ⟨p, hp, h⟩ := bind_eq_ok.1 h
    exact Options.byId_places (Options.shows_selectionItems hp) h
  | filterDocIds collection filter => exact Options.all_places (hplain (by decide)) h
  | countDocs collection filter => exact Options.all_places (hplain (by decide)) h

theorem Opening.places {q : Opening} {query : Query} (h : q.query o = .ok query) :
    query.command.Places (q.texts o) := by
  have hplain : ∀ {s : String}, '%' ∉ s.toList → Shows s [] [] := Shows.text
  cases q with
  | filterDocs | findDocs =>
    obtain ⟨command, hcommand, h⟩ := bind_eq_ok.1 h
    cases h
    exact Options.select_places (hplain (by decide)) hcommand
  | findPartialDocs =>
    obtain ⟨p, hp, h⟩ := bind_eq_ok.1 h
    obtain ⟨command, hcommand, h⟩ := bind_eq_ok.1 h
    cases h
    exact Options.select_places (Options.shows_selectionItems hp) hcommand

/-- **Every command that a request sends shows exactly the texts of its caller.** -/
theorem Request.Sends.places {r : Request} (h : r.Sends o c) : c.Places (r.texts o) := by
  cases r with
  | change m => exact Change.Sends.places h
  | upsertDoc collection id document =>
    rcases h with h | h | h
    · exact Question.places h
    · exact Change.Sends.places h
    · exact Change.Sends.places h
  | question q => exact Question.places h
  | opening q =>
    obtain ⟨query, hq, rfl⟩ := h
    exact Opening.places hq
  | next | finish | client | cursor | close => exact absurd h not_false

/-! ## Runs -/

variable {σ : Type} [Engine σ]

/-- Whatever is sent in a run with bound values shows the texts of the request that it is for, and
has the places of its values. -/
theorem Site.run_places (s : Session σ) (requests : List Request) :
    ∃ trace, (Site.run ⟨s, []⟩ requests).session.history = s.history ++ trace ∧
      ∀ id c params, .executed id c ∈ trace → c.params = some params →
        ∃ r ∈ requests, r.Sends s.options c ∧ ∃ ps, Assembled params.names c.text ps ∧
          Piece.callers ps = r.texts s.options := by
  obtain ⟨trace, hhistory, hwithin⟩ := (Site.run_sends s requests).history
  refine ⟨trace, hhistory, fun id c params h hp => ?_⟩
  obtain ⟨r, hr, hsends⟩ := hwithin _ h id c rfl
  exact ⟨r, hr, hsends, hsends.places params hp⟩

/-- **A command that is sent in a run is well formed exactly if the texts of the caller are
innocent**, whatever the requests, the options and the engine: its text is put together from pieces,
those of the caller among them, and the bound values have places in it. Exactly if the texts of the
caller are inert, these are all places that the driver finds. -/
theorem executed_wellFormed_iff (s : Session σ) (requests : List Request) :
    ∃ trace, (Site.run ⟨s, []⟩ requests).session.history = s.history ++ trace ∧
      ∀ id c params, .executed id c ∈ trace → c.params = some params →
        ∃ r ∈ requests, r.Sends s.options c ∧ ∃ ps, Assembled params.names c.text ps ∧
          Piece.callers ps = r.texts s.options ∧
          (WellFormed c.text params ↔ ∀ t ∈ r.texts s.options, Innocent params.names t) ∧
          (scan c.text.toList = some (Piece.labels ps) ↔ ∀ t ∈ r.texts s.options, Inert t) := by
  obtain ⟨trace, hhistory, hplaces⟩ := Site.run_places s requests
  refine ⟨trace, hhistory, fun id c params h hp => ?_⟩
  obtain ⟨r, hr, hsends, ps, hps, hcallers⟩ := hplaces id c params h hp
  refine ⟨r, hr, hsends, ps, hps, hcallers, ?_, ?_⟩
  · rw [← hcallers]
    exact hps.wellFormed_iff
  · rw [← hcallers]
    exact hps.scan_iff

/-- A store on an engine without any tables. -/
def Session.idle : Session Scripted :=
  .withConnection ⟨"t_", "TEXT", true, false, 100, "log"⟩ {} {}

/-- The documents are counted that have a one under a path with a percent sign in it. -/
def Request.countHalf : Request :=
  .question (.countDocs (.str "c") (.node (.compare .equal "50%" (.int 1))))

/-- The command for that. -/
def Sql.Command.countHalf : Command :=
  .bound (.select "COUNT(*) AS count" "t_c" (.condition "doc->'50%' = %(a0)s") [] false false)
    [("a0", .str "1")]

/-- The quote behind the percent sign is read as an error. -/
theorem countHalf_not_wellFormed :
    .executed 0 Command.countHalf ∈
        (Site.run ⟨Session.idle, []⟩ [Request.countHalf]).session.history ∧
      Command.countHalf.params = some [("a0", .str "1")] ∧
      ¬ WellFormed Command.countHalf.text [("a0", .str "1")] := by
  have hsent : (Site.run ⟨Session.idle, []⟩ [Request.countHalf]).session.history[2]? =
      some (.executed 0 Command.countHalf) := by rfl
  have hscan : scan Command.countHalf.text.toList = none := by rfl
  refine ⟨List.mem_of_getElem? hsent, rfl, ?_⟩
  rintro ⟨names, hnames, -⟩
  rw [hscan] at hnames
  cases hnames

theorem executed_wellFormed_iff_countHalf :
    ∃ r ∈ [Request.countHalf], r.Sends Session.idle.options Command.countHalf ∧
      ∃ ps, Assembled ["a0"] Command.countHalf.text ps ∧
        Piece.callers ps = r.texts Session.idle.options ∧
        (WellFormed Command.countHalf.text [("a0", .str "1")] ↔
          ∀ t ∈ r.texts Session.idle.options, Innocent ["a0"] t) ∧
        (scan Command.countHalf.text.toList = some (Piece.labels ps) ↔
          ∀ t ∈ r.texts Session.idle.options, Inert t) := by
  have hsent : (Site.run ⟨Session.idle, []⟩ [Request.countHalf]).session.history[2]? =
      some (.executed 0 Command.countHalf) := by rfl
  obtain ⟨trace, hhistory, h⟩ := executed_wellFormed_iff Session.idle [Request.countHalf]
  rw [hhistory] at hsent
  exact h 0 Command.countHalf _ (List.mem_of_getElem? hsent) rfl

end Docbase
