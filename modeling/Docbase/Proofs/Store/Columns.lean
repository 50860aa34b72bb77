import Docbase.Engine.Scripted
import Docbase.Proofs.Store.Placeholders

/-!
# Columns that a store writes

The columns of promoted metadata stand in a statement as the caller named them, without quotes, next
to the columns of the id and of the document. The database reads such a name without white space
around it and without capital letters.

* `ReadApart`, `Apart`: the columns of a statement are read as different ones; no two names of the
  caller are alike, and none is like a name of the library.
* `Change.Sends.writes`: a change of documents writes the members of the metadata that it is given.
* `written_apart_iff`: **the columns that are written are read as different ones exactly if the names
  in the metadata are apart**; so are the columns that an index adds and drops.
-/

namespace Docbase

open Sql Store

namespace Sql

/-! ## Names that are read apart -/

/-- Two names are the same but for capital letters and a line feed at the end. -/
def Alike (a b : String) : Prop :=
  (chomped a.toList).map Char.toLower = (chomped b.toList).map Char.toLower

instance (a b : String) : Decidable (Alike a b) :=
  inferInstanceAs (Decidable (_ = _))

/-- The names of some columns are read as different ones. -/
def ReadApart (columns : List String) : Prop := (columns.map readName).Nodup

instance (columns : List String) : Decidable (ReadApart columns) :=
  inferInstanceAs (Decidable (List.Nodup _))

/-- No two names are alike, and none is like that of the id or that of the document. -/
structure Apart (names : List String) : Prop where
  pairwise : names.Pairwise fun a b => ¬ Alike a b
  not_id : ∀ n ∈ names, ¬ Alike n idColumn
  not_doc : ∀ n ∈ names, ¬ Alike n docColumn

/-- Identifiers are read as the same name exactly if they are alike. -/
theorem readName_eq_iff {i j : Identifier} : readName i.text = readName j.text ↔ Alike i.text j.text := by
  rw [readName_identifier, readName_identifier, Alike]

/-- The identifiers of the library's own columns. -/
def idName : Identifier := ⟨idColumn, by decide⟩

/-- The identifier of the documents' column. -/
def docName : Identifier := ⟨docColumn, by decide⟩

/-- **Columns are read as different ones exactly if their names are apart.** -/
theorem readApart_iff {names : List Identifier} :
    ReadApart (idColumn :: docColumn :: names.map (·.text)) ↔ Apart (names.map (·.text)) := by
  have hdiffer : readName idColumn ≠ readName docColumn := by decide
  have hid : ∀ i : Identifier, readName idColumn = readName i.text ↔ Alike i.text idColumn :=
    fun i => eq_comm.trans (readName_eq_iff (j := idName))
  have hdoc : ∀ i : Identifier, readName docColumn = readName i.text ↔ Alike i.text docColumn :=
    fun i => eq_comm.trans (readName_eq_iff (j := docName))
  have hpairwise : (names.map fun i => readName i.text).Nodup ↔
      (names.map (·.text)).Pairwise fun a b => ¬ Alike a b := by
    rw [List.Nodup, List.pairwise_map, List.pairwise_map]
    exact List.Pairwise.iff fun i j => not_congr readName_eq_iff
  rw [ReadApart, List.map_cons, List.map_cons, List.map_map, List.nodup_cons, List.nodup_cons]
  constructor
  · rintro ⟨hnotId, hnotDoc, hnames⟩
    refine ⟨hpairwise.1 hnames, ?_, ?_⟩
    · intro n hn halike
      obtain ⟨i, hi, rfl⟩ := List.mem_map.1 hn
      exact hnotId (List.mem_cons_of_mem _ (List.mem_map.2 ⟨i, hi, ((hid i).2 halike).symm⟩))
    · intro n hn halike
      obtain ⟨i, hi, rfl⟩ := List.mem_map.1 hn
      exact hnotDoc (List.mem_map.2 ⟨i, hi, ((hdoc i).2 halike).symm⟩)
  · intro h
    refine ⟨?_, ?_, hpairwise.2 h.pairwise⟩
    · intro hmem
      rcases List.mem_cons.1 hmem with hmem | hmem
      · exact hdiffer hmem
      · obtain ⟨i, hi, heq⟩ := List.mem_map.1 hmem
        exact h.not_id _ (List.mem_map_of_mem hi) ((hid i).1 heq.symm)
    · intro hmem
      obtain ⟨i, hi, heq⟩ := List.mem_map.1 hmem
      exact h.not_doc _ (List.mem_map_of_mem hi) ((hdoc i).1 heq.symm)

/-! ## Statements that write columns -/

/-- The statement writes the columns of documents: those of the library, and these. -/
inductive Statement.Writes : Statement → List Identifier → Prop
  /-- The id, the document and the others. -/
  | insert (table : String) (columns : List Identifier) : Writes (.insert table columns) columns
  /-- The document and the others. -/
  | update (table : String) (merge : Bool) (columns : List Identifier) (scope : Scope) :
      Writes (.update table
        ((if merge then .mergeDoc else .replaceDoc) :: columns.map .column) scope) columns

end Sql

namespace Document

/-- The names in the metadata of a document, as far as metadata is promoted. -/
def promotedNames (promote : Bool) (document : Value) : List Key :=
  match promote, document with
  | true, .mapping members =>
    match Entries.get? members (.str metadataKey) with
    | some (.mapping promoted) => promoted.map (·.1)
    | _ => []
  | _, _ => []

end Document

namespace Record

theorem bodyOf_eq_ok {members : Entries} {text : String} :
    bodyOf members = .ok text ↔ Json.encode (.mapping members) = .ok text := by
  unfold bodyOf encodeText
  rw [mapError_eq_ok, mapError_eq_ok]

theorem columnOf_eq_ok {name : Key} {column : Identifier} (h : columnOf name = .ok column) :
    name = .str column.text := by
  cases name with
  | str s =>
    have htext : Identifier.ofText s [("kind", .str "metadata column")] = .ok column :=
      refuse_eq_ok.1 h
    unfold Identifier.ofText at htext
    split at htext
    · cases htext; rfl
    · cases htext
  | _ =>
    simp only [columnOf, Key.toValue, Identifier.ofValue] at h
    split at h <;> cases h

/-- The columns of promoted members have their names and their values. -/
theorem columnsOf_eq_ok {promoted : Entries} {columns : List (Identifier × Value)}
    (h : columnsOf promoted = .ok columns) :
    columns.map (fun c => (Key.str c.1.text, c.2)) = promoted := by
  induction promoted generalizing columns with
  | nil => cases h; rfl
  | cons e promoted ih =>
    obtain ⟨name, value⟩ := e
    obtain ⟨column, hcolumn, h⟩ := bind_eq_ok.1 h
    obtain ⟨rest, hrest, h⟩ := bind_eq_ok.1 h
    cases h
    rw [List.map_cons, ih hrest, columnOf_eq_ok hcolumn]

/-- The columns of promoted members are named like the members. -/
theorem names_columnsOf {promoted : Entries} {columns : List (Identifier × Value)}
    (h : columnsOf promoted = .ok columns) :
    columns.map (fun c => Key.str c.1.text) = promoted.map (·.1) := by
  rw [← columnsOf_eq_ok h, List.map_map]
  rfl

/-- What is promoted are the members of the metadata. -/
theorem splitMetadata_eq_ok {promote : Bool} {members kept promoted : Entries}
    (h : splitMetadata promote members = .ok (kept, promoted)) :
    promoted.map (·.1) = Document.promotedNames promote (.mapping members) := by
  cases promote with
  | false => cases h; rfl
  | true =>
    rw [Document.promotedNames]
    unfold splitMetadata at h
    cases hmeta : Entries.get? members (.str metadataKey) with
    | none => rw [hmeta] at h; cases h; rfl
    | some v =>
      rw [hmeta] at h
      cases v with
      | null | mapping => cases h; rfl
      | _ => cases h

/-- A record has a column for each member of the metadata, in their order. -/
theorem names_ofDocument {promote : Bool} {document : Value} {record : Record}
    (h : ofDocument promote document = .ok record) :
    record.columnNames.map (fun i => Key.str i.text) = Document.promotedNames promote document := by
  obtain ⟨members, hmembers, h⟩ := bind_eq_ok.1 h
  obtain ⟨⟨kept, promoted⟩, hsplit, h⟩ := bind_eq_ok.1 h
  obtain ⟨body, -, h⟩ := bind_eq_ok.1 h
  obtain ⟨columns, hcolumns, h⟩ := bind_eq_ok.1 h
  cases h
  have hdocument : document = .mapping members := by
    rw [refuse_eq_ok] at hmembers
    cases document with
    | mapping es => cases hmembers; rfl
    | _ => cases hmembers
  rw [hdocument, ← splitMetadata_eq_ok (refuse_eq_ok.1 hsplit), ← names_columnsOf hcolumns,
    columnNames, List.map_map]
  rfl

end Record

/-! ## Requests that write -/

/-- The document that a change stores. -/
def Change.document? : Change → Option Value
  | addDoc _ _ document | updateDoc _ _ document | replaceDoc _ _ document
  | updateMany _ _ document | replaceMany _ _ document => some document
  | _ => none

/-- The document that a request stores. -/
def Request.document? : Request → Option Value
  | .change m => m.document?
  | .upsertDoc _ _ document => some document
  | _ => none

/-- The command writes the columns of a document: those of the library, and one for each name in the
metadata. -/
def Sql.Command.Stores (c : Command) (promote : Bool) (document : Value) : Prop :=
  ∃ columns : List Identifier, c.statement.Writes columns ∧
    columns.map (fun i => Key.str i.text) = Document.promotedNames promote document

variable {o : Options} {c : Command}

theorem Options.changeDoc_writes {merge : Bool} {collection id document : Value} {p : Plan}
    (hp : o.changeDocPlan merge collection id document = .ok p) (hc : c ∈ p.commands) :
    c.Stores o.promote document := by
  obtain ⟨record, hrecord, hp⟩ := bind_eq_ok.1 hp
  obtain ⟨table, -, hp⟩ := bind_eq_ok.1 hp
  cases hp
  cases List.mem_singleton.1 hc
  exact ⟨_, .update table merge _ _, Record.names_ofDocument hrecord⟩

theorem Options.changeMany_writes {merge : Bool} {collection document : Value}
    {filter : Given Filter} {p : Plan}
    (hp : o.changeManyPlan merge collection filter document = .ok p) (hc : c ∈ p.commands) :
    c.Stores o.promote document := by
  obtain ⟨clause, -, hp⟩ := bind_eq_ok.1 hp
  obtain ⟨record, hrecord, hp⟩ := bind_eq_ok.1 hp
  obtain ⟨table, -, hp⟩ := bind_eq_ok.1 hp
  cases hp
  cases List.mem_singleton.1 hc
  exact ⟨_, .update table merge _ _, Record.names_ofDocument hrecord⟩

/-- What a change writes is the document that it is given. -/
theorem Change.Sends.writes {m : Change} (h : m.Sends o c) (hc : c.statement.isWrite = true) :
    ∃ document, m.document? = some document ∧ c.Stores o.promote document := by
  obtain ⟨p, hp, hmem⟩ := h
  cases m with
  | addCollection | dropCollection | addIndex | dropIndex =>
    obtain ⟨statement, rfl, hplain⟩ := Change.plain_of_plan hp rfl hmem
    rw [Command.plain, hplain] at hc
    cases hc
  | addDoc collection id document =>
    obtain ⟨record, hrecord, hp⟩ := bind_eq_ok.1 hp
    obtain ⟨table, -, hp⟩ := bind_eq_ok.1 hp
    cases hp
    cases List.mem_singleton.1 hmem
    exact ⟨document, rfl, _, .insert table _, Record.names_ofDocument hrecord⟩
  | updateDoc collection id document =>
    exact ⟨document, rfl, Options.changeDoc_writes hp hmem⟩
  | replaceDoc collection id document =>
    exact ⟨document, rfl, Options.changeDoc_writes hp hmem⟩
  | updateMany collection filter document =>
    exact ⟨document, rfl, Options.changeMany_writes hp hmem⟩
  | replaceMany collection filter document =>
    exact ⟨document, rfl, Options.changeMany_writes hp hmem⟩
  | deleteDoc collection id =>
    obtain ⟨table, -, hp⟩ := bind_eq_ok.1 hp
    cases hp
    cases List.mem_singleton.1 hmem
    cases hc
  | deleteMany collection filter =>
    obtain ⟨clause, -, hp⟩ := bind_eq_ok.1 hp
    obtain ⟨table, -, hp⟩ := bind_eq_ok.1 hp
    cases hp
    cases List.mem_singleton.1 hmem
    cases hc

theorem Options.select_not_write {items : String} {collection : Value} {filter : Given Filter}
    {paging : Paging} (h : o.selectCommand items collection filter paging = .ok c) :
    c.statement.isWrite = false := by
  obtain ⟨skip, -, h⟩ := bind_eq_ok.1 h
  obtain ⟨limit, -, h⟩ := bind_eq_ok.1 h
  obtain ⟨clause, -, h⟩ := bind_eq_ok.1 h
  obtain ⟨table, -, h⟩ := bind_eq_ok.1 h
  obtain ⟨keys, -, h⟩ := bind_eq_ok.1 h
  cases h
  rfl

theorem Options.byId_not_write {items : String} {collection id : Value}
    (h : o.byIdCommand items collection id = .ok c) : c.statement.isWrite = false := by
  obtain ⟨table, -, h⟩ := bind_eq_ok.1 h
  cases h
  rfl

theorem Options.all_not_write {items : String} {collection : Value} {filter : Given Filter}
    (h : o.allCommand items collection filter = .ok c) : c.statement.isWrite = false := by
  obtain ⟨clause, -, h⟩ := bind_eq_ok.1 h
  obtain ⟨table, -, h⟩ := bind_eq_ok.1 h
  cases h
  rfl

theorem Options.tables_not_write (pattern : String) (schema : Option String) :
    (tablesQuery pattern schema).statement.isWrite = false := by
  cases schema <;> rfl

/-- A question writes nothing. -/
theorem Question.not_write {q : Question} (h : q.command o = .ok c) :
    c.statement.isWrite = false := by
  cases q with
  | listCollections => cases h; exact Options.tables_not_write _ _
  | collectionsFrom start =>
    simp only [command, Options.tablesFromQuery] at h
    split at h
    · split at h
      · cases h; exact Options.tables_not_write _ _
      · cases h; exact Options.tables_not_write _ _
    · split at h
      · cases h
      · cases h
      · cases h; exact Options.tables_not_write _ _
  | hasCollection collection =>
    obtain ⟨params, -, h⟩ := bind_eq_ok.1 h
    cases h
    rfl
  | hasIndex collection index =>
    obtain ⟨params, -, h⟩ := bind_eq_ok.1 h
    obtain ⟨name, -, h⟩ := bind_eq_ok.1 h
    cases h
    rfl
  | getDoc collection id => exact Options.byId_not_write h
  | getPartialDoc collection select id =>
    obtain ⟨items, -, h⟩ := bind_eq_ok.1 h
    exact Options.byId_not_write h
  | filterDocIds collection filter | countDocs collection filter => exact Options.all_not_write h

/-- A reader writes nothing. -/
theorem Opening.not_write {q : Opening} {query : Query} (h : q.query o = .ok query) :
    query.command.statement.isWrite = false := by
  cases q with
  | filterDocs | findDocs =>
    obtain ⟨command, hcommand, h⟩ := bind_eq_ok.1 h
    cases h
    exact Options.select_not_write hcommand
  | findPartialDocs =>
    obtain ⟨items, -, h⟩ := bind_eq_ok.1 h
    obtain ⟨command, hcommand, h⟩ := bind_eq_ok.1 h
    cases h
    exact Options.select_not_write hcommand

/-- **What a request writes is the document that it is given.** -/
theorem Request.Sends.writes {r : Request} (h : r.Sends o c) (hc : c.statement.isWrite = true) :
    ∃ document, r.document? = some document ∧ c.Stores o.promote document := by
  have hcontra : c.statement.isWrite = false → False := fun hnot => by rw [hnot] at hc; cases hc
  cases r with
  | change m => exact Change.Sends.writes h hc
  | upsertDoc collection id document =>
    rcases h with h | h | h
    · exact (hcontra (Question.not_write h)).elim
    · exact Change.Sends.writes h hc
    · exact Change.Sends.writes h hc
  | question q => exact (hcontra (Question.not_write h)).elim
  | opening q =>
    obtain ⟨query, hq, rfl⟩ := h
    exact (hcontra (Opening.not_write hq)).elim
  | next | finish | client | cursor | close => exact absurd h not_false

/-! ## Index declarations -/

namespace Index

/-- The names of the columns that a declaration promotes. -/
def columnNames (i : PromotedIndex) : List Identifier := i.columns.map (·.name)

theorem createStatements_promoted {table : String} {r : Resolver} {i : PromotedIndex}
    {statements : List String} (h : createStatements table r (.promoted i) = .ok statements) :
    ∃ rest, statements = ("ALTER TABLE " ++ table ++ " " ++ ", ".intercalate
      (i.columns.map fun c => "ADD COLUMN " ++ (c.name.text ++ " " ++ c.type.text))) :: rest := by
  obtain ⟨rest, -, h⟩ := bind_eq_ok.1 h
  cases h
  exact ⟨rest, rfl⟩

theorem dropStatements_promoted {table schema : String} {i : PromotedIndex}
    {statements : List String}
    (h : dropStatementsOf table schema (.node (.promoted i)) = .ok statements) :
    ∃ first, statements = [first, "ALTER TABLE " ++ table ++ " " ++ ", ".intercalate
      ((columnNames i).map fun name => "DROP COLUMN " ++ name.text)] := by
  obtain ⟨name, -, h⟩ := bind_eq_ok.1 h
  cases name with
  | none => cases h
  | some name =>
    cases h
    have hsome : (columnsOf (.node (.promoted i))).isEmpty = false := by
      rw [List.isEmpty_eq_false_iff]
      exact i.nonempty
    rw [hsome, columnNames, List.map_map]
    exact ⟨_, rfl⟩

end Index

/-! ## Runs -/

variable {σ : Type} [Engine σ]

/-- **The columns that a store writes are read as different ones exactly if the names in the metadata
are apart**: no two of them are the same but for capital letters and a line feed at the end, and none
is that of the id or of the document but for these. This is so for every document that a request of a
run stores, whatever the options and the engine, and for the columns that a declaration promotes. -/
theorem written_apart_iff (s : Session σ) (requests : List Request) :
    (∃ trace, (Site.run ⟨s, []⟩ requests).session.history = s.history ++ trace ∧
      ∀ id c, .executed id c ∈ trace → c.statement.isWrite = true →
        ∃ r ∈ requests, r.Sends s.options c ∧ ∃ document, r.document? = some document ∧
          ∃ columns : List Identifier, c.statement.Writes columns ∧
            columns.map (fun i => Key.str i.text) =
              Document.promotedNames s.options.promote document ∧
            (ReadApart (idColumn :: docColumn :: columns.map (·.text)) ↔
              Apart (columns.map (·.text)))) ∧
    ∀ (i : PromotedIndex) (table schema : String) (r : Resolver),
      (∀ statements, Index.createStatements table r (.promoted i) = .ok statements →
        ∃ rest, statements = ("ALTER TABLE " ++ table ++ " " ++ ", ".intercalate
          (i.columns.map fun c => "ADD COLUMN " ++ (c.name.text ++ " " ++ c.type.text))) :: rest) ∧
      (∀ statements, Index.dropStatementsOf table schema (.node (.promoted i)) = .ok statements →
        ∃ first, statements = [first, "ALTER TABLE " ++ table ++ " " ++ ", ".intercalate
          ((Index.columnNames i).map fun name => "DROP COLUMN " ++ name.text)]) ∧
      (ReadApart (idColumn :: docColumn :: (Index.columnNames i).map (·.text)) ↔
        Apart ((Index.columnNames i).map (·.text))) := by
  refine ⟨?_, ?_⟩
  · obtain ⟨trace, hhistory, hwithin⟩ := (Site.run_sends s requests).history
    refine ⟨trace, hhistory, fun id c h hc => ?_⟩
    obtain ⟨r, hr, hsends⟩ := hwithin _ h id c rfl
    obtain ⟨document, hdocument, columns, hwrites, hnames⟩ := hsends.writes hc
    exact ⟨r, hr, hsends, document, hdocument, columns, hwrites, hnames, readApart_iff⟩
  · intro i table schema r
    exact ⟨fun _ => Index.createStatements_promoted, fun _ => Index.dropStatements_promoted,
      readApart_iff⟩

/-- A store that promotes metadata, on an engine without any tables. -/
def Session.promoting : Session Scripted :=
  .withConnection ⟨"t_", "TEXT", true, true, 100, "log"⟩ {} {}

/-- A document of metadata only. -/
def Document.ofMetadata (members : List (String × Value)) : Value :=
  .mapping [(.str metadataKey, .mapping (members.map fun m => (.str m.1, m.2)))]

/-- A column of an index, of whole numbers. -/
def Column.ofWhole (name : Identifier) : Column := ⟨name, ⟨"INT", by decide⟩⟩

/-- The id of a document is changed. -/
def Request.changeId : Request :=
  .change (.updateDoc (.str "c") (.str "a") (Document.ofMetadata [("id", .str "b")]))

/-- A document is added with two members of its metadata that differ by a line feed. -/
def Request.addTwice : Request :=
  .change (.addDoc (.str "c") (.str "a") (Document.ofMetadata [("v", .int 1), ("v\n", .int 2)]))

/-- The command that changes the id. -/
def Sql.Command.changeId : Command :=
  .bound (.update "t_c" [.mergeDoc, .column idName] .byId)
    [("id", .str "a"), ("doc", .str "{}"), ("meta_id", .str "b")]

/-- The command that writes one column twice. -/
def Sql.Command.addTwice : Command :=
  .bound (.insert "t_c" [⟨"v", by decide⟩, ⟨"v\n", by decide⟩])
    [("id", .str "a"), ("doc", .str "{}"), ("meta_v", .int 1), ("meta_v\n", .int 2)]

/-- An update that changes the id of a document, a document that is added with one column twice, and a
declaration that promotes one column twice. -/
theorem changeId_not_apart :
    (.executed 0 Command.changeId ∈
        (Site.run ⟨Session.promoting, []⟩ [Request.changeId]).session.history ∧
      Command.changeId.statement.Writes [idName] ∧
      ¬ ReadApart [idColumn, docColumn, "id"]) ∧
    (.executed 0 Command.addTwice ∈
        (Site.run ⟨Session.promoting, []⟩ [Request.addTwice]).session.history ∧
      Command.addTwice.statement.Writes [⟨"v", by decide⟩, ⟨"v\n", by decide⟩] ∧
      ¬ ReadApart [idColumn, docColumn, "v", "v\n"]) ∧
    ∃ i : PromotedIndex, Index.columnNames i = [⟨"v", by decide⟩, ⟨"V", by decide⟩] ∧
      ¬ ReadApart [idColumn, docColumn, "v", "V"] := by
  have hchange : (Site.run ⟨Session.promoting, []⟩ [Request.changeId]).session.history[2]? =
      some (.executed 0 Command.changeId) := by rfl
  have hadd : (Site.run ⟨Session.promoting, []⟩ [Request.addTwice]).session.history[2]? =
      some (.executed 0 Command.addTwice) := by rfl
  refine ⟨⟨List.mem_of_getElem? hchange, .update "t_c" true [idName] .byId, by decide⟩,
    ⟨List.mem_of_getElem? hadd, .insert "t_c" _, by decide⟩, ?_⟩
  exact ⟨⟨.raw ⟨"", none⟩, [.ofWhole ⟨"v", by decide⟩, .ofWhole ⟨"V", by decide⟩], by simp⟩, rfl,
    by decide⟩

/-- A document is added with two members of its metadata that are apart. -/
def Request.addApart : Request :=
  .change (.addDoc (.str "c") (.str "a") (Document.ofMetadata [("v", .int 1), ("kind", .str "x")]))

/-- The command for that. -/
def Sql.Command.addApart : Command :=
  .bound (.insert "t_c" [⟨"v", by decide⟩, ⟨"kind", by decide⟩])
    [("id", .str "a"), ("doc", .str "{}"), ("meta_v", .int 1), ("meta_kind", .str "x")]

/-- An index on nothing, with one promoted column. -/
def PromotedIndex.single : PromotedIndex :=
  ⟨.raw ⟨"CREATE INDEX i ON t_c (v)", some ⟨"i", by decide⟩⟩, [.ofWhole ⟨"v", by decide⟩], by simp⟩

theorem written_apart_iff_addApart :
    (∃ columns : List Identifier, Command.addApart.statement.Writes columns ∧
      columns.map (fun i => Key.str i.text) = [.str "v", .str "kind"] ∧
      ReadApart (idColumn :: docColumn :: columns.map (·.text)) ∧ Apart (columns.map (·.text))) ∧
    Index.createStatements "t_c" { promote := true } (.promoted .single) =
      .ok ["ALTER TABLE t_c ADD COLUMN v INT", "CREATE INDEX i ON t_c (v)"] ∧
    Index.dropStatementsOf "t_c" "public" (.node (.promoted .single)) =
      .ok ["DROP INDEX public.i", "ALTER TABLE t_c DROP COLUMN v"] ∧
    Apart ((Index.columnNames .single).map (·.text)) := by
  have hsent : (Site.run ⟨Session.promoting, []⟩ [Request.addApart]).session.history[2]? =
      some (.executed 0 Command.addApart) := by rfl
  obtain ⟨⟨trace, hhistory, h⟩, hindex⟩ :=
    written_apart_iff Session.promoting [Request.addApart]
  rw [hhistory] at hsent
  obtain ⟨r, hr, -, document, hdocument, columns, hwrites, hnames, hiff⟩ :=
    h 0 Command.addApart (List.mem_of_getElem? hsent) rfl
  cases List.mem_singleton.1 hr
  cases hdocument
  cases hwrites
  have hread : ReadApart [idColumn, docColumn, "v", "kind"] := by decide
  have hsingle : ReadApart [idColumn, docColumn, "v"] := by decide
  obtain ⟨-, -, hsingleIff⟩ := hindex .single "t_c" "public" { promote := true }
  exact ⟨⟨_, .insert "t_c" _, hnames, hread, hiff.1 hread⟩, rfl, rfl, hsingleIff.1 hsingle⟩

end Docbase
