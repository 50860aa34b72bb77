import Docbase.Proofs.Json.RoundTrip
import Docbase.Proofs.Store.Findings

/-!
# Storing whole documents

A document is spread over a statement: its columns stand in one list, the placeholders of their
values in a second one, and the values are bound beside the statement under names made of those of
the columns. All of the document has to come back out of that.

* `Command.Inserts`, `Command.Updates`: what a command puts into which column, read off its text and
  the values bound to it.
* `Record.inserts`, `Record.updates`: the statements that store a record put its parts into its
  columns.
* `Document.StoredAs`: the document can be put together again from a text and from columns.
* `stored_whole`: **a document that is accepted is stored whole**, whatever way it is stored in.
-/

namespace Docbase

open Sql Store

/-! ## What commands put into columns -/

namespace Sql.Command

/-- The value that is bound under a name. -/
def value? (c : Command) (name : String) : Option Value := c.params.bind fun ps => ps.get? name

/-- The command adds a row: it has as many placeholders as columns, and each column takes the value
that is bound under the name of its placeholder. -/
def Inserts (c : Command) (cells : List (String × Value)) : Prop :=
  ∃ (table : String) (columns names : List String),
    c.text = "INSERT INTO " ++ table ++ " (" ++ commaList columns ++ ") VALUES ("
      ++ commaList (names.map placeholder) ++ ")" ∧
    columns.length = names.length ∧
    columns.zip (names.map c.value?) = cells.map fun x => (x.1, some x.2)

/-- The document in an assignment: put in the place of the stored one, or merged into it. -/
def documentText (merge : Bool) : String :=
  if merge then docColumn ++ " = (to_jsonb(" ++ docColumn ++ ") || CAST(" ++ placeholder "doc"
    ++ " AS JSONB))"
  else docColumn ++ " = " ++ placeholder "doc"

/-- The command changes rows: the document takes the value bound for it, and each other column that
of its placeholder. -/
def Updates (c : Command) (merge : Bool) (cells : List (String × Value)) : Prop :=
  ∃ (table scope : String) (columns names : List String),
    c.text = joinParts ["UPDATE " ++ table ++ " SET " ++ commaList (documentText merge ::
      List.zipWith (fun column name => column ++ " = " ++ placeholder name) columns names), scope] ∧
    columns.length = names.length ∧
    (docColumn, c.value? "doc") :: columns.zip (names.map c.value?)
      = cells.map fun x => (x.1, some x.2)

end Sql.Command

/-! ## Records -/

namespace Record

variable {r : Record} {ps : Params}

/-- The columns of a record and what goes into them: the document first. -/
def cells (r : Record) : List (String × Value) :=
  (docColumn, .str r.body) :: r.columns.map fun c => (c.1.text, c.2)

/-- The columns of a record stand beside the names of their values in the order of its members. -/
theorem zip_columns (h : (r.columnNames.map (·.text)).Nodup) (statement : Statement) (ps : Params) :
    (r.columnNames.map (·.text)).zip ((r.columnNames.map columnParam).map
      (Command.bound statement (r.bind ps)).value?) =
        r.columns.map fun c => (c.1.text, some c.2) := by
  obtain ⟨-, hcolumns⟩ := get?_bind h ps
  rw [columnNames, List.map_map, List.map_map, List.map_map, List.zip_map']
  exact List.map_congr_left fun c hc => congrArg (Prod.mk c.1.text) (hcolumns c hc)

/-- **The statement that adds a record puts its parts into its columns.** -/
theorem inserts (h : (r.columnNames.map (·.text)).Nodup) (table : String) (id : Value) :
    (Command.bound (.insert table r.columnNames) (r.bind [("id", id)])).Inserts
      ((idColumn, id) :: r.cells) := by
  have hid : (r.bind [("id", id)]).get? "id" = some id := get?_bind_id r _
  obtain ⟨hdoc, -⟩ := get?_bind h [("id", id)]
  refine ⟨table, idColumn :: docColumn :: r.columnNames.map (·.text),
    "id" :: "doc" :: r.columnNames.map columnParam, ?_, by simp, ?_⟩
  · rw [List.map_cons, List.map_cons, List.map_map]
    rfl
  · rw [List.map_cons, List.map_cons, List.zip_cons_cons, List.zip_cons_cons, zip_columns h, cells,
      List.map_cons, List.map_cons, List.map_map]
    exact congrArg₂ _ (congrArg _ hid) (congrArg₂ _ (congrArg _ hdoc) rfl)

theorem text_assignments (r : Record) (merge : Bool) :
    (r.assignments merge).map Assignment.text = Command.documentText merge ::
      List.zipWith (fun column name => column ++ " = " ++ placeholder name)
        (r.columnNames.map (·.text)) (r.columnNames.map columnParam) := by
  rw [List.zipWith_map, List.zipWith_self, assignments, List.map_cons, List.map_map]
  cases merge <;> rfl

/-- **The statements that change rows put the same parts into the same columns.** -/
theorem updates (h : (r.columnNames.map (·.text)).Nodup) (merge : Bool) (table : String)
    (scope : Scope) (ps : Params) :
    (Command.bound (.update table (r.assignments merge) scope) (r.bind ps)).Updates merge
      r.cells := by
  obtain ⟨hdoc, -⟩ := get?_bind h ps
  refine ⟨table, scope.text, r.columnNames.map (·.text), r.columnNames.map columnParam, ?_,
    by simp, ?_⟩
  · rw [← text_assignments]
    rfl
  · rw [zip_columns h, cells, List.map_cons, List.map_map]
    exact congrArg₂ _ (congrArg _ hdoc) rfl

end Record

/-! ## Documents -/

namespace Document

variable {promote : Bool} {es : Entries}

/-- The members of the metadata, as far as they are promoted. -/
def promoted (promote : Bool) (es : Entries) : Entries :=
  match promote, Entries.get? es (.str metadataKey) with
  | true, some (.mapping members) => members
  | _, _ => []

/-- The members that stay in the document. -/
def kept (promote : Bool) (es : Entries) : Entries :=
  if promote then Entries.erase es (.str metadataKey) else es

/-- The metadata is to be promoted, and there is nothing in it. -/
def DropsMetadata (promote : Bool) (es : Entries) : Prop :=
  promote = true ∧ (Entries.get? es (.str metadataKey) = some .null ∨
    Entries.get? es (.str metadataKey) = some (.mapping []))

/-- The members of a document with some columns put back as its metadata. -/
def restored (es : Entries) (columns : List (String × Value)) : Entries :=
  if columns.isEmpty then es
  else Entries.put es (.str metadataKey) (.mapping (columns.map fun c => (.str c.1, c.2)))

/-- A document is stored in a text and in columns. -/
structure StoredAs (promote : Bool) (es : Entries) (text : String)
    (columns : List (String × Value)) : Prop where
  /-- Each promoted member has a column. -/
  members : columns.map (fun c => (Key.str c.1, c.2)) = promoted promote es
  /-- The text says what stays. -/
  body : Json.decode none text = .ok (.mapping (kept promote es))
  /-- It is read as that. -/
  read : decodeColumn (.str text) = .ok (.mapping (kept promote es))
  /-- Nothing is lost. -/
  whole : ¬ DropsMetadata promote es →
    Value.object? (restored (kept promote es) columns) = Value.object? es
  /-- But for metadata without anything in it. -/
  dropped : DropsMetadata promote es → columns = []

/-- What stays and what is promoted. -/
theorem splitMetadata_parts {rest members : Entries}
    (h : Record.splitMetadata promote es = .ok (rest, members)) :
    rest = kept promote es ∧ members = promoted promote es := by
  unfold Record.splitMetadata at h
  unfold kept promoted
  cases promote with
  | false =>
    cases h
    exact ⟨rfl, rfl⟩
  | true =>
    cases hmeta : Entries.get? es (.str metadataKey) with
    | none =>
      rw [hmeta] at h
      cases h
      exact ⟨(Entries.erase_of_none hmeta).symm, rfl⟩
    | some v =>
      rw [hmeta] at h
      cases v with
      | null | mapping =>
        cases h
        exact ⟨rfl, rfl⟩
      | _ => cases h

/-- The object of what stays. -/
theorem object?_kept {o : Object} (h : Value.object? es = some o) (promote : Bool) :
    Value.object? (kept promote es) = some (if promote then o.without metadataKey else o) := by
  cases promote with
  | false => exact h
  | true => exact Value.object?_erase h

/-- Promoted members are themselves those of an object, which the document has as its metadata. -/
theorem object?_promoted {o : Object} (h : Value.object? es = some o) (promote : Bool) :
    ∃ p, Value.object? (promoted promote es) = some p ∧
      (promoted promote es ≠ [] → promote = true ∧ o metadataKey = some (.object p)) := by
  have hempty : ∃ p, Value.object? [] = some p ∧
      ((([] : Entries) ≠ []) → promote = true ∧ o metadataKey = some (.object p)) :=
    ⟨_, rfl, fun hne => absurd rfl hne⟩
  unfold promoted
  split
  · next members hmeta =>
    obtain ⟨d, hd, ho⟩ := Value.object?_member h hmeta
    rw [Value.datum?, Option.map_eq_some_iff] at hd
    obtain ⟨p, hp, rfl⟩ := hd
    exact ⟨p, hp, fun _ => ⟨rfl, ho⟩⟩
  · exact hempty

/-- Without columns all of the document stays, unless there was metadata without anything in it. -/
theorem kept_of_none (hsplit : ∃ parts, Record.splitMetadata promote es = .ok parts)
    (hkeeps : ¬ DropsMetadata promote es) (hnone : promoted promote es = []) :
    kept promote es = es := by
  obtain ⟨parts, hsplit⟩ := hsplit
  cases promote with
  | false => rfl
  | true =>
    -- metadata that gives no columns is missing, null or without members; else it was refused
    cases hmeta : Entries.get? es (.str metadataKey) with
    | none => exact Entries.erase_of_none hmeta
    | some v =>
      unfold Record.splitMetadata at hsplit
      rw [hmeta] at hsplit
      cases v with
      | null => exact absurd ⟨rfl, .inl hmeta⟩ hkeeps
      | mapping members =>
        unfold promoted at hnone
        rw [hmeta] at hnone
        rw [show members = [] from hnone] at hmeta
        exact absurd ⟨rfl, .inr hmeta⟩ hkeeps
      | _ => cases hsplit

/-- **The metadata is found again in the columns**, unless there was nothing in it. -/
theorem object?_restored {o : Object} {columns : List (String × Value)}
    (h : Value.object? es = some o)
    (hsplit : ∃ parts, Record.splitMetadata promote es = .ok parts)
    (hkeeps : ¬ DropsMetadata promote es)
    (hcolumns : columns.map (fun c => (Key.str c.1, c.2)) = promoted promote es) :
    Value.object? (restored (kept promote es) columns) = some o := by
  unfold restored
  cases columns with
  | nil =>
    rw [List.isEmpty_nil, if_pos rfl, kept_of_none hsplit hkeeps hcolumns.symm]
    exact h
  | cons c columns =>
    -- what is put back is the very object that was taken out
    obtain ⟨p, hp, hmeta⟩ := object?_promoted h promote
    have hne : promoted promote es ≠ [] := by
      rw [← hcolumns]
      simp
    obtain ⟨hpromote, ho⟩ := hmeta hne
    rw [List.isEmpty_cons, if_neg Bool.false_ne_true, hcolumns,
      Value.object?_put (object?_kept h promote) (Value.datum_mapping hp), if_pos hpromote,
      Object.with_of_without ho]

/-- The parts of a record, where they come from. -/
theorem ofDocument_parts {record : Record}
    (h : Record.ofDocument promote (.mapping es) = .ok record) :
    (∃ parts, Record.splitMetadata promote es = .ok parts) ∧
      Json.encode (.mapping (kept promote es)) = .ok record.body ∧
      record.columns.map (fun c => (Key.str c.1.text, c.2)) = promoted promote es := by
  obtain ⟨members, hmembers, h⟩ := bind_eq_ok.1 h
  cases refuse_eq_ok.1 hmembers
  obtain ⟨⟨rest, values⟩, hsplit, h⟩ := bind_eq_ok.1 h
  obtain ⟨body, hbody, h⟩ := bind_eq_ok.1 h
  obtain ⟨columns, hcolumns, h⟩ := bind_eq_ok.1 h
  cases h
  have hsplit := refuse_eq_ok.1 hsplit
  obtain ⟨rfl, rfl⟩ := splitMetadata_parts hsplit
  exact ⟨⟨_, hsplit⟩, Record.bodyOf_eq_ok.1 hbody, Record.columnsOf_eq_ok hcolumns⟩

/-- **A document that has a record is stored in its text and its columns.** -/
theorem storedAs_of_record {o : Object} {record : Record} (h : Value.object? es = some o)
    (hrecord : Record.ofDocument promote (.mapping es) = .ok record) :
    StoredAs promote es record.body (record.columns.map fun c => (c.1.text, c.2)) := by
  obtain ⟨hsplit, hencode, hcolumns⟩ := ofDocument_parts hrecord
  have hmembers : (record.columns.map fun c => (c.1.text, c.2)).map (fun c => (Key.str c.1, c.2)) =
      promoted promote es := by
    rw [List.map_map]
    exact hcolumns
  have hdatum := Value.datum_mapping (object?_kept h promote)
  exact {
    members := hmembers
    body := Json.decode_written Json.covers_none hdatum hencode
    read := by
      rw [decodeColumn, decodeText, Json.decode_written Json.covers_digitLimit hdatum hencode]
    whole := fun hkeeps => by rw [object?_restored h hsplit hkeeps hmembers, h]
    dropped := by
      rintro ⟨rfl, hmeta⟩
      have hnone : promoted true es = [] := by
        unfold promoted
        rcases hmeta with hmeta | hmeta
        · rw [hmeta]
        · rw [hmeta]
      rw [hnone] at hmembers
      exact List.map_eq_nil_iff.1 hmembers }

/-- Its columns have different names. -/
theorem nodup_of_record {o : Object} {record : Record} (h : Value.object? es = some o)
    (hrecord : Record.ofDocument promote (.mapping es) = .ok record) :
    (record.columnNames.map (·.text)).Nodup := by
  obtain ⟨-, -, hcolumns⟩ := ofDocument_parts hrecord
  obtain ⟨p, hp, -⟩ := object?_promoted h promote
  have hnames : Entries.names (promoted promote es) =
      (record.columnNames.map (·.text)).map Key.str := by
    rw [← hcolumns, Entries.names, Record.columnNames, List.map_map, List.map_map, List.map_map]
    rfl
  have hnodup := Value.object?_nodup hp
  rw [hnames] at hnodup
  exact hnodup.of_map _

end Document

/-! ## Changes that store a document -/

variable {o : Options} {collection id : Value} {es : Entries}

/-- **A document that is accepted is stored whole.** The statement that adds it has a placeholder
for each column, and the values bound under their names are the id, the text of the document and the
promoted members, each in the column of its name. The text says what stays of the document, and with
the columns put back as its metadata it is the document again, but for promoted metadata without
anything in it. The statements that merge the document into others or put it in their place store
the same values in the same columns, but for the id. -/
theorem stored_whole (hes : (Value.object? es).isSome) {p : Plan}
    (hp : (Change.addDoc collection id (.mapping es)).plan o = .ok p) :
    ∃ (text : String) (columns : List (String × Value)),
      Document.StoredAs o.promote es text columns ∧
      (∃ c, p.commands = [c] ∧
        c.Inserts ((idColumn, id) :: (docColumn, .str text) :: columns)) ∧
      (∀ merge, ∃ q c, o.changeDocPlan merge collection id (.mapping es) = .ok q ∧
        q.commands = [c] ∧ c.Updates merge ((docColumn, .str text) :: columns)) ∧
      ∀ merge filter clause, Filter.clauseOf o.resolver filter = .ok clause →
        ∃ q c, o.changeManyPlan merge collection filter (.mapping es) = .ok q ∧
          q.commands = [c] ∧ c.Updates merge ((docColumn, .str text) :: columns) := by
  obtain ⟨obj, hobj⟩ := Option.isSome_iff_exists.1 hes
  obtain ⟨record, hrecord, hp⟩ := bind_eq_ok.1 hp
  obtain ⟨table, htable, hp⟩ := bind_eq_ok.1 hp
  cases hp
  -- all the statements are made of the one record
  have hnodup := Document.nodup_of_record hobj hrecord
  refine ⟨record.body, _, Document.storedAs_of_record hobj hrecord, ⟨_, rfl, ?_⟩, ?_, ?_⟩
  · exact record.inserts hnodup table id
  · intro merge
    refine ⟨_, _, bind_eq_ok.2 ⟨record, hrecord, bind_eq_ok.2 ⟨table, htable, rfl⟩⟩, rfl, ?_⟩
    exact record.updates hnodup merge table .byId _
  · intro merge filter clause hclause
    refine ⟨_, _, bind_eq_ok.2 ⟨clause, hclause, bind_eq_ok.2 ⟨record, hrecord,
      bind_eq_ok.2 ⟨table, htable, rfl⟩⟩⟩, rfl, ?_⟩
    exact record.updates hnodup merge table (.ofClause clause) _

/-- The members of a document with metadata. -/
def Document.tagged : Entries :=
  [(.str "kind", .str "cat"),
    (.str metadataKey, .mapping [(.str "version", .int 1), (.str "tags", .list [.str "a"])])]

theorem stored_whole_tagged :
    ∃ text,
      Json.decode none text = .ok (.mapping [(.str "kind", .str "cat")]) ∧
      (∃ p c, (Change.addDoc (.str "c") (.str "1") (.mapping Document.tagged)).plan
          Session.promoting.options = .ok p ∧ p.commands = [c] ∧
        c.Inserts [("id", .str "1"), ("doc", .str text), ("version", .int 1),
          ("tags", .list [.str "a"])]) ∧
      ∃ q c, Session.promoting.options.changeManyPlan true (.str "c") (.node .any)
          (.mapping Document.tagged) = .ok q ∧ q.commands = [c] ∧
        c.Updates true [("doc", .str text), ("version", .int 1), ("tags", .list [.str "a"])] := by
  have hes : (Value.object? Document.tagged).isSome := by rfl
  obtain ⟨p, hp⟩ : ∃ p, (Change.addDoc (.str "c") (.str "1") (.mapping Document.tagged)).plan
      Session.promoting.options = .ok p := ⟨_, rfl⟩
  obtain ⟨text, columns, hstored, ⟨c, hc, hinserts⟩, -, hmany⟩ := stored_whole hes hp
  have hcolumns : columns = [("version", .int 1), ("tags", .list [.str "a"])] := by
    have hmembers : columns.map (fun c => (Key.str c.1, c.2)) =
        [("version", .int 1), ("tags", .list [.str "a"])].map fun c => (Key.str c.1, c.2) :=
      hstored.members
    have hinj : Function.Injective fun c : String × Value => (Key.str c.1, c.2) := by
      rintro ⟨a, v⟩ ⟨b, w⟩ h
      cases h
      rfl
    exact hinj.list_map hmembers
  subst hcolumns
  exact ⟨text, hstored.body, ⟨p, c, hp, hc, hinserts⟩, hmany true (.node .any) _ rfl⟩

end Docbase
