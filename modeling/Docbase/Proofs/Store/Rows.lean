import Docbase.Proofs.Engine.Server
import Docbase.Proofs.Store.Findings
import Docbase.Proofs.Store.Reaching

/-!
# What calls for one document do to its row

* `Record.means`: the statement that stores a record has the effect of its document and its columns.
* `Session.Finds`: the commands of a session find a row that no other connection is changing.
* `Finds.run_done`, `Finds.run_refused`: **a change of one statement does to the row what the
  statement says**, or nothing.
* `Finds.getDoc`: a document that is asked for is there exactly if there is a row.
-/

namespace Docbase

open Sql Store

variable {β γ σ : Type} {db : Schema β γ} {table id : String}

/-! ## Statements for a record -/

namespace Sql.Params

theorem columns?_eq {params : Params} {columns : List (Identifier × Value)}
    (h : ∀ c ∈ columns, params.get? (columnParam c.1) = some c.2) :
    params.columns? (columns.map (·.1)) = some columns := by
  induction columns with
  | nil => rfl
  | cons c columns ih =>
    have hc := h c List.mem_cons_self
    have hrest := ih fun d hd => h d (List.mem_cons_of_mem c hd)
    simp only [List.map_cons, columns?, hc, hrest, Option.bind_eq_bind, Option.bind_some]

end Sql.Params

namespace Schema

variable {values : List (Identifier × Value)} {cells : List Char → Option γ}

/-- What is known of the first of some columns. -/
theorem cells?_cons {c : Identifier × Value} (h : db.cells? table (c :: values) = some cells) :
    ∃ x rest, db.takes table (readName c.1.text) c.2 = some x ∧ db.cells? table values = some rest ∧
      rest (readName c.1.text) = none ∧ cells = Function.update rest (readName c.1.text) (some x) := by
  obtain ⟨column, value⟩ := c
  simp only [cells?, Option.bind_eq_bind, Option.bind_eq_some_iff] at h
  obtain ⟨x, hx, rest, hrest, h⟩ := h
  by_cases hfree : (rest (readName column.text)).isSome
  · rw [if_pos hfree] at h
    cases h
  · rw [if_neg hfree] at h
    cases h
    exact ⟨x, rest, hx, hrest, by simpa using hfree, rfl⟩

/-- Columns hold values under their own names, and under no others. -/
theorem cells?_none (h : db.cells? table values = some cells) (n : List Char) :
    cells n = none ↔ n ∉ values.map fun c => readName c.1.text := by
  induction values generalizing cells with
  | nil =>
    cases h
    simp
  | cons c values ih =>
    obtain ⟨x, rest, -, hrest, -, rfl⟩ := cells?_cons h
    rw [List.map_cons, List.mem_cons, not_or, ← ih hrest]
    by_cases hn : n = readName c.1.text
    · simp [hn]
    · simp [hn]

/-- No two columns have the same name. -/
theorem cells?_nodup (h : db.cells? table values = some cells) :
    (values.map fun c => readName c.1.text).Nodup := by
  induction values generalizing cells with
  | nil => exact List.nodup_nil
  | cons c values ih =>
    obtain ⟨x, rest, -, hrest, hfree, -⟩ := cells?_cons h
    rw [List.map_cons, List.nodup_cons]
    exact ⟨(cells?_none hrest _).1 hfree, ih hrest⟩

end Schema

namespace Record

variable {r : Record} {doc : β} {cells : List Char → Option γ}

/-- Columns that a table takes have different names. -/
theorem nodup_of_cells (h : db.cells? table r.columns = some cells) :
    (r.columnNames.map (·.text)).Nodup := by
  have hread := Schema.cells?_nodup h
  rw [columnNames, List.map_map]
  refine List.pairwise_map.2 ((List.pairwise_map.1 hread).imp ?_)
  intro c d hne htext
  exact hne (congrArg readName htext)

/-- The statement that stores a record stores its document, and the values of its columns. -/
theorem means (hdoc : db.reads r.body = some doc) (hcells : db.cells? table r.columns = some cells)
    (mode : Mode) (id : String) :
    db.Means table id (.bound (mode.statement table r.columnNames) (r.bind [("id", .str id)]))
      (.store mode (doc, cells)) := by
  have hid : (r.bind [("id", .str id)]).get? "id" = some (.str id) := r.get?_bind_id _
  obtain ⟨htext, hcolumns⟩ := get?_bind (nodup_of_cells hcells) [("id", .str id)]
  exact .store hid htext hdoc (Params.columns?_eq hcolumns) hcells

end Record

/-- The call that stores a document in a way. -/
def Mode.change (collection id document : Value) : Mode → Change
  | insert => .addDoc collection id document
  | merge => .updateDoc collection id document
  | replace => .replaceDoc collection id document

theorem Mode.named (mode : Mode) (c : String) (id d : Value) :
    ∃ name, (mode.change (.str c) id d).collection = .str name := by
  cases mode <;> exact ⟨c, rfl⟩

/-- It sends the one statement of that way. -/
theorem Mode.plan_change {o : Options} {d : Value} {r : Record} (mode : Mode) (c : String) (id : Value)
    (hr : Record.ofDocument o.promote d = .ok r) :
    ∃ p, (mode.change (.str c) id d).plan o = .ok p ∧ p.commands = [.bound
      (mode.statement (Collection.tableName c o.tableStart) r.columnNames) (r.bind [("id", id)])] := by
  cases mode with
  | insert | merge | replace =>
    exact ⟨_, bind_eq_ok.2 ⟨r, hr, bind_eq_ok.2 ⟨_, rfl, rfl⟩⟩, rfl⟩

/-- A document is accepted: the store makes a record of it, and the table takes that. -/
structure Schema.Accepts (db : Schema β γ) (promote : Bool) (table : String) (d : Value) (r : Record)
    (doc : β) (cells : List Char → Option γ) : Prop where
  record : Record.ofDocument promote d = .ok r
  doc : db.reads r.body = some doc
  cells : db.cells? table r.columns = some cells

/-! ## Sessions -/

/-- The commands of a session find the database in a state in which they are taken, and no other
connection is changing the row. -/
structure Session.Finds [Engine σ] (server : σ → Server β γ) (k : ConnectionId) (table id : String)
    (x : Server β γ) (s : Session σ) : Prop where
  reaches : s.Reaches k fun e => server e = x
  takes : x.Takes k s.cursorId
  clear : x.Clear k table id

namespace Session.Finds

variable [Engine σ] {server : σ → Server β γ} {k : ConnectionId} {x y : Server β γ}
  {s t : Session σ} {p : Plan} {command : Command} {effect : Effect (Bound β γ)}

/-- A session that has come to hold the connection finds the row again. -/
theorem of_leads (ht : s.Leads k t) (hserver : server t.engine = y) (htakes : y.Takes k s.cursorId)
    (hclear : y.Clear k table id) : t.Finds server k table id y where
  reaches := .ready ht.connection ht.cursor hserver
  takes := by
    rw [ht.cursorId]
    exact htakes
  clear := hclear

variable (hdb : Engine.Realizes db server)

include hdb

/-- **A change does what its statement says.** -/
theorem run_done (hs : s.Finds server k table id x) (hadmits : db.admits table id)
    (hp : p.commands = [command]) (hmeans : db.Means table id command effect)
    {row : Option (Stored β γ)} (hrow : db.on effect (x.seen k table id) = some row) :
    ∃ t, runFrom s (Store.run p) = (.ok (), t) ∧ s.Leads k t ∧
      server t.engine = (x.change k table id row).ended s.options.transactional k := by
  have hexecute : ∀ e, server e = x → ∃ count f,
      Engine.execute s.cursorId command e = (.ok count, f) ∧
        server f = x.change k table id row := by
    rintro e rfl
    exact hdb.change hs.takes hs.clear hadmits hmeans hrow
  have hcommit : ∀ f, server f = x.change k table id row → ∃ g, Engine.commit k f = (.ok (), g) ∧
      server g = (x.change k table id row).commit k := by
    intro f hf
    have hintact : (server f).failed k = false := by
      rw [hf]
      exact (hs.takes.change table id row).intact
    obtain ⟨g, hg, hserver⟩ := hdb.commit hintact
    exact ⟨g, hg, by rw [hserver, hf]⟩
  obtain ⟨t, hrun, hleads, hopen, hlast⟩ := hs.reaches.run_done hp hexecute fun _ => hcommit
  refine ⟨t, hrun, hleads, ?_⟩
  unfold Server.ended
  cases htransactional : s.options.transactional with
  | false => exact hopen htransactional
  | true => exact hlast htransactional

/-- **Or it is refused**; a store that is transactional takes all changes back then. -/
theorem run_refused (hs : s.Finds server k table id x) (hadmits : db.admits table id)
    (hp : p.commands = [command]) (hmeans : db.Means table id command effect)
    (hnone : db.on effect (x.seen k table id) = none) (ht : s.options.transactional = true) :
    ∃ z t, runFrom s (Store.run p) = (.error (.engine z), t) ∧ s.Leads k t ∧ z.kind = .integrity ∧
      server t.engine = (x.fail k).settle k := by
  have hexecute : ∀ e, server e = x → ∃ z f,
      Engine.execute s.cursorId command e = (.error z, f) ∧ z.kind = .integrity ∧
        server f = x.fail k := by
    rintro e rfl
    exact hdb.refuse hs.takes hs.clear hadmits hmeans hnone
  obtain ⟨z, t, hrun, hleads, hkind, f, hf, hengine⟩ := hs.reaches.run_failed hp hexecute
  refine ⟨z, t, hrun, hleads, hkind, ?_⟩
  rw [hengine, ht, if_pos rfl, hdb.rollback, hf]

variable {c : String}

/-- A document that is accepted is stored in the row. -/
theorem stores (hs : s.Finds server k table id x)
    (htable : Collection.tableName c s.options.tableStart = table) (hadmits : db.admits table id)
    {d : Value} {r : Record} {doc : β} {cells : List Char → Option γ}
    (hd : db.Accepts s.options.promote table d r doc cells) (mode : Mode)
    {row : Option (Stored β γ)}
    (hrow : db.on (.store mode (doc, cells)) (x.seen k table id) = some row) :
    ∃ t, runFrom s (mode.change (.str c) (.str id) d).act = (.ok (), t) ∧ s.Leads k t ∧
      server t.engine = (x.change k table id row).ended s.options.transactional k := by
  subst htable
  obtain ⟨p, hplan, hp⟩ := mode.plan_change c (.str id) hd.record
  rw [Change.act_plan (mode.named c (.str id) d) hplan]
  exact hs.run_done hdb hadmits hp (r.means hd.doc hd.cells mode id) hrow

/-- Or it is refused, and nothing is left of the transaction. -/
theorem refuses (hs : s.Finds server k table id x)
    (htable : Collection.tableName c s.options.tableStart = table) (hadmits : db.admits table id)
    {d : Value} {r : Record} {doc : β} {cells : List Char → Option γ}
    (hd : db.Accepts s.options.promote table d r doc cells) (mode : Mode)
    (hnone : db.on (.store mode (doc, cells)) (x.seen k table id) = none)
    (ht : s.options.transactional = true) :
    ∃ z t, runFrom s (mode.change (.str c) (.str id) d).act = (.error (.engine z), t) ∧
      s.Leads k t ∧ z.kind = .integrity ∧ server t.engine = (x.fail k).settle k := by
  subst htable
  obtain ⟨p, hplan, hp⟩ := mode.plan_change c (.str id) hd.record
  rw [Change.act_plan (mode.named c (.str id) d) hplan]
  exact hs.run_refused hdb hadmits hp (r.means hd.doc hd.cells mode id) hnone ht

/-- A row is deleted. -/
theorem deletes (hs : s.Finds server k table id x)
    (htable : Collection.tableName c s.options.tableStart = table) (hadmits : db.admits table id) :
    ∃ t, runFrom s (Store.deleteDoc (.str c) (.str id)) = (.ok (), t) ∧ s.Leads k t ∧
      server t.engine = (x.change k table id none).ended s.options.transactional k := by
  subst htable
  have hact : runFrom s (Store.deleteDoc (.str c) (.str id) : Action σ Unit) = _ :=
    Change.act_plan (m := .deleteDoc (.str c) (.str id)) ⟨c, rfl⟩ rfl
  rw [hact]
  exact hs.run_done hdb hadmits rfl (.delete rfl) rfl

/-- **A document that is asked for is there exactly if there is a row.** -/
theorem getDoc (hs : s.Finds server k table id x)
    (htable : Collection.tableName c s.options.tableStart = table) (hadmits : db.admits table id) :
    ∃ v t, runFrom s (Store.getDoc (.str c) (.str id)) = (.ok v, t) ∧ s.Leads k t ∧
      server t.engine = x ∧ (v = .null ↔ x.seen k table id = none) := by
  have hexecute : ∀ e, server e = x → ∃ count f rows g,
      Engine.execute s.cursorId
        (.bound (.select docColumn table .byId [] false false) [("id", .str id)]) e
          = (.ok count, f) ∧
        Engine.fetchAll s.cursorId f = (.ok rows, g) ∧ Tells (x.seen k table id) rows ∧
          server g = x := by
    rintro e rfl
    exact hdb.read hs.takes hadmits rfl
  obtain ⟨rows, t, hfetch, hleads, htells, hserver⟩ := hs.reaches.fetchAll hexecute
  have hcommand : s.options.byIdCommand docColumn (.str c) (.str id)
      = .ok (.bound (.select docColumn table .byId [] false false) [("id", .str id)]) := by
    rw [← htable]
    rfl
  have hget := getDoc_fetched hcommand hfetch
  cases hrow : x.seen k table id with
  | none =>
    rw [hrow] at htells
    cases htells
    exact ⟨.null, t, hget, hleads, hserver, by simp⟩
  | some row =>
    rw [hrow] at htells
    obtain ⟨stored, members, rfl, hrow⟩ := htells
    simp only [documentOfRow_inRow hrow] at hget
    exact ⟨.mapping members, t, hget, hleads, hserver, by simp⟩

end Session.Finds

end Docbase
