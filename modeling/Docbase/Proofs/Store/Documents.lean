import Docbase.Engine.Scripted
import Docbase.Proofs.Engine.Shelf
import Docbase.Proofs.Json.RoundTrip
import Docbase.Proofs.Store.Reaching

/-!
# A store as a map of documents

What a caller sees of a store that is asked for single documents is a map from ids to objects: the
texts, the statements and the transactions in between do not show. But for one thing: a document with
a whole number of more digits than are written is refused, whatever is to be done with it.

* `Task.on`, `Deed.run`: calls of a map, and what they give and leave.
* `Task.on_effect`: the statement that does a call at once.
* `Request.deed?`: the call of the map that a call of the store stands for.
* `Plan.IsFor`: the one statement of a change, with the values that are bound to it.
* `Session.Serves`: a session at rest between two calls.
* `step_does`, `run_does`: **a call of the store does what the map does, and so does a run.**
* `documents_as_map`: the same from the first call on.
* `overlong_refused`: a document that a map would take, and that is neither written nor read.
-/

namespace Docbase

open Sql Store

/-! ## The map -/

/-- What a call does with the document of an id. -/
inductive Task
  | add (o : Object)
  | update (more : Object)
  | upsert (more : Object)
  | replace (o : Object)
  /-- One of these with a document that is not written. -/
  | unwritten
  | delete
  | get

/-- What a call gives. -/
inductive Reply
  | done
  /-- There is a document under the id. -/
  | refused
  /-- A whole number in the document has too many digits. -/
  | unwritten
  | found (o : Option Object)

/-- What a call gives and leaves, given the document of its id. -/
def Task.on : Task → Option Object → Reply × Option Object
  | add o, none => (.done, some o)
  | add _, some old => (.refused, some old)
  | update more, some old => (.done, some (old.merge more))
  | update _, none => (.done, none)
  | upsert more, some old => (.done, some (old.merge more))
  | upsert more, none => (.done, some more)
  | replace o, some _ => (.done, some o)
  | replace _, none => (.done, none)
  | unwritten, stored => (.unwritten, stored)
  | delete, _ => (.done, none)
  | get, stored => (.found stored, stored)

/-- The effect of the statement that does a task at once. -/
def Task.effect? : Task → Option (Effect Object)
  | add o => some (.store .insert o)
  | update more => some (.store .merge more)
  | replace o => some (.store .replace o)
  | delete => some .delete
  | upsert _ | unwritten | get => none

/-- A task is refused exactly if its statement is. -/
theorem Task.on_effect {task : Task} {effect : Effect Object} (h : task.effect? = some effect)
    (stored : Option Object) :
    task.on stored = match effect.onDoc Object.merge stored with
      | some kept => (.done, kept)
      | none => (.refused, stored) := by
  cases task <;> cases h <;> cases stored <;> rfl

/-- A call about the document of an id. -/
structure Deed where
  table : String
  id : String
  task : Task

namespace Deed

/-- What a call gives and leaves of all documents. -/
def on (d : Deed) (m : Kept) : Reply × Kept :=
  let (reply, o) := d.task.on (m d.table d.id)
  (reply, m.set d.table d.id o)

theorem on_eq {d : Deed} {m : Kept} {reply : Reply} {o : Option Object}
    (h : d.task.on (m d.table d.id) = (reply, o)) : d.on m = (reply, m.set d.table d.id o) := by
  rw [on, h]

theorem get_on (table id : String) (m : Kept) :
    (⟨table, id, .get⟩ : Deed).on m = (.found (m table id), m) := by
  rw [on_eq rfl, Contents.set_same]

theorem unwritten_on (table id : String) (m : Kept) :
    (⟨table, id, .unwritten⟩ : Deed).on m = (.unwritten, m) := by
  rw [on_eq rfl, Contents.set_same]

/-- What calls give and leave, one after the other. -/
def run : List Deed → Kept → List Reply × Kept
  | [], m => ([], m)
  | d :: ds, m =>
    let (reply, m) := d.on m
    let (replies, m) := run ds m
    (reply :: replies, m)

end Deed

/-- What a call does with a document that is an object, if it is written. -/
def Task.of? (task : Object → Task) (es : Entries) : Option Task :=
  (Value.object? es).map fun o => if Json.fits (.mapping es) then task o else .unwritten

theorem Task.of?_cases {make : Object → Task} {es : Entries} {task : Task}
    (h : Task.of? make es = some task) : ∃ o, Value.object? es = some o ∧
      ((Json.fits (.mapping es) = true ∧ task = make o) ∨
        (Json.fits (.mapping es) = false ∧ task = .unwritten)) := by
  obtain ⟨o, ho, rfl⟩ := Option.map_eq_some_iff.1 h
  refine ⟨o, ho, ?_⟩
  cases Json.fits (.mapping es) <;> simp

/-- The call of a map that a call of a store stands for: those for one document that are given
texts, and objects as documents. -/
def Request.deed? (start : String) : Request → Option Deed
  | .change (.addDoc (.str c) (.str id) (.mapping es)) =>
    (Task.of? .add es).map (⟨Collection.tableName c start, id, ·⟩)
  | .change (.updateDoc (.str c) (.str id) (.mapping es)) =>
    (Task.of? .update es).map (⟨Collection.tableName c start, id, ·⟩)
  | .upsertDoc (.str c) (.str id) (.mapping es) =>
    (Task.of? .upsert es).map (⟨Collection.tableName c start, id, ·⟩)
  | .change (.replaceDoc (.str c) (.str id) (.mapping es)) =>
    (Task.of? .replace es).map (⟨Collection.tableName c start, id, ·⟩)
  | .change (.deleteDoc (.str c) (.str id)) => some ⟨Collection.tableName c start, id, .delete⟩
  | .question (.getDoc (.str c) (.str id)) => some ⟨Collection.tableName c start, id, .get⟩
  | _ => none

/-- The outcome of a call of a store says what the map gives. -/
def Reply.Tells : Reply → Except Error Answer → Prop
  | done, x => x = .ok .nothing
  | refused, x => ∃ e, x = .error (.engine e) ∧ e.kind = .integrity
  | unwritten, x => x = .error (.misuse .badNumber)
  | found none, x => x = .ok (.value .null)
  | found (some o), x => ∃ es, x = .ok (.value (.mapping es)) ∧ Value.object? es = some o

/-! ## Plans -/

namespace Sql

theorem joinParts_byId {head : String} (h : head.isEmpty = false) :
    joinParts [head, Scope.byId.text] = head ++ " WHERE id = %(id)s" := by
  have htail : " " ++ Scope.byId.text = " WHERE id = %(id)s" := by decide +kernel
  have hscope : Scope.byId.text.isEmpty = false := by decide +kernel
  rw [← htail, ← String.append_assoc]
  simp [joinParts, h, hscope, String.intercalate_cons_cons]

/-- Where no columns are filled beside the document, the statements that store one are those that
the database keeps documents by. -/
theorem mode_text (mode : Mode) (table : String) (params : Params) :
    (Command.bound (mode.statement table []) params).text = mode.text table := by
  have hupdate : ∀ a : Assignment, (Command.bound (.update table [a] .byId) params).text
      = "UPDATE " ++ table ++ " SET " ++ a.text ++ " WHERE id = %(id)s" := by
    intro a
    have hhead : ("UPDATE " ++ table ++ " SET " ++ a.text).isEmpty = false := by simp
    exact joinParts_byId hhead
  cases mode with
  | insert =>
    have htail : " (" ++ (commaList [idColumn, docColumn] ++ (") VALUES ("
        ++ (commaList [placeholder "id", placeholder "doc"] ++ ")")))
        = " (id, doc) VALUES (%(id)s, %(doc)s)" := by decide +kernel
    rw [Mode.text, ← htail]
    simp only [← String.append_assoc]
    rfl
  | merge =>
    have hset : " SET " ++ Assignment.mergeDoc.text ++ " WHERE id = %(id)s"
        = " SET doc = (to_jsonb(doc) || CAST(%(doc)s AS JSONB)) WHERE id = %(id)s" := by
      decide +kernel
    rw [Mode.statement, List.map_nil, hupdate]
    simp only [Mode.text, ← hset, String.append_assoc]
  | replace =>
    have hset : " SET " ++ Assignment.replaceDoc.text ++ " WHERE id = %(id)s"
        = " SET doc = %(doc)s WHERE id = %(id)s" := by decide +kernel
    rw [Mode.statement, List.map_nil, hupdate]
    simp only [Mode.text, ← hset, String.append_assoc]

theorem delete_text (table : String) (params : Params) :
    (Command.bound (.delete table .byId) params).text = deleteText table := by
  have hhead : ("DELETE FROM " ++ table).isEmpty = false := by simp
  exact joinParts_byId hhead

theorem read_text (table : String) (params : Params) :
    (Command.bound (.select docColumn table .byId [] false false) params).text = readText table := by
  have hhead : ("SELECT doc FROM " ++ table).isEmpty = false := by simp
  have hparts : (Command.bound (.select docColumn table .byId [] false false) params).text
      = joinParts ["SELECT doc FROM " ++ table, Scope.byId.text, "", "", ""] := rfl
  have hempty : joinParts ["SELECT doc FROM " ++ table, Scope.byId.text, "", "", ""]
      = joinParts ["SELECT doc FROM " ++ table, Scope.byId.text] := by
    simp [joinParts, List.filter_cons]
  rw [hparts, hempty, joinParts_byId hhead]
  rfl

end Sql

/-- A plan of one command, a statement for one document. -/
structure Plan.IsFor (p : Plan) (effect : Effect Object) (table id : String) : Prop where
  command : ∃ command params, p.commands = [command] ∧ command.text = effect.text table ∧
    command.params = some params ∧ effect.Binds params id

namespace Options

variable {o : Options} {es : Entries} {ob : Object}

/-- The record of an object is its text, if nothing of it is promoted. -/
theorem record_object {promote : Bool} (h : Value.object? es = some ob)
    (hfits : Json.fits (.mapping es) = true)
    (hsplit : Record.splitMetadata promote es = .ok (es, [])) :
    ∃ text, Record.ofDocument promote (.mapping es) = .ok ⟨text, []⟩ ∧
      Json.decode none text = .ok (.mapping es) := by
  obtain ⟨text, hencode, hdecode⟩ := Json.decode_encode Json.covers_none (Value.datum_mapping h) hfits
  have hbody : Record.bodyOf es = .ok text := by
    rw [Record.bodyOf, encodeText, hencode]
    rfl
  have hrefuse : refuse (Record.splitMetadata promote es) = .ok (es, []) := by rw [hsplit, refuse]
  refine ⟨text, ?_, hdecode⟩
  exact bind_eq_ok.2 ⟨es, rfl, bind_eq_ok.2 ⟨(es, []), hrefuse, bind_eq_ok.2 ⟨text, hbody, rfl⟩⟩⟩

/-- An object that is not written has no record. -/
theorem record_long {promote : Bool} (h : Value.object? es = some ob)
    (hlong : Json.fits (.mapping es) = false)
    (hsplit : Record.splitMetadata promote es = .ok (es, [])) :
    Record.ofDocument promote (.mapping es) = .error (.misuse .badNumber) := by
  have hbody : Record.bodyOf es = .error (.misuse .badNumber) := by
    rw [Record.bodyOf, encodeText, Json.encode_long (Value.datum_mapping h) hlong]
    rfl
  have hrefuse : refuse (Record.splitMetadata promote es) = .ok (es, []) := by rw [hsplit, refuse]
  exact (bind_ok (a := es) rfl).trans ((bind_ok hrefuse).trans (bind_error hbody))

theorem split_unpromoted (hp : o.promote = false) (es : Entries) :
    Record.splitMetadata o.promote es = .ok (es, []) := by
  rw [hp]
  rfl

/-- A document that is added is inserted. -/
theorem addDoc_isFor (hp : o.promote = false) (h : Value.object? es = some ob)
    (hfits : Json.fits (.mapping es) = true) (c id : String) :
    ∃ p, o.addDocPlan (.str c) (.str id) (.mapping es) = .ok p ∧
      p.IsFor (.store .insert ob) (Collection.tableName c o.tableStart) id := by
  obtain ⟨text, hrecord, hdecode⟩ := record_object h hfits (split_unpromoted hp es)
  refine ⟨_, bind_eq_ok.2 ⟨_, hrecord, bind_eq_ok.2 ⟨_, rfl, rfl⟩⟩, _, _, rfl, ?_, rfl, ?_⟩
  · exact mode_text .insert _ _
  · exact .store rfl rfl hdecode h

/-- One that is merged or put in the place of another changes it. -/
theorem changeDoc_isFor (merge : Bool) (hp : o.promote = false) (h : Value.object? es = some ob)
    (hfits : Json.fits (.mapping es) = true) (c id : String) :
    ∃ p, o.changeDocPlan merge (.str c) (.str id) (.mapping es) = .ok p ∧
      p.IsFor (.store (if merge then .merge else .replace) ob)
        (Collection.tableName c o.tableStart) id := by
  obtain ⟨text, hrecord, hdecode⟩ := record_object h hfits (split_unpromoted hp es)
  refine ⟨_, bind_eq_ok.2 ⟨_, hrecord, bind_eq_ok.2 ⟨_, rfl, rfl⟩⟩, _, _, rfl, ?_, rfl, ?_⟩
  · cases merge with
    | true => exact mode_text .merge _ _
    | false => exact mode_text .replace _ _
  · exact .store rfl rfl hdecode h

/-- One that is not written is neither. -/
theorem plans_long (hp : o.promote = false) (h : Value.object? es = some ob)
    (hlong : Json.fits (.mapping es) = false) (c id : String) :
    o.addDocPlan (.str c) (.str id) (.mapping es) = .error (.misuse .badNumber) ∧
      ∀ merge, o.changeDocPlan merge (.str c) (.str id) (.mapping es) =
        .error (.misuse .badNumber) := by
  have hrecord := record_long h hlong (split_unpromoted hp es)
  exact ⟨bind_error hrecord, fun _ => bind_error hrecord⟩

/-- And one that is removed is deleted; no document is bound for that. -/
theorem deleteDoc_isFor (c id : String) :
    ∃ p, o.deleteDocPlan (.str c) (.str id) = .ok p ∧
      p.IsFor .delete (Collection.tableName c o.tableStart) id :=
  ⟨_, bind_eq_ok.2 ⟨_, rfl, rfl⟩, _, _, rfl, delete_text _ _, rfl, .delete rfl⟩

end Options

/-! ## Sessions -/

variable {σ : Type} {db : Database σ} {k : ConnectionId} {m n : Kept}

/-- The session holds the connection, and the database has the documents. -/
structure Session.Holds (db : Database σ) (k : ConnectionId) (m n : Kept) (s : Session σ) : Prop where
  connection : s.connection = some k
  engine : db.At m n s.engine
  cursor : ∀ c, s.cursor = some c → db.opened c s.engine

/-- The session can open the connection. -/
structure Session.Waits (db : Database σ) (k : ConnectionId) (m : Kept) (s : Session σ) : Prop where
  connection : s.connection = none
  cursor : s.cursor = none
  next : s.nextConnection = k
  target : ∃ t, target s.settings = .ok t
  lasting : db.lasting s.engine = m

/-- The session serves the documents that last. -/
def Session.Serves (db : Database σ) (k : ConnectionId) (m : Kept) (s : Session σ) : Prop :=
  s.Holds db k m m ∨ s.Waits db k m

variable {s t : Session σ}

/-- Only the cursor that the session holds counts. -/
theorem Session.Holds.of_leads (h : s.Leads k t) (hat : db.At m n t.engine)
    (hopened : db.opened s.cursorId t.engine) : t.Holds db k m n where
  connection := h.connection
  engine := hat
  cursor c hc := by
    have hcursor : some s.cursorId = some c := h.cursor.symm.trans hc
    cases hcursor
    exact hopened

variable [Engine σ]

section Steps

variable (hdb : Engine.Keeps k db)

include hdb

/-- A command finds the documents that last, on a cursor that is open. -/
theorem Session.Serves.reaches (hs : s.Serves db k m) :
    s.Reaches k fun e => db.At m m e ∧ db.opened s.cursorId e := by
  unfold Session.cursorId
  obtain hs | hs := hs
  · cases hcursor : s.cursor with
    | some c => exact .ready hs.connection hcursor ⟨hs.engine, hs.cursor c hcursor⟩
    | none => exact .held hs.connection hcursor (hdb.openCursor hs.engine s.nextCursor)
  · obtain ⟨target, htarget⟩ := hs.target
    obtain ⟨f, hf, hat⟩ := hdb.connect target s.engine
    rw [hs.lasting] at hat
    rw [hs.cursor]
    exact .within hs.connection hs.cursor hs.next htarget hf (hdb.openCursor hat s.nextCursor)

variable {effect : Effect Object} {table id : String} {p : Plan}

/-- A change is made, and lasts. -/
theorem run_changes (ht : s.options.transactional = true) (hs : s.Serves db k m)
    (hp : p.IsFor effect table id) (hadmits : db.admits table id) {kept : Option Object}
    (hkept : effect.onDoc Object.merge (m table id) = some kept) :
    ∃ t, runFrom s (Store.run p) = (.ok (), t) ∧ t.options = s.options ∧
      t.Serves db k (m.set table id kept) := by
  obtain ⟨command, params, hcommands, htext, hparams, hbinds⟩ := hp.command
  have hexecute : ∀ e, db.At m m e ∧ db.opened s.cursorId e → ∃ count f,
      Engine.execute s.cursorId command e = (.ok count, f) ∧
        db.At m (m.set table id kept) f ∧ db.opened s.cursorId f :=
    fun e he => hdb.change he.1 he.2 hadmits htext hparams hbinds hkept
  have hcommit : ∀ f, db.At m (m.set table id kept) f ∧ db.opened s.cursorId f →
      ∃ g, Engine.commit k f = (.ok (), g) ∧
        db.At (m.set table id kept) (m.set table id kept) g ∧ db.opened s.cursorId g := by
    intro f hf
    obtain ⟨g, hg, hlasts, hopen⟩ := hdb.commit hf.1
    exact ⟨g, hg, hlasts, hopen _ hf.2⟩
  obtain ⟨t, hrun, hleads, -, hlast⟩ :=
    (hs.reaches hdb).run_done hcommands hexecute fun _ => hcommit
  obtain ⟨hat, hopened⟩ := hlast ht
  exact ⟨t, hrun, hleads.options, .inl (.of_leads hleads hat hopened)⟩

/-- A change that is refused changes nothing. -/
theorem run_refused (ht : s.options.transactional = true) (hs : s.Serves db k m)
    (hp : p.IsFor effect table id) (hadmits : db.admits table id)
    (hnone : effect.onDoc Object.merge (m table id) = none) :
    ∃ x t, runFrom s (Store.run p) = (.error (.engine x), t) ∧ x.kind = .integrity ∧
      t.options = s.options ∧ t.Serves db k m := by
  obtain ⟨command, params, hcommands, htext, hparams, hbinds⟩ := hp.command
  have hexecute : ∀ e, db.At m m e ∧ db.opened s.cursorId e → ∃ x f,
      Engine.execute s.cursorId command e = (.error x, f) ∧ x.kind = .integrity ∧
        db.lasting f = m ∧ db.opened s.cursorId f :=
    fun e he => hdb.refuse he.1 he.2 hadmits htext hparams hbinds hnone
  obtain ⟨x, t, hrun, hleads, hkind, f, ⟨hlasting, hopened⟩, hengine⟩ :=
    (hs.reaches hdb).run_failed hcommands hexecute
  -- the failed statement leaves a connection that takes none; only the rollback makes it fit again
  obtain ⟨hat, hopen⟩ := hdb.rollback f
  rw [ht, if_pos rfl] at hengine
  rw [hlasting, ← hengine] at hat
  have hopened := hopen _ hopened
  rw [← hengine] at hopened
  exact ⟨x, t, hrun, hkind, hleads.options, .inl (.of_leads hleads hat hopened)⟩

/-- The document of an id is read as the database has it. -/
theorem getDoc_serves (hs : s.Serves db k m) (collection : String)
    (htable : Collection.tableName collection s.options.tableStart = table)
    (hadmits : db.admits table id) :
    ∃ v t, runFrom s (getDoc (.str collection) (.str id)) = (.ok v, t) ∧
      (Reply.found (m table id)).Tells (.ok (.value v)) ∧ t.options = s.options ∧
      t.Serves db k m := by
  subst htable
  obtain ⟨command, hcommand, htext, hparams⟩ : ∃ command,
      s.options.byIdCommand docColumn (.str collection) (.str id) = .ok command ∧
        command.text = readText (Collection.tableName collection s.options.tableStart) ∧
        command.params = some [("id", .str id)] := ⟨_, rfl, read_text _ _, rfl⟩
  have hexecute : ∀ e, db.At m m e ∧ db.opened s.cursorId e → ∃ count f rows g,
      Engine.execute s.cursorId command e = (.ok count, f) ∧
        Engine.fetchAll s.cursorId f = (.ok rows, g) ∧
        Rows (m (Collection.tableName collection s.options.tableStart) id) rows ∧
          db.At m m g ∧ db.opened s.cursorId g :=
    fun e he => hdb.read he.1 he.2 hadmits htext hparams rfl
  obtain ⟨rows, t, hfetch, hleads, hrows, hat, hopened⟩ :=
    (hs.reaches hdb).fetchAll hexecute
  have hserves : t.Serves db k m := .inl (.of_leads hleads hat hopened)
  have hoptions : t.options = s.options := hleads.options
  have hget := getDoc_fetched hcommand hfetch
  cases hstored : m (Collection.tableName collection s.options.tableStart) id with
  | none =>
    rw [hstored] at hrows
    cases hrows
    exact ⟨_, _, hget, rfl, hoptions, hserves⟩
  | some o =>
    rw [hstored] at hrows
    obtain ⟨row, es, rfl, hrow, ho⟩ := hrows
    simp only [documentOfRow_inRow hrow] at hget
    exact ⟨_, _, hget, ⟨es, rfl, ho⟩, hoptions, hserves⟩

/-- What comes of an action is what the map gives and leaves. -/
def Session.Does (db : Database σ) (k : ConnectionId) (d : Deed) (m : Kept) (s : Session σ)
    (a : Action σ Answer) : Prop :=
  ∃ x t, runFrom s a = (x, t) ∧ (d.on m).1.Tells x ∧ t.options = s.options ∧
    t.Serves db k (d.on m).2

/-- A change does what its statement makes of the document. -/
theorem change_does {task : Task} {c : Change} {stored : Option Object}
    (ht : s.options.transactional = true) (hs : s.Serves db k m) (hadmits : db.admits table id)
    (hname : ∃ name, c.collection = .str name) (hplan : c.plan s.options = .ok p)
    (hp : p.IsFor effect table id) (hstored : m table id = stored)
    (hon : task.on stored = match effect.onDoc Object.merge stored with
      | some kept => (.done, kept)
      | none => (.refused, stored)) :
    s.Does db k ⟨table, id, task⟩ m (do c.act; pure .nothing) := by
  have hact : runFrom s (do c.act; pure .nothing : Action σ Answer)
      = runFrom s (do Store.run p; pure .nothing) := by
    rw [runFrom_bind, runFrom_bind, Change.act_plan hname hplan]
  subst hstored
  unfold Session.Does
  rw [hact, runFrom_bind]
  cases hkept : effect.onDoc Object.merge (m table id) with
  | some kept =>
    rw [hkept] at hon
    obtain ⟨t, hrun, hoptions, hserves⟩ := run_changes hdb ht hs hp hadmits hkept
    rw [hrun, Deed.on_eq hon]
    exact ⟨_, _, rfl, rfl, hoptions, hserves⟩
  | none =>
    rw [hkept] at hon
    obtain ⟨x, t, hrun, hkind, hoptions, hserves⟩ := run_refused hdb ht hs hp hadmits hkept
    rw [hrun, Deed.on_eq hon, Contents.set_same]
    exact ⟨_, _, rfl, ⟨x, rfl, hkind⟩, hoptions, hserves⟩

omit hdb in
/-- A change with a document that is not written changes nothing. -/
theorem unwritten_does {c : Change} (hs : s.Serves db k m) (hname : ∃ name, c.collection = .str name)
    (hplan : c.plan s.options = .error (.misuse .badNumber)) :
    s.Does db k ⟨table, id, .unwritten⟩ m (do c.act; pure .nothing) := by
  unfold Session.Does
  rw [runFrom_bind, Change.act_refused hname hplan, Deed.unwritten_on]
  exact ⟨_, s, rfl, rfl, rfl, hs⟩

/-- A document that is put under an id is added, or merged into the one that is there: the call does
what one of these two does. -/
theorem upsert_does {task : Task} (hs : s.Serves db k m) {collection : String} {document : Value}
    (htable : Collection.tableName collection s.options.tableStart = table)
    (hadmits : db.admits table id)
    (hadd : ∀ t : Session σ, t.options = s.options → t.Serves db k m → m table id = none →
      t.Does db k ⟨table, id, task⟩ m
        (do (Change.addDoc (.str collection) (.str id) document).act; pure .nothing))
    (hupdate : ∀ (t : Session σ) (old : Object), t.options = s.options → t.Serves db k m →
      m table id = some old → t.Does db k ⟨table, id, task⟩ m
        (do (Change.updateDoc (.str collection) (.str id) document).act; pure .nothing)) :
    s.Does db k ⟨table, id, task⟩ m
      (do Store.upsertDoc (.str collection) (.str id) document; pure .nothing) := by
  obtain ⟨v, t, hget, htells, hoptions, hserves⟩ := getDoc_serves hdb hs collection htable hadmits
  unfold Session.Does
  rw [← hoptions, Store.upsertDoc, runFrom_bind, runFrom_bind, hget]
  cases hstored : m table id with
  | none =>
    have hdoes := hadd t hoptions hserves hstored
    rw [hstored] at htells
    cases htells
    rw [Session.Does, runFrom_bind] at hdoes
    exact hdoes
  | some old =>
    have hdoes := hupdate t old hoptions hserves hstored
    rw [hstored] at htells
    obtain ⟨es, hv, -⟩ := htells
    cases hv
    rw [Session.Does, runFrom_bind] at hdoes
    exact hdoes

/-! Each call with a document, whether the document is written or not. -/

section Documents

variable {name : String} {es : Entries} {task : Task}
  (ht : s.options.transactional = true) (hp : s.options.promote = false) (hs : s.Serves db k m)
  (hadmits : db.admits (Collection.tableName name s.options.tableStart) id)

include ht hp hs hadmits

theorem add_does (htask : Task.of? .add es = some task) :
    s.Does db k ⟨Collection.tableName name s.options.tableStart, id, task⟩ m
      (do (Change.addDoc (.str name) (.str id) (.mapping es)).act; pure .nothing) := by
  obtain ⟨o, ho, ⟨hfits, rfl⟩ | ⟨hlong, rfl⟩⟩ := Task.of?_cases htask
  · obtain ⟨p, hplan, hfor⟩ := Options.addDoc_isFor hp ho hfits name id
    have htask : (Task.add o).effect? = some (.store .insert o) := rfl
    exact change_does hdb ht hs hadmits ⟨name, rfl⟩ hplan hfor rfl (Task.on_effect htask _)
  · exact unwritten_does hs ⟨name, rfl⟩ (Options.plans_long hp ho hlong name id).1

/-- A document is merged into another, or put in its place. -/
theorem changeDoc_does (merge : Bool)
    (htask : Task.of? (if merge then .update else .replace) es = some task) :
    s.Does db k ⟨Collection.tableName name s.options.tableStart, id, task⟩ m
      (do (if merge then Change.updateDoc (.str name) (.str id) (.mapping es)
        else .replaceDoc (.str name) (.str id) (.mapping es)).act; pure .nothing) := by
  obtain ⟨o, ho, ⟨hfits, rfl⟩ | ⟨hlong, rfl⟩⟩ := Task.of?_cases htask
  · obtain ⟨p, hplan, hfor⟩ := Options.changeDoc_isFor merge hp ho hfits name id
    cases merge with
    | true =>
      have htask : (Task.update o).effect? = some (.store .merge o) := rfl
      exact change_does hdb ht hs hadmits ⟨name, rfl⟩ hplan hfor rfl (Task.on_effect htask _)
    | false =>
      have htask : (Task.replace o).effect? = some (.store .replace o) := rfl
      exact change_does hdb ht hs hadmits ⟨name, rfl⟩ hplan hfor rfl (Task.on_effect htask _)
  · have hplan := (Options.plans_long hp ho hlong name id).2
    cases merge with
    | true => exact unwritten_does hs ⟨name, rfl⟩ (hplan true)
    | false => exact unwritten_does hs ⟨name, rfl⟩ (hplan false)

theorem upsertDoc_does (htask : Task.of? .upsert es = some task) :
    s.Does db k ⟨Collection.tableName name s.options.tableStart, id, task⟩ m
      (do Store.upsertDoc (.str name) (.str id) (.mapping es); pure .nothing) := by
  obtain ⟨o, ho, hcases⟩ := Task.of?_cases htask
  refine upsert_does hdb hs rfl hadmits (fun t hoptions hserves hstored => ?_)
    fun t old hoptions hserves hstored => ?_
  · rw [← hoptions] at ht hp hadmits hstored ⊢
    obtain ⟨hfits, rfl⟩ | ⟨hlong, rfl⟩ := hcases
    · obtain ⟨p, hplan, hfor⟩ := Options.addDoc_isFor hp ho hfits name id
      exact change_does hdb ht hserves hadmits ⟨name, rfl⟩ hplan hfor hstored rfl
    · -- the look has changed nothing, and the document is refused before anything is sent
      exact unwritten_does hserves ⟨name, rfl⟩ (Options.plans_long hp ho hlong name id).1
  · rw [← hoptions] at ht hp hadmits hstored ⊢
    obtain ⟨hfits, rfl⟩ | ⟨hlong, rfl⟩ := hcases
    · obtain ⟨p, hplan, hfor⟩ := Options.changeDoc_isFor true hp ho hfits name id
      exact change_does hdb ht hserves hadmits ⟨name, rfl⟩ hplan hfor hstored rfl
    · exact unwritten_does hserves ⟨name, rfl⟩ ((Options.plans_long hp ho hlong name id).2 true)

end Documents

/-- A document that is asked for is read. -/
theorem get_does (hs : s.Serves db k m) {collection : String}
    (htable : Collection.tableName collection s.options.tableStart = table)
    (hadmits : db.admits table id) :
    s.Does db k ⟨table, id, .get⟩ m (Question.getDoc (.str collection) (.str id)).act := by
  obtain ⟨v, t, hget, htells, hoptions, hserves⟩ := getDoc_serves hdb hs collection htable hadmits
  unfold Session.Does
  rw [Deed.get_on, Question.act, runFrom_bind, hget]
  exact ⟨_, t, rfl, htells, hoptions, hserves⟩

/-- **A call about one document does what the map does.** -/
theorem step_does {w : Site σ} {r : Request} {d : Deed} (ht : w.session.options.transactional = true)
    (hp : w.session.options.promote = false) (hs : w.session.Serves db k m)
    (hr : r.deed? w.session.options.tableStart = some d) (hadmits : db.admits d.table d.id) :
    (d.on m).1.Tells (w.step r).1 ∧ (w.step r).2.session.options = w.session.options ∧
      (w.step r).2.session.Serves db k (d.on m).2 := by
  -- all of these calls leave the readers of the site alone
  have hact : ∀ {a : Action σ Answer}, w.session.Does db k d m a → w.step r = w.act a →
      (d.on m).1.Tells (w.step r).1 ∧ (w.step r).2.session.options = w.session.options ∧
        (w.step r).2.session.Serves db k (d.on m).2 := by
    rintro a ⟨x, t, hrun, htells, hoptions, hserves⟩ hstep
    rw [hstep, Site.act, hrun]
    exact ⟨htells, hoptions, hserves⟩
  unfold Request.deed? at hr
  split at hr
  · next name id es =>
    obtain ⟨task, htask, rfl⟩ := Option.map_eq_some_iff.1 hr
    exact hact (add_does hdb ht hp hs hadmits htask) rfl
  · next name id es =>
    obtain ⟨task, htask, rfl⟩ := Option.map_eq_some_iff.1 hr
    exact hact (changeDoc_does hdb ht hp hs hadmits true htask) rfl
  · next name id es =>
    obtain ⟨task, htask, rfl⟩ := Option.map_eq_some_iff.1 hr
    exact hact (upsertDoc_does hdb ht hp hs hadmits htask) rfl
  · next name id es =>
    obtain ⟨task, htask, rfl⟩ := Option.map_eq_some_iff.1 hr
    exact hact (changeDoc_does hdb ht hp hs hadmits false htask) rfl
  · next name id =>
    cases hr
    obtain ⟨p, hplan, hfor⟩ := Options.deleteDoc_isFor (o := w.session.options) name id
    have htask : Task.delete.effect? = some .delete := rfl
    exact hact (change_does hdb (c := .deleteDoc (.str name) (.str id)) ht hs hadmits
      ⟨name, rfl⟩ hplan hfor rfl (Task.on_effect htask _)) rfl
  · next name id =>
    cases hr
    exact hact (get_does hdb hs rfl hadmits) rfl
  · cases hr

/-- **And a run does what the map does.** -/
theorem run_does {w : Site σ} {start : String} {requests : List Request} {deeds : List Deed}
    (ht : w.session.options.transactional = true) (hp : w.session.options.promote = false)
    (hstart : w.session.options.tableStart = start) (hs : w.session.Serves db k m)
    (hdeeds : List.Forall₂ (fun r d => r.deed? start = some d) requests deeds)
    (hadmits : ∀ d ∈ deeds, db.admits d.table d.id) :
    List.Forall₂ Reply.Tells (Deed.run deeds m).1 ((w.journal requests).map (·.outcome)) ∧
      (w.run requests).session.Serves db k (Deed.run deeds m).2 := by
  induction hdeeds generalizing w m with
  | nil => exact ⟨.nil, hs⟩
  | @cons r d requests deeds hr hrest ih =>
    subst hstart
    obtain ⟨htells, hoptions, hserves⟩ := step_does hdb ht hp hs hr (hadmits d (.head _))
    obtain ⟨htold, hserved⟩ := ih (hoptions ▸ ht) (hoptions ▸ hp) (by rw [hoptions]) hserves
      fun d hd => hadmits d (.tail _ hd)
    exact ⟨.cons htells htold, hserved⟩

end Steps

omit [Engine σ] in
theorem Session.Serves.lasting (hs : s.Serves db k m) : db.lasting s.engine = m := by
  obtain hs | hs := hs
  · exact hs.engine.lasting
  · exact hs.lasting

/-- **A transactional store that promotes nothing is a map of documents.** Whatever the database
keeps at first, calls about single documents give what the map gives, and the database keeps in the
end what the map leaves. A document with a whole number of more digits than are written is refused,
and nothing changes. -/
theorem documents_as_map (hdb : Engine.Keeps k db) (ht : s.options.transactional = true)
    (hp : s.options.promote = false) (hs : s.Serves db k (db.lasting s.engine))
    {requests : List Request} {deeds : List Deed}
    (hdeeds : List.Forall₂ (fun r d => r.deed? s.options.tableStart = some d) requests deeds)
    (hadmits : ∀ d ∈ deeds, db.admits d.table d.id) :
    List.Forall₂ Reply.Tells (Deed.run deeds (db.lasting s.engine)).1
        ((Site.journal ⟨s, []⟩ requests).map (·.outcome)) ∧
      db.lasting (Site.run ⟨s, []⟩ requests).session.engine
        = (Deed.run deeds (db.lasting s.engine)).2 := by
  obtain ⟨htold, hserved⟩ := run_does hdb (w := ⟨s, []⟩) ht hp rfl hs hdeeds hadmits
  exact ⟨htold, hserved.lasting⟩

/-- A store on an empty shelf. -/
def Session.onShelf : Session Shelf :=
  .withConnection { (default : Options) with tableStart := "em_ds_", transactional := true } {} {}

theorem Session.onShelf_serves :
    Session.onShelf.Serves Shelf.documents 0 (Shelf.documents.lasting Session.onShelf.engine) :=
  .inl ⟨rfl, ⟨rfl, rfl, rfl⟩, fun _ _ => trivial⟩

/-- A document is added twice, and changed. -/
def Request.addAgain : List Request :=
  [.change (.addDoc (.str "animals") (.str "1") (.object [("name", .str "rex")])),
    .change (.addDoc (.str "animals") (.str "1") (.object [])),
    .upsertDoc (.str "animals") (.str "1") (.object [("age", .int 3)]),
    .question (.getDoc (.str "animals") (.str "1"))]

/-- What that is for the map. -/
def Deed.addAgain : List Deed :=
  [⟨Shelf.table, "1", .add (Object.empty.with "name" (.str "rex"))⟩,
    ⟨Shelf.table, "1", .add Object.empty⟩,
    ⟨Shelf.table, "1", .upsert (Object.empty.with "age" (.int 3))⟩, ⟨Shelf.table, "1", .get⟩]

/-- The second time is refused, and the document is merged into the first. -/
theorem documents_as_map_addAgain :
    ∃ x es, (Site.journal ⟨Session.onShelf, []⟩ Request.addAgain).map (·.outcome)
        = [.ok .nothing, .error (.engine x), .ok .nothing, .ok (.value (.mapping es))] ∧
      x.kind = .integrity ∧
      Value.object? es
        = some ((Object.empty.with "name" (.str "rex")).merge (Object.empty.with "age" (.int 3))) := by
  have hdeeds : List.Forall₂ (fun r d => Request.deed? "em_ds_" r = some d) Request.addAgain
      Deed.addAgain := by
    rw [Deed.addAgain, ← Shelf.tableName_animals]
    exact .cons rfl (.cons rfl (.cons rfl (.cons rfl .nil)))
  have hadmits : ∀ d ∈ Deed.addAgain, Shelf.documents.admits d.table d.id := by
    simp [Deed.addAgain, Shelf.documents]
  obtain ⟨htold, -⟩ := documents_as_map (Shelf.keeps 0) rfl rfl Session.onShelf_serves hdeeds hadmits
  have hreplies : (Deed.run Deed.addAgain (Shelf.documents.lasting Session.onShelf.engine)).1
      = [.done, .refused, .done, .found (some
        ((Object.empty.with "name" (.str "rex")).merge (Object.empty.with "age" (.int 3))))] := by
    simp [Deed.run, Deed.on, Deed.addAgain, Task.on, Contents.set, Shelf.documents, Shelf.kept,
      Session.onShelf, Session.withConnection]
  rw [hreplies] at htold
  generalize (Site.journal ⟨Session.onShelf, []⟩ Request.addAgain).map (·.outcome) = outcomes at htold
  obtain _ | ⟨hfirst, htold⟩ := htold
  obtain _ | ⟨⟨x, hsecond, hkind⟩, htold⟩ := htold
  obtain _ | ⟨hthird, htold⟩ := htold
  obtain _ | ⟨⟨es, hfourth, hobject⟩, htold⟩ := htold
  obtain _ | _ := htold
  rw [hfirst, hsecond, hthird, hfourth]
  exact ⟨x, es, rfl, hkind, hobject⟩

/-- A number of one digit more than are written and read. -/
@[irreducible] def Document.overlongNumber : Nat := Nat.pow 10 digitLimit

/-- A document with it. -/
def Document.overlong : Entries := [(.str "n", .int Document.overlongNumber)]

/-- Its text, all the same. -/
def Document.overlongText : String := String.ofList (Json.numberText Document.overlongNumber)

theorem Document.overlong_digits :
    digitLimit < (Nat.toDigits 10 Document.overlongNumber).length := by
  have hpow : ∀ k, 0 < k → k < (Nat.toDigits 10 (Nat.pow 10 k)).length := by
    intro k hk
    rw [Nat.pow_eq, ← Nat.not_le, Nat.length_toDigits_le_iff (by decide) hk]
    exact Nat.lt_irrefl _
  unfold Document.overlongNumber
  exact hpow digitLimit (by decide)

theorem Document.overlong_long : Json.fits (.mapping Document.overlong) = false := by
  have hdigits := Nat.not_le.2 Document.overlong_digits
  simp only [Document.overlong, Json.fits, Json.membersFit, Int.natAbs_natCast, hdigits,
    decide_false, Bool.false_and]

theorem Document.overlongText_decode :
    Json.decode none Document.overlongText = .ok (.mapping Document.overlong) := by
  have hends : Json.Ends ['\x7d'] := Json.ends_cons (.inr (.inr rfl))
  have hnumber := Json.number_toDigits false Document.overlongNumber (nofun : ∀ k, none = some k → _)
    hends
  exact Json.decode_numberText (x := .ok _) hnumber

theorem Document.overlongText_refused : decodeText Document.overlongText = .error .badNumber := by
  have hends : Json.Ends ['\x7d'] := Json.ends_cons (.inr (.inr rfl))
  have hlong : (some digitLimit).any (· < (Nat.toDigits 10 Document.overlongNumber).length) = true :=
    decide_eq_true Document.overlong_digits
  have hnumber := Json.number_long false Document.overlongNumber hlong hends
  rw [decodeText, Document.overlongText, Json.decode_numberText (x := .error _) hnumber]
  rfl

/-- A call that adds the document. -/
def Request.addLong : Request :=
  .change (.addDoc (.str "animals") (.str "1") (.mapping Document.overlong))

theorem Request.addLong_does :
    (Site.journal ⟨Session.onShelf, []⟩ [Request.addLong]).map (·.outcome) =
        [.error (.misuse .badNumber)] ∧
      Shelf.documents.lasting (Site.run ⟨Session.onShelf, []⟩ [Request.addLong]).session.engine
        Shelf.table "1" = none := by
  have hdeed : Request.addLong.deed? "em_ds_" = some ⟨Shelf.table, "1", .unwritten⟩ := by
    have hobject : ∃ o, Value.object? Document.overlong = some o := ⟨_, rfl⟩
    obtain ⟨o, ho⟩ := hobject
    rw [← Shelf.tableName_animals, Request.addLong, Request.deed?, Task.of?, ho,
      Document.overlong_long]
    rfl
  have hadmits : ∀ d ∈ [(⟨Shelf.table, "1", .unwritten⟩ : Deed)],
      Shelf.documents.admits d.table d.id := by
    simp [Shelf.documents]
  obtain ⟨htold, hserved⟩ := run_does (Shelf.keeps 0) (w := ⟨Session.onShelf, []⟩) rfl rfl rfl
    Session.onShelf_serves (.cons hdeed .nil) hadmits
  have hleft : (Deed.run [⟨Shelf.table, "1", .unwritten⟩]
      (Shelf.documents.lasting Session.onShelf.engine)) =
        ([.unwritten], Shelf.documents.lasting Session.onShelf.engine) := by
    rw [Deed.run, Deed.unwritten_on]
    rfl
  rw [hleft] at htold hserved
  refine ⟨?_, ?_⟩
  · generalize (Site.journal ⟨Session.onShelf, []⟩ [Request.addLong]).map (·.outcome) = outcomes
      at htold
    obtain _ | ⟨hfirst, htold⟩ := htold
    obtain _ | _ := htold
    rw [hfirst]
  · rw [hserved.lasting]
    rfl

/-- A store on an engine that has a document as a text in a row. -/
def Session.onText (text : String) : Session Scripted :=
  .withConnection { (default : Options) with tableStart := "em_ds_", transactional := true } {}
    { results := [[.row (.mapping [(.str docColumn, .str text)])]] }

theorem Session.onText_get (text : String) :
    (Site.journal ⟨Session.onText text, []⟩
      [.question (.getDoc (.str "animals") (.str "1"))]).map (·.outcome) =
        [((decodeText text).mapError .misuse).map .value] := by
  obtain ⟨command, hcommand⟩ : ∃ command, (Session.onText text).options.byIdCommand docColumn
      (.str "animals") (.str "1") = .ok command := ⟨_, rfl⟩
  -- the engine gives its row whatever the text is; only then is the text read
  obtain ⟨t, hfetch⟩ : ∃ t, runFrom (Session.onText text) (fetchAll command)
      = (.ok [.mapping [(.str docColumn, .str text)]], t) := ⟨_, rfl⟩
  have hget := getDoc_fetched hcommand hfetch
  have hrow : documentOfRow (.mapping [(.str docColumn, .str text)]) = decodeText text := rfl
  have hact : runFrom (Session.onText text) (Question.getDoc (.str "animals") (.str "1")).act
      = (((decodeText text).mapError .misuse).map .value, t) := by
    rw [Question.act, runFrom_bind, hget]
    simp only [hrow]
    cases decodeText text <;> rfl
  simp only [Site.journal, Site.step, Site.act, hact, List.map_cons, List.map_nil]

/-- It is an object, and a map takes it under an id without a document and gives it back. The store
refuses to add it, and keeps nothing under the id; nor does it give the document back where it comes
as a text. -/
theorem overlong_refused :
    ∃ o, Value.object? Document.overlong = some o ∧ (Task.add o).on none = (.done, some o) ∧
      Task.get.on (some o) = (.found (some o), some o) ∧
      (Site.journal ⟨Session.onShelf, []⟩ [Request.addLong]).map (·.outcome) =
        [.error (.misuse .badNumber)] ∧
      Shelf.documents.lasting (Site.run ⟨Session.onShelf, []⟩ [Request.addLong]).session.engine
        Shelf.table "1" = none ∧
      Json.decode none Document.overlongText = .ok (.mapping Document.overlong) ∧
      (Site.journal ⟨Session.onText Document.overlongText, []⟩
        [.question (.getDoc (.str "animals") (.str "1"))]).map (·.outcome) =
          [.error (.misuse .badNumber)] := by
  have hobject : ∃ o, Value.object? Document.overlong = some o := ⟨_, rfl⟩
  obtain ⟨o, ho⟩ := hobject
  obtain ⟨hadd, hkept⟩ := Request.addLong_does
  refine ⟨o, ho, rfl, rfl, hadd, hkept, Document.overlongText_decode, ?_⟩
  rw [Session.onText_get, Document.overlongText_refused]
  rfl

end Docbase
