import Docbase.Proofs.Engine.Effect
import Docbase.Proofs.Store.Transaction

/-!
# How commands reach the engine

A store that holds no cursor opens one for its first command, and before that the connection, if it
holds none. What an engine does with a command then does not depend on how the command got there.

* `Session.Reaches`: the state in which a command finds the engine.
* `Session.Leads`: what is known of a session behind a command.
* `Reaches.execute`: a command gets to the engine, and its answer is passed on.
* `Reaches.run_done`, `Reaches.run_failed`, `Reaches.fetchAll`: **a change and a question of one
  command, from what the engine does with the command**.
-/

namespace Docbase

open Sql Store

variable {σ : Type} [Engine σ]

namespace Session

/-- A command of the session finds the engine ready, behind all that has to be opened for it. -/
inductive Reaches (k : ConnectionId) (ready : σ → Prop) (s : Session σ) : Prop
  | ready {c : CursorId} (connection : s.connection = some k) (cursor : s.cursor = some c)
      (engine : ready s.engine)
  | held (connection : s.connection = some k) (cursor : s.cursor = none)
      (engine : ready (Engine.openCursor k s.nextCursor s.engine))
  | within {t : Target} {e : σ} (connection : s.connection = none) (cursor : s.cursor = none)
      (next : s.nextConnection = k) (target : Store.target s.settings = .ok t)
      (connect : Engine.connect k t s.engine = (.ok (), e))
      (engine : ready (Engine.openCursor k s.nextCursor e))

/-- The session has come to hold the connection, and the cursor that its commands go on. -/
structure Leads (k : ConnectionId) (s t : Session σ) : Prop where
  connection : t.connection = some k
  cursor : t.cursor = some s.cursorId
  options : t.options = s.options
  settings : t.settings = s.settings

variable {k : ConnectionId} {ready : σ → Prop} {s t : Session σ}

omit [Engine σ] in
/-- Neither the engine nor the history matters for that. -/
theorem Leads.with (h : s.Leads k t) (e : σ) (trace : List Event) :
    s.Leads k { t with engine := e, history := trace } :=
  ⟨h.connection, h.cursor, h.options, h.settings⟩

omit [Engine σ] in
theorem Leads.cursorId (h : s.Leads k t) : t.cursorId = s.cursorId := by
  unfold Session.cursorId
  rw [h.cursor]
  rfl

theorem Reaches.history (hs : s.Reaches k ready) (trace : List Event) :
    ({ s with history := trace } : Session σ).Reaches k ready := by
  cases hs with
  | ready connection cursor engine => exact .ready connection cursor engine
  | held connection cursor engine => exact .held connection cursor engine
  | within connection cursor next target connect engine =>
    exact .within connection cursor next target connect engine

end Session

namespace Store

variable {k : ConnectionId} {ready : σ → Prop} {s : Session σ}

/-- A connection that is held gets a cursor. -/
theorem cursor_opened (hconnection : s.connection = some k) (hcursor : s.cursor = none) :
    runFrom s (cursor : Action σ CursorId) = (.ok s.nextCursor, { s with
      engine := Engine.openCursor k s.nextCursor s.engine
      history := s.history ++ [.opened s.nextCursor k none]
      nextCursor := s.nextCursor + 1
      cursor := some s.nextCursor }) := by
  rw [cursor, runFrom_bind, runFrom_get]
  simp only [hcursor, runFrom_bind, client_held hconnection, openCursor]
  rfl

/-- One that is not held is opened. -/
theorem client_opened (hconnection : s.connection = none) (hnext : s.nextConnection = k) {t : Target}
    (htarget : target s.settings = .ok t) {e : σ} (hconnect : Engine.connect k t s.engine = (.ok (), e)) :
    ∃ trace, runFrom s (client : Action σ ConnectionId) = (.ok k, { s with
      engine := e
      history := trace
      connection := some k
      nextConnection := k + 1 }) := by
  have hrefuse : refuse (Store.target s.settings) = .ok t := by rw [htarget, refuse]
  refine ⟨s.history ++ [.connected k t] ++ [.logged (Log.Level.ofName s.settings.logLevel)
    ("PostgreSQL connection established (db=" ++ t.database ++ ").")], ?_⟩
  rw [client, runFrom_bind, runFrom_get]
  simp only [hconnection, connect, runFrom_bind, runFrom_get, runFrom_given, hrefuse, hnext,
    runFrom_perform, hconnect, runFrom_note, runFrom_modify, runFrom_pure, announce, runFrom_log]

theorem cursor_reaches (hs : s.Reaches k ready) :
    ∃ t, runFrom s (cursor : Action σ CursorId) = (.ok s.cursorId, t) ∧ s.Leads k t ∧
      ready t.engine := by
  unfold Session.cursorId
  cases hs with
  | @ready c hconnection hcursor hready =>
    refine ⟨s, ?_, ⟨hconnection, ?_, rfl, rfl⟩, hready⟩
    · rw [cursor, runFrom_bind, runFrom_get]
      simp only [hcursor, runFrom_pure, Option.getD_some]
    · unfold Session.cursorId
      rw [hcursor]
      rfl
  | held hconnection hcursor hready =>
    rw [cursor_opened hconnection hcursor, hcursor]
    refine ⟨_, rfl, ⟨hconnection, ?_, rfl, rfl⟩, hready⟩
    unfold Session.cursorId
    rw [hcursor]
    rfl
  | @within target e hconnection hcursor hnext htarget hconnect hready =>
    obtain ⟨trace, hclient⟩ := client_opened hconnection hnext htarget hconnect
    -- behind the connection the cursor is opened as if the connection had been there
    obtain ⟨t, ht⟩ : ∃ t : Session σ, t = { s with
      engine := e
      history := trace
      connection := some k
      nextConnection := k + 1 } := ⟨_, rfl⟩
    rw [← ht] at hclient
    have hheld : t.connection = some k := by rw [ht]
    have hcursorless : t.cursor = none := by rw [ht]; exact hcursor
    have hopened : runFrom s (cursor : Action σ CursorId) = runFrom t cursor := by
      rw [cursor, runFrom_bind, runFrom_get, runFrom_bind, runFrom_get]
      simp only [hcursor, hcursorless, runFrom_bind, hclient, client_held hheld]
    rw [hopened, cursor_opened hheld hcursorless, hcursor, ht]
    refine ⟨_, rfl, ⟨rfl, ?_, rfl, rfl⟩, hready⟩
    unfold Session.cursorId
    rw [hcursor]
    rfl

/-- The document of a row that has one. -/
theorem documentOfRow_inRow {row members : Entries} (h : Document.InRow members row) :
    documentOfRow (.mapping row) = .ok (.mapping members) := by
  obtain ⟨v, hv, hgiven⟩ := h
  rw [documentOfRow, Value.member, hv]
  exact hgiven.decodeColumn

/-- The document of an id is that of the first row that is found. -/
theorem getDoc_fetched {collection id : Value} {command : Command} {rows : List Value}
    {t : Session σ} (hcommand : s.options.byIdCommand docColumn collection id = .ok command)
    (hfetch : runFrom s (fetchAll command) = (.ok rows, t)) :
    runFrom s (getDoc collection id) = match rows with
      | [] => (.ok .null, t)
      | row :: _ => ((documentOfRow row).mapError .misuse, t) := by
  rw [getDoc, ask, runFrom_bind, runFrom_bind, runFrom_get]
  simp only [runFrom_bind, runFrom_given, hcommand, hfetch]
  cases rows with
  | nil => rfl
  | cons row rows => exact runFrom_given _

end Store

namespace Session.Reaches

variable {k : ConnectionId} {ready after : σ → Prop} {s : Session σ} {command : Command} {p : Plan}

/-- A command gets to the engine on an open cursor, and its answer is passed on. -/
theorem execute (hs : s.Reaches k ready) (command : Command) :
    ∃ t, s.Leads k t ∧ ready t.engine ∧
      ∀ x f, Engine.execute s.cursorId command t.engine = (x, f) →
        runFrom s (Store.execute command) = (x.mapError .engine, { t with engine := f }) := by
  obtain ⟨t, hcursor, ht, hready⟩ :=
    cursor_reaches (hs.history (s.history ++ [.logged .debug (logText command)]))
  refine ⟨{ t with history := t.history ++ [.executed s.cursorId command] },
    ⟨ht.connection, ht.cursor, ht.options, ht.settings⟩, hready, fun x f hx => ?_⟩
  have hlog : (logCommand command : Action σ Unit) = log .debug (logText command) := rfl
  have hid : ({ s with history := s.history ++ [.logged .debug (logText command)] } :
    Session σ).cursorId = s.cursorId := rfl
  rw [Store.execute, runFrom_bind, hlog, runFrom_log]
  rw [hid] at hcursor
  simp only [runFrom_bind, hcursor, send, runFrom_note, attempt, runFrom_perform, hx]
  cases x <;> rfl

/-- **A change of one command that the engine carries out is done**, and lasts if the store is
transactional. -/
theorem run_done (hs : s.Reaches k ready) (hp : p.commands = [command])
    (hexecute : ∀ e, ready e → ∃ count f,
      Engine.execute s.cursorId command e = (.ok count, f) ∧ after f)
    {last : σ → Prop} (hcommit : s.options.transactional = true →
      ∀ f, after f → ∃ g, Engine.commit k f = (.ok (), g) ∧ last g) :
    ∃ t, runFrom s (Store.run p) = (.ok (), t) ∧ s.Leads k t ∧
      (s.options.transactional = false → after t.engine) ∧
      (s.options.transactional = true → last t.engine) := by
  obtain ⟨t, ht, hready, hsent⟩ := hs.execute command
  obtain ⟨count, f, hf, hafter⟩ := hexecute t.engine hready
  have hrun : runFrom s (executeAll p.commands) = (.ok count, { t with engine := f }) := by
    rw [hp]
    exact hsent _ _ hf
  cases htransactional : s.options.transactional with
  | false =>
    rw [Store.run, runFrom_bind, transaction_plain htransactional, hrun]
    refine ⟨_, rfl, ht.with f _, fun _ => hafter, fun h => ?_⟩
    cases h
  | true =>
    obtain ⟨g, hg, hlast⟩ := hcommit htransactional f hafter
    have hdone := transaction_ok htransactional hrun ht.connection
    simp only [hg] at hdone
    rw [Store.run, runFrom_bind, hdone]
    refine ⟨_, rfl, ht.with g _, fun h => ?_, fun _ => hlast⟩
    cases h

/-- **One that the engine refuses fails**, and is taken back if the store is transactional. -/
theorem run_failed (hs : s.Reaches k ready) (hp : p.commands = [command]) {P : EngineError → Prop}
    (hexecute : ∀ e, ready e → ∃ x f,
      Engine.execute s.cursorId command e = (.error x, f) ∧ P x ∧ after f) :
    ∃ x t, runFrom s (Store.run p) = (.error (.engine x), t) ∧ s.Leads k t ∧ P x ∧
      ∃ f, after f ∧
        t.engine = if s.options.transactional then Engine.rollback k f else f := by
  obtain ⟨t, ht, hready, hsent⟩ := hs.execute command
  obtain ⟨x, f, hf, hx, hafter⟩ := hexecute t.engine hready
  have hrun : runFrom s (executeAll p.commands) = (.error (.engine x), { t with engine := f }) := by
    rw [hp]
    exact hsent _ _ hf
  cases htransactional : s.options.transactional with
  | false =>
    rw [Store.run, runFrom_bind, transaction_plain htransactional, hrun]
    exact ⟨x, _, rfl, ht.with f _, hx, f, hafter, rfl⟩
  | true =>
    rw [Store.run, runFrom_bind, transaction_error htransactional hrun ht.connection]
    exact ⟨x, _, rfl, ht.with _ _, hx, f, hafter, rfl⟩

/-- **The rows of a command that the engine answers are what it has found.** -/
theorem fetchAll (hs : s.Reaches k ready) {found : List Value → σ → Prop}
    (hexecute : ∀ e, ready e → ∃ count f rows g,
      Engine.execute s.cursorId command e = (.ok count, f) ∧
        Engine.fetchAll s.cursorId f = (.ok rows, g) ∧ found rows g) :
    ∃ rows t, runFrom s (Store.fetchAll command) = (.ok rows, t) ∧ s.Leads k t ∧
      found rows t.engine := by
  obtain ⟨t, ht, hready, hsent⟩ := hs.execute command
  obtain ⟨count, f, rows, g, hf, hg, hfound⟩ := hexecute t.engine hready
  have hcursor : runFrom { t with engine := f } (Store.cursor : Action σ CursorId)
      = (.ok s.cursorId, { t with engine := f }) := by
    rw [Store.cursor, runFrom_bind, runFrom_get]
    simp only [ht.cursor, runFrom_pure]
  refine ⟨rows, { t with engine := g }, ?_, ht.with g _, hfound⟩
  have hcount : (Except.ok count : Except EngineError Int).mapError Error.engine = .ok count := rfl
  rw [Store.fetchAll, runFrom_tryCatch, runFrom_bind, hsent _ _ hf]
  simp only [hcount, runFrom_bind, hcursor, attempt, runFrom_perform, hg]
  rfl

end Session.Reaches

end Docbase
