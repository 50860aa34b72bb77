import Mathlib.Logic.ExistsUnique
import Docbase.Engine.Scripted
import Docbase.Proofs.Store.Run
import Docbase.Proofs.Store.Sending

/-!
# How changes end

A change works its commands out, sends them in a transaction, and reports what was achieved. With a
connection at hand it ends in one of four ways, wherever in a run it comes.

* `Way`, `Way.Ends`: the ways, each with all that happens in it.
* `Change.ends`: **every change ends in exactly one of the ways**.
* `changes_end`: **so does every change of every run**; and a store that is not transactional leaves
  all transactions to others.
-/

namespace Docbase

open Sql Store

variable {σ : Type}

/-- What goes to the log before the changes of a transaction are taken back. -/
def rollbackWarning : String := "Rolling back transaction after error."

/-- What a plan reports is not in the log, whatever the number of rows. -/
def Plan.Unreported (p : Plan) (trace : List Event) : Prop :=
  ∀ level count, .logged level (p.report count) ∉ trace

/-- The ways in which a change can end. -/
inductive Way
  /-- The change cannot be worked out. -/
  | refused
  /-- A command fails, and what those before it did is taken back. -/
  | failed
  /-- All is done, and made to last. -/
  | achieved
  /-- The transaction cannot be committed. -/
  | unsettled
  deriving DecidableEq, Repr

variable [Engine σ]

/-- A change with a plan ends in a way: what it gives, what the engine does, and what happens. A
store that is not transactional neither commits nor takes back. -/
def Way.Ends (connection : ConnectionId) (plan : Except Error Plan) (before after : Session σ)
    (outcome : Except Error Answer) : Way → Prop
  | refused => ∃ x, plan = .error x ∧ outcome = .error x ∧ after = before
  | failed => ∃ p done command rest count e x f trace,
      plan = .ok p ∧ p.commands = done ++ command :: rest ∧
      answers before.cursorId done 0 (before.ready connection p.commands) = (.ok count, e) ∧
      Engine.execute before.cursorId command e = (.error x, f) ∧
      outcome = .error (.engine x) ∧
      after.engine = (if before.options.transactional then Engine.rollback connection f else f) ∧
      after.history = before.history ++ trace ∧
      trace = before.sending connection (done ++ [command]) ++
        (if before.options.transactional then
          [.logged .warning rollbackWarning, .rolledBack connection] else []) ∧
      p.Unreported trace
  | achieved => ∃ p count e f,
      plan = .ok p ∧
      answers before.cursorId p.commands 0 (before.ready connection p.commands) = (.ok count, e) ∧
      (if before.options.transactional then Engine.commit connection e = (.ok (), f) else f = e) ∧
      outcome = .ok .nothing ∧
      after.engine = f ∧
      after.history = before.history ++ (before.sending connection p.commands ++
        ((if before.options.transactional then [.committed connection] else []) ++
          [.logged (Log.Level.ofName before.settings.logLevel) (p.report count)]))
  | unsettled => ∃ p count e x f trace,
      plan = .ok p ∧ before.options.transactional = true ∧
      answers before.cursorId p.commands 0 (before.ready connection p.commands) = (.ok count, e) ∧
      Engine.commit connection e = (.error x, f) ∧
      outcome = .error (.engine x) ∧
      after.engine = f ∧
      after.history = before.history ++ trace ∧
      trace = before.sending connection p.commands ++ [.notCommitted connection x] ∧
      p.Unreported trace

/-! ## Reports -/

/-- No report starts like another record. -/
theorem Change.report_start {m : Change} {o : Options} {p : Plan} (h : m.plan o = .ok p)
    (count : Int) : (p.report count).toList.take 2 ∈
      [['C', 'o'], ['I', 'n'], ['A', 'd'], ['U', 'p'], ['R', 'e'], ['D', 'e']] := by
  cases m with
  | addCollection collection indexes =>
    obtain ⟨_, _, h⟩ := bind_eq_ok.1 h
    obtain ⟨_, _, h⟩ := bind_eq_ok.1 h
    obtain ⟨_, _, h⟩ := bind_eq_ok.1 h
    cases h
    simp
  | dropCollection collection =>
    obtain ⟨_, _, h⟩ := bind_eq_ok.1 h
    cases h
    simp
  | addIndex collection index =>
    obtain ⟨_, _, h⟩ := bind_eq_ok.1 h
    obtain ⟨_, _, h⟩ := bind_eq_ok.1 h
    cases h
    simp
  | dropIndex collection index =>
    obtain ⟨_, _, h⟩ := bind_eq_ok.1 h
    obtain ⟨_, _, h⟩ := bind_eq_ok.1 h
    obtain ⟨_, _, h⟩ := bind_eq_ok.1 h
    obtain ⟨_, _, h⟩ := bind_eq_ok.1 h
    cases h
    simp
  | addDoc | updateDoc | replaceDoc =>
    obtain ⟨_, _, h⟩ := bind_eq_ok.1 h
    obtain ⟨_, _, h⟩ := bind_eq_ok.1 h
    cases h
    simp [documentMessage]
  | updateMany | replaceMany =>
    obtain ⟨_, _, h⟩ := bind_eq_ok.1 h
    obtain ⟨_, _, h⟩ := bind_eq_ok.1 h
    obtain ⟨_, _, h⟩ := bind_eq_ok.1 h
    cases h
    simp [countMessage]
  | deleteDoc =>
    obtain ⟨_, _, h⟩ := bind_eq_ok.1 h
    cases h
    simp [documentMessage]
  | deleteMany =>
    obtain ⟨_, _, h⟩ := bind_eq_ok.1 h
    obtain ⟨_, _, h⟩ := bind_eq_ok.1 h
    cases h
    simp [countMessage]

theorem Change.report_ne {m : Change} {o : Options} {p : Plan} (h : m.plan o = .ok p)
    (count : Int) : (∀ c, p.report count ≠ logText c) ∧ p.report count ≠ rollbackWarning := by
  have hstart := report_start h count
  constructor
  · intro c hc
    rw [hc] at hstart
    simp [logText] at hstart
  · intro hc
    rw [hc] at hstart
    simp [rollbackWarning] at hstart

/-! ## Transactions -/

namespace Store

variable {α : Type} {s t : Session σ} {connection : ConnectionId} {body : Action σ α}

/-- A store that is not transactional only runs the body. -/
theorem transaction_plain (ht : s.options.transactional = false) :
    runFrom s (transaction body) = runFrom s body := by
  rw [transaction, runFrom_bind, runFrom_get]
  simp [ht]

/-- Behind a body that gives a result comes the commit. -/
theorem transaction_ok (ht : s.options.transactional = true) {a : α}
    (hrun : runFrom s body = (.ok a, t)) (hc : t.connection = some connection) :
    runFrom s (transaction body) = match Engine.commit connection t.engine with
      | (.ok (), e) => (.ok a, { t with
          engine := e
          history := t.history ++ [.committed connection] })
      | (.error x, e) => (.error (.engine x), { t with
          engine := e
          history := t.history ++ [.notCommitted connection x] }) := by
  rw [transaction, runFrom_bind, runFrom_get]
  simp only [ht, if_true, runFrom_bind, runFrom_tryCatch, hrun, commit, client_held hc,
    runFrom_perform]
  obtain ⟨x, e⟩ := Engine.commit connection t.engine
  cases x with
  | ok u => simp [runFrom_note]
  | error x => simp [runFrom_bind]

/-- Behind a body that fails the changes are taken back, and the error is passed on. -/
theorem transaction_error (ht : s.options.transactional = true) {x : Error}
    (hrun : runFrom s body = (.error x, t)) (hc : t.connection = some connection) :
    runFrom s (transaction body) = (.error x, { t with
      engine := Engine.rollback connection t.engine
      history := t.history ++
        [.logged .warning rollbackWarning, .rolledBack connection] }) := by
  have hclient : runFrom { t with history := t.history ++ [.logged .warning rollbackWarning] }
      client = (.ok connection, _) := client_held hc
  rw [transaction, runFrom_bind, runFrom_get]
  simp only [ht, if_true, runFrom_bind, runFrom_tryCatch, hrun, rollback]
  rw [← rollbackWarning]
  simp only [runFrom_log, hclient, runFrom_change, runFrom_note, runFrom_throw]
  simp

/-- A plan is run as soon as it is worked out, and without one nothing is done. -/
theorem runFrom_carryOut (s : Session σ) (plan : Options → Except Error Plan) :
    runFrom s (carryOut plan) = match plan s.options with
      | .ok p => runFrom s (run p)
      | .error x => (.error x, s) := by
  rw [carryOut, runFrom_bind, runFrom_get]
  simp only [runFrom_bind, runFrom_given]
  cases plan s.options <;> rfl

end Store

namespace Change

variable {m : Change} {s : Session σ} {connection : ConnectionId}

/-- The name of a collection can be worked out before the transaction as well as in it. -/
theorem act_named (hm : ∃ name, m.collection = .str name) (s : Session σ) :
    runFrom s m.act = runFrom s (carryOut fun o => m.plan o) := by
  cases m with
  | dropCollection collection =>
    obtain ⟨name, rfl⟩ := hm
    rfl
  | _ => rw [act_eq_carryOut (by simp)]

/-- The plan of a change is run. -/
theorem act_plan (hm : ∃ name, m.collection = .str name) {p : Plan}
    (hp : m.plan s.options = .ok p) :
    runFrom s m.act = runFrom s (Store.run p) := by
  rw [act_named hm, runFrom_carryOut, hp]

/-- A change without a plan does nothing. -/
theorem act_refused (hm : ∃ name, m.collection = .str name) {x : Error}
    (hp : m.plan s.options = .error x) : runFrom s m.act = (.error x, s) := by
  rw [act_named hm, runFrom_carryOut, hp]

end Change

omit [Engine σ] in
/-- No report is among the records of commands, nor is it the warning. -/
theorem unreported_sending {m : Change} {o : Options} {p : Plan} (h : m.plan o = .ok p)
    {s : Session σ} {connection : ConnectionId} (cs : List Command) {rest : List Event}
    (hrest : ∀ level text, .logged level text ∈ rest → text = rollbackWarning) :
    p.Unreported (s.sending connection cs ++ rest) := by
  intro level count hmem
  obtain ⟨hlog, hwarning⟩ := Change.report_ne h count
  rcases List.mem_append.1 hmem with hmem | hmem
  · obtain ⟨c, hc⟩ := logged_mem_sending hmem
    exact hlog c hc
  · exact hwarning (hrest level _ hmem)

/-! ## The ways -/

namespace Way

variable {connection : ConnectionId} {plan : Except Error Plan} {before after : Session σ}
  {outcome : Except Error Answer} {w v : Way}

/-- The way that the last event tells. -/
def ofLast : Option Event → Way
  | some (.rolledBack _) | some (.executed ..) => failed
  | some (.notCommitted ..) => unsettled
  | _ => achieved

theorem Ends.refused_iff (h : w.Ends connection plan before after outcome) :
    w = refused ↔ ∃ x, plan = .error x := by
  cases w with
  | refused => obtain ⟨x, hp, -⟩ := h; exact ⟨fun _ => ⟨x, hp⟩, fun _ => rfl⟩
  | failed => obtain ⟨p, _, _, _, _, _, _, _, _, hp, -⟩ := h; simp [hp]
  | achieved => obtain ⟨p, _, _, _, hp, -⟩ := h; simp [hp]
  | unsettled => obtain ⟨p, _, _, _, _, _, hp, -⟩ := h; simp [hp]

theorem Ends.eq_ofLast (h : w.Ends connection plan before after outcome) (hw : w ≠ refused) :
    w = ofLast after.history.getLast? := by
  cases w with
  | refused => exact absurd rfl hw
  | failed =>
    obtain ⟨p, done, command, _, _, _, _, _, trace, -, -, -, -, -, -, hh, rfl, -⟩ := h
    have hlast : (before.sending connection (done ++ [command])).getLast? =
        some (.executed before.cursorId command) := getLast?_sending done command
    rw [hh]
    split
    · simp [ofLast]
    · simp [hlast, ofLast]
  | achieved =>
    obtain ⟨p, _, _, _, -, -, -, -, -, hh⟩ := h
    rw [hh]
    split <;> simp [ofLast]
  | unsettled =>
    obtain ⟨p, _, _, _, _, trace, -, -, -, -, -, -, hh, rfl, -⟩ := h
    rw [hh]
    simp [ofLast]

/-- No change ends in two ways. -/
theorem Ends.unique (hw : w.Ends connection plan before after outcome)
    (hv : v.Ends connection plan before after outcome) : w = v := by
  by_cases h : w = refused
  · rw [h, hv.refused_iff.2 (hw.refused_iff.1 h)]
  · have h' : v ≠ refused := fun hv' => h (hw.refused_iff.2 (hv.refused_iff.1 hv'))
    rw [hw.eq_ofLast h, hv.eq_ofLast h']

end Way

namespace Change

variable {m : Change} {s : Session σ} {connection : ConnectionId} {p : Plan} {count : Int} {e : σ}

/-- If all commands were answered, it is for the commit to fail. -/
theorem ends_of_answered (hp : m.plan s.options = .ok p) (hc : s.connection = some connection)
    (ha : answers s.cursorId p.commands 0 (s.ready connection p.commands) = (.ok count, e))
    (hrun : runFrom s (executeAll p.commands) = (.ok count, s.sent connection p.commands e)) :
    ∃ w : Way, w.Ends connection (.ok p) s
      (runFrom s (do Store.run p; pure Answer.nothing)).2
      (runFrom s (do Store.run p; pure Answer.nothing)).1 := by
  have hheld : (s.sent connection p.commands e).connection = some connection := by simp [hc]
  rw [runFrom_bind, Store.run, runFrom_bind]
  cases ht : s.options.transactional with
  | false =>
    rw [transaction_plain ht, hrun]
    refine ⟨.achieved, p, count, e, e, rfl, ha, by simp [ht], ?_⟩
    simp [announce, runFrom_bind, ht, sent_engine ha]
  | true =>
    rw [transaction_ok ht hrun hheld, sent_engine ha]
    cases hcommit : Engine.commit connection e with
    | mk x f =>
    cases x with
    | ok u =>
      refine ⟨.achieved, p, count, e, f, rfl, ha, by simp [ht, hcommit], ?_⟩
      simp [announce, runFrom_bind, ht]
    | error x =>
      refine ⟨.unsettled, p, count, e, x, f, _, rfl, ht, ha, hcommit, rfl, rfl, ?_, rfl, ?_⟩
      · simp
      · exact unreported_sending hp _ (by simp)

/-- If a command fails, what those before it did is taken back. -/
theorem ends_of_stopped (hp : m.plan s.options = .ok p) (hc : s.connection = some connection)
    {done rest : List Command} {command : Command} {x : EngineError} {f : σ}
    (hcs : p.commands = done ++ command :: rest)
    (ha : answers s.cursorId done 0 (s.ready connection p.commands) = (.ok count, e))
    (hf : Engine.execute s.cursorId command e = (.error x, f))
    (hrun : runFrom s (executeAll p.commands) =
      (.error (.engine x), s.sent connection (done ++ [command]) f)) :
    Way.failed.Ends connection (.ok p) s
      (runFrom s (do Store.run p; pure Answer.nothing)).2
      (runFrom s (do Store.run p; pure Answer.nothing)).1 := by
  have hheld : (s.sent connection (done ++ [command]) f).connection = some connection := by
    simp [hc]
  have hengine : (s.sent connection (done ++ [command]) f).engine = f := by
    cases done <;> rfl
  rw [runFrom_bind, Store.run, runFrom_bind]
  cases ht : s.options.transactional with
  | false =>
    rw [transaction_plain ht, hrun]
    refine ⟨p, done, command, rest, count, e, x, f, _, rfl, hcs, ha, hf, rfl, ?_, ?_, rfl, ?_⟩
    · simp [ht, hengine]
    · simp [ht]
    · exact unreported_sending hp _ (by simp [ht])
  | true =>
    rw [transaction_error ht hrun hheld, hengine]
    refine ⟨p, done, command, rest, count, e, x, f, _, rfl, hcs, ha, hf, rfl, ?_, ?_, rfl, ?_⟩
    · simp [ht]
    · simp [ht]
    · exact unreported_sending hp _ (by simp [ht])

/-- **A change ends in exactly one of the ways**, if the store holds a connection. -/
theorem ends (hm : ∃ name, m.collection = .str name) (hc : s.connection = some connection) :
    ∃! w : Way, w.Ends connection (m.plan s.options) s
      (runFrom s (do m.act; pure Answer.nothing)).2 (runFrom s (do m.act; pure Answer.nothing)).1 := by
  suffices h : ∃ w : Way, w.Ends connection (m.plan s.options) s
      (runFrom s (do m.act; pure Answer.nothing)).2
      (runFrom s (do m.act; pure Answer.nothing)).1 by
    obtain ⟨w, hw⟩ := h
    exact ⟨w, hw, fun v hv => hv.unique hw⟩
  cases hp : m.plan s.options with
  | error x =>
    rw [runFrom_bind, act_refused hm hp]
    exact ⟨.refused, x, rfl, rfl, rfl⟩
  | ok p =>
    have hact : runFrom s (do m.act; pure Answer.nothing) =
        runFrom s (do Store.run p; pure Answer.nothing) := by
      rw [runFrom_bind, runFrom_bind, act_plan hm hp]
    rw [hact]
    rcases executeAll_held hc p.commands with
      ⟨count, e, ha, hrun⟩ | ⟨done, command, rest, count, e, x, f, hcs, ha, hf, hrun⟩
    · exact ends_of_answered hp hc ha hrun
    · exact ⟨.failed, ends_of_stopped hp hc hcs ha hf hrun⟩

end Change

/-! ## Runs -/

/-- The options and the settings stay, and a connection that is held is held on to. -/
structure Steady (s t : Session σ) : Prop where
  options : t.options = s.options
  settings : t.settings = s.settings
  connection : ∀ id, s.connection = some id → t.connection = some id

variable {o : Options}

theorem Steady.allows : Allows o (fun _ => True) (Steady : Session σ → Session σ → Prop) := by
  have hsteps : AllowsSteps o (fun _ => True) (Steady : Session σ → Session σ → Prop) := {
    refl := fun s => ⟨rfl, rfl, fun _ h => h⟩
    trans := fun h k => ⟨k.options.trans h.options, k.settings.trans h.settings,
      fun id hid => k.connection id (h.connection id hid)⟩
    options := fun h => h.options
    note := fun s e _ _ => ⟨rfl, rfl, fun _ h => h⟩
    engine := fun s e => ⟨rfl, rfl, fun _ h => h⟩
    connection := fun s id h => ⟨rfl, rfl, fun c hc => by rw [h] at hc; cases hc⟩
    cursor := fun s id => ⟨rfl, rfl, fun _ h => h⟩
    nextCursor := fun s id => ⟨rfl, rfl, fun _ h => h⟩ }
  exact hsteps.allows fun s e _ => ⟨rfl, rfl, fun _ h => h⟩

/-- A store that is not transactional ends no transaction. -/
theorem Grows.allows_open (ht : o.transactional = false) :
    Allows o (fun _ => True) fun s t : Session σ => Grows (fun e => e.settles = false) s t := by
  have hsteps : AllowsSteps o (fun _ => True) fun s t : Session σ =>
    Grows (fun e => e.settles = false) s t := steps fun _ h _ => h
  refine { hsteps with recover := fun x s ho => ?_, transaction := fun hbody s ho => ?_ }
  · have hrun : runFrom s (recover x) = (.ok (), s) := by
      rw [recover, runFrom_bind, runFrom_get]
      simp [ho, ht]
    rw [hrun]
    exact same rfl rfl
  · rw [transaction_plain (by rw [ho, ht])]
    exact hbody s ho

/-- **Every change of every run ends in exactly one of the ways**, if the store holds a connection
by then; a connection that it holds it keeps until it is closed. If the store is not transactional,
no request commits or takes anything back. -/
theorem changes_end (w : Site σ) (requests : List Request) :
    ∀ entry ∈ w.journal requests,
      (∀ m connection, entry.request = .change m → (∃ name, m.collection = .str name) →
        entry.before.session.connection = some connection →
          ∃! way : Way, way.Ends connection (m.plan w.session.options) entry.before.session
            entry.after.session entry.outcome) ∧
      (∀ connection, w.session.connection = some connection → .close ∉ requests →
        entry.before.session.connection = some connection) ∧
      (w.session.options.transactional = false → ∃ trace,
        entry.after.session.history = entry.before.session.history ++ trace ∧
          ∀ e ∈ trace, e.settles = false) := by
  intro entry hentry
  obtain ⟨past, rest, hrequests, hbefore, hstep⟩ := Site.mem_journal hentry
  have hoptions : entry.before.session.options = w.session.options :=
    hbefore ▸ w.run_options past
  have hafter : entry.after = (entry.before.step entry.request).2 := by rw [hstep]
  have houtcome : entry.outcome = (entry.before.step entry.request).1 := by rw [hstep]
  refine ⟨?_, ?_, ?_⟩
  · intro m connection hm hname hc
    rw [hafter, houtcome, hm, ← hoptions]
    exact Change.ends hname hc
  · intro connection hc hclose
    have hpast : .close ∉ past := fun h => hclose (by simp [hrequests, h])
    have hsteady : Steady w.session (w.run past).session :=
      Site.run_moves Steady.allows rfl (fun _ _ => trivial) (fun _ _ _ _ => trivial)
        fun h => absurd h hpast
    exact hbefore ▸ hsteady.connection _ hc
  · intro ht
    rw [hafter]
    have hopen : Grows (fun e => e.settles = false) entry.before.session
        (entry.before.step entry.request).2.session :=
      Site.step_moves (Grows.allows_open (by rw [hoptions, ht]))
        ⟨rfl, fun _ _ => trivial, fun _ _ => trivial, fun _ => Grows.close fun _ h _ => h⟩
    exact hopen.history

/-- A transactional store on an engine that deletes no documents. -/
def Site.keeping : Site Scripted where
  session := .withConnection ⟨"t_", "TEXT", true, false, 100, "log"⟩ {}
    (Scripted.failOn {} "DELETE" ⟨.programming, "permission denied"⟩)

/-- A collection is dropped, and then no document can be deleted from it. -/
def Request.dropThenDelete : List Request :=
  [.change (.dropCollection (.str "c")), .change (.deleteDoc (.str "c") (.str "1"))]

theorem changes_end_rolled_back :
    Site.keeping.session.connection = some 0 ∧ .close ∉ Request.dropThenDelete ∧
      (∀ entry ∈ Site.keeping.journal Request.dropThenDelete,
        ∀ m, entry.request = .change m → (∃ name, m.collection = .str name) →
          ∃! way : Way, way.Ends 0 (m.plan Site.keeping.session.options) entry.before.session
            entry.after.session entry.outcome) ∧
      (Site.keeping.run Request.dropThenDelete).session.history.filter Event.settles =
        [.committed 0, .rolledBack 0] := by
  have hclose : .close ∉ Request.dropThenDelete := by simp [Request.dropThenDelete]
  refine ⟨rfl, hclose, fun entry he m hm hname => ?_, by rfl⟩
  obtain ⟨hends, hheld, -⟩ := changes_end Site.keeping Request.dropThenDelete entry he
  exact hends m 0 hm hname (hheld 0 rfl hclose)

end Docbase
