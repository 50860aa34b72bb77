import Docbase.Proofs.Outcome
import Docbase.Proofs.Store.Allowed

/-!
# Sending commands

What happens when a store that holds a connection sends commands one after the other: every command
goes to the log and then to the engine, on one cursor, which is opened before the first if the store
holds none.

* `answers`: the engine takes commands up to the first that fails.
* `Session.sending`: the events of that; `Session.sent`: the session behind them.
* `executeAll_held`: **commands are sent in their order, all of them or up to the first that
  fails.**
-/

namespace Docbase

open Sql Store

variable {σ : Type}

/-- The command that was sent, if it was one. -/
def Event.command? : Event → Option Command
  | executed _ command => some command
  | _ => none

/-- A command in the log. -/
def logText (command : Command) : String :=
  let params := match command.params with
    | none => Value.null
    | some ps => .object ps
  "SQL: " ++ command.text ++ " params=" ++ params.text

/-- The record of a command, and the command itself. -/
def sentOn (id : CursorId) (command : Command) : List Event :=
  [.logged .debug (logText command), .executed id command]

/-- The engine takes commands one after the other, up to the first that fails, and tells the number
of rows of the last. -/
def answers [Engine σ] (id : CursorId) : List Command → Int → σ → Except EngineError Int × σ
  | [], count, e => (.ok count, e)
  | c :: cs, _, e =>
    match Engine.execute id c e with
    | (.ok count, e) => answers id cs count e
    | (.error x, e) => (.error x, e)

namespace Session

/-- The cursor that the store sends its commands on. -/
def cursorId (s : Session σ) : CursorId := s.cursor.getD s.nextCursor

/-- The opening of that cursor, if the store does not hold it. -/
def opening (connection : ConnectionId) (s : Session σ) : List Event :=
  if s.cursor.isSome then [] else [.opened s.nextCursor connection none]

/-- What happens when commands are sent. -/
def sending (connection : ConnectionId) (s : Session σ) : List Command → List Event
  | [] => []
  | c :: cs => .logged .debug (logText c) ::
    (s.opening connection ++ .executed s.cursorId c :: cs.flatMap (sentOn s.cursorId))

/-- The session behind some commands, with the engine that they leave. -/
def sent (connection : ConnectionId) (s : Session σ) (commands : List Command) (e : σ) :
    Session σ :=
  match commands with
  | [] => s
  | _ :: _ => { s with
      cursor := some s.cursorId
      nextCursor := if s.cursor.isSome then s.nextCursor else s.nextCursor + 1
      engine := e
      history := s.history ++ s.sending connection commands }

/-- The engine when the first of some commands gets there. -/
def ready [Engine σ] (connection : ConnectionId) (s : Session σ) : List Command → σ
  | [] => s.engine
  | _ :: _ =>
    if s.cursor.isSome then s.engine else Engine.openCursor connection s.nextCursor s.engine

end Session

variable {s : Session σ} {connection : ConnectionId}

@[simp] theorem sent_history (cs : List Command) (e : σ) :
    (s.sent connection cs e).history = s.history ++ s.sending connection cs := by
  cases cs with
  | nil => exact (List.append_nil _).symm
  | cons c cs => rfl

@[simp] theorem sent_connection (cs : List Command) (e : σ) :
    (s.sent connection cs e).connection = s.connection := by
  cases cs <;> rfl

@[simp] theorem sent_settings (cs : List Command) (e : σ) :
    (s.sent connection cs e).settings = s.settings := by
  cases cs <;> rfl

/-- Only commands go to the log while commands are sent. -/
theorem logged_mem_sending {cs : List Command} {level : Log.Level} {text : String}
    (h : .logged level text ∈ s.sending connection cs) : ∃ c, text = logText c := by
  have hsent : ∀ ds, .logged level text ∈ List.flatMap (sentOn s.cursorId) ds →
      ∃ c, text = logText c := by
    intro ds hds
    obtain ⟨d, -, hd⟩ := List.mem_flatMap.1 hds
    rcases List.mem_cons.1 hd with he | hd
    · cases he; exact ⟨d, rfl⟩
    · simp at hd
  cases cs with
  | nil => cases h
  | cons c cs =>
    rcases List.mem_cons.1 h with he | h
    · cases he; exact ⟨c, rfl⟩
    rcases List.mem_append.1 h with h | h
    · unfold Session.opening at h
      split at h <;> simp at h
    · rcases List.mem_cons.1 h with he | h
      · cases he
      · exact hsent cs h

/-- The last that happens is that the last command is sent. -/
theorem getLast?_sending (cs : List Command) (c : Command) :
    (s.sending connection (cs ++ [c])).getLast? = some (.executed s.cursorId c) := by
  cases cs with
  | nil => simp [Session.sending, List.getLast?_cons]
  | cons d ds => simp [Session.sending, sentOn, List.getLast?_cons]

section Answers

variable [Engine σ] {id : CursorId} {e : σ}

/-- The number that stands in for the answers counts only if there are none. -/
theorem answers_count {cs : List Command} (h : cs ≠ []) (m n : Int) :
    answers id cs m e = answers id cs n e := by
  cases cs with
  | nil => exact absurd rfl h
  | cons c cs => rfl

theorem answers_ok {cs : List Command} {m k : Int} {f : σ} (h : answers id cs m e = (.ok k, f))
    (n : Int) : ∃ k, answers id cs n e = (.ok k, f) := by
  cases cs with
  | nil => cases h; exact ⟨n, rfl⟩
  | cons c cs => exact ⟨k, h⟩

theorem answers_cons {c : Command} {cs : List Command} {m k : Int} {f : σ}
    (h : Engine.execute id c e = (.ok m, f)) : answers id (c :: cs) k e = answers id cs m f := by
  rw [answers, h]

end Answers

variable [Engine σ]

/-- A session behind a command sends on the same cursor, which it holds now. -/
theorem sent_again (c : Command) (cs : List Command) (e f : σ) :
    let t := s.sent connection [c] e
    t.cursorId = s.cursorId ∧ t.ready connection cs = e ∧
      (cs ≠ [] → t.sent connection cs f = s.sent connection (c :: cs) f) := by
  refine ⟨rfl, ?_, ?_⟩
  · cases cs <;> rfl
  · intro h
    obtain ⟨d, ds, rfl⟩ := List.exists_cons_of_ne_nil h
    simp [Session.sent, Session.sending, Session.opening, Session.cursorId, sentOn]

theorem sent_engine {cs : List Command} {n m : Int} {e : σ}
    (h : answers s.cursorId cs n (s.ready connection cs) = (.ok m, e)) :
    (s.sent connection cs e).engine = e := by
  cases cs with
  | nil => cases h; rfl
  | cons c cs => rfl

theorem client_held (h : s.connection = some connection) :
    runFrom s client = (.ok connection, s) := by
  simp [client, runFrom_bind, h]

/-- One command: it goes to the log, and then to the engine. -/
theorem execute_held (h : s.connection = some connection) (c : Command) :
    runFrom s (execute c) =
      (((Engine.execute s.cursorId c (s.ready connection [c])).1).mapError .engine,
        s.sent connection [c] (Engine.execute s.cursorId c (s.ready connection [c])).2) := by
  have hlog : (logCommand c : Action σ Unit) = log .debug (logText c) := rfl
  have hcursor : runFrom { s with history := s.history ++ [.logged .debug (logText c)] } cursor =
      (.ok s.cursorId, { s with
        cursor := some s.cursorId
        nextCursor := if s.cursor.isSome then s.nextCursor else s.nextCursor + 1
        engine := s.ready connection [c]
        history := s.history ++ (.logged .debug (logText c) :: s.opening connection) }) := by
    cases hc : s.cursor with
    | some id =>
      simp [Store.cursor, runFrom_bind, hc, Session.cursorId, Session.ready, Session.opening]
    | none =>
      simp [Store.cursor, runFrom_bind, hc, Session.cursorId, Session.ready, Session.opening,
        openCursor, client, h, Except.map]
  rw [execute, hlog, runFrom_bind, runFrom_log]
  simp only [runFrom_bind, hcursor, send, runFrom_note, attempt, runFrom_perform]
  cases hx : (Engine.execute s.cursorId c (s.ready connection [c])).1 with
  | ok n =>
    have hout : (Except.ok n : Except EngineError Int).mapError Error.engine = .ok n := rfl
    simp [hout, Session.sent, Session.sending]
  | error x =>
    have hout : (Except.error x : Except EngineError Int).mapError Error.engine =
      .error (.engine x) := rfl
    simp [hout, Session.sent, Session.sending]

/-- **Commands are sent in their order**: all of them, or up to the first that fails, and then its
error is passed on. -/
theorem executeAll_held (h : s.connection = some connection) (cs : List Command) :
    (∃ n e, answers s.cursorId cs 0 (s.ready connection cs) = (.ok n, e) ∧
      runFrom s (executeAll cs) = (.ok n, s.sent connection cs e)) ∨
    (∃ done failed rest n e x f, cs = done ++ failed :: rest ∧
      answers s.cursorId done 0 (s.ready connection cs) = (.ok n, e) ∧
      Engine.execute s.cursorId failed e = (.error x, f) ∧
      runFrom s (executeAll cs) = (.error (.engine x), s.sent connection (done ++ [failed]) f)) := by
  induction cs generalizing s with
  | nil => exact .inl ⟨0, s.engine, rfl, rfl⟩
  | cons c cs ih =>
    have hfirst := execute_held h c
    cases hx : Engine.execute s.cursorId c (s.ready connection [c]) with
    | mk x e =>
    rw [hx] at hfirst
    cases x with
    | error x =>
      refine .inr ⟨[], c, cs, 0, s.ready connection [c], x, e, rfl, rfl, hx, ?_⟩
      cases cs with
      | nil => exact hfirst
      | cons d ds => rw [executeAll, runFrom_bind, hfirst]; rfl; simp
    | ok m =>
      -- the answer to the last command is the one that counts
      by_cases hcs : cs = []
      · subst hcs
        exact .inl ⟨m, e, by rw [answers_cons hx]; rfl, hfirst⟩
      obtain ⟨hid, hready, -⟩ : (s.sent connection [c] e).cursorId = s.cursorId ∧
          (s.sent connection [c] e).ready connection cs = e ∧ _ := sent_again c cs e e
      have hnext : runFrom s (executeAll (c :: cs)) =
          runFrom (s.sent connection [c] e) (executeAll cs) := by
        obtain ⟨d, ds, rfl⟩ := List.exists_cons_of_ne_nil hcs
        rw [executeAll, runFrom_bind, hfirst]
        · rfl
        · simp
      have hall : ∀ ds, answers s.cursorId (c :: ds) 0 (s.ready connection (c :: cs)) =
          answers s.cursorId ds m e := fun ds => answers_cons hx
      rcases ih (s := s.sent connection [c] e) h with
        ⟨n, f, ha, hr⟩ | ⟨done, failed, rest, n, f, x, g, rfl, ha, hf, hr⟩
      · rw [hid, hready] at ha
        refine .inl ⟨n, f, ?_, ?_⟩
        · rw [hall, answers_count hcs m 0, ha]
        · rw [hnext, hr, (sent_again c cs e f).2.2 hcs]
      · rw [hid, hready] at ha
        obtain ⟨k, hk⟩ := answers_ok ha m
        refine .inr ⟨c :: done, failed, rest, k, f, x, g, rfl, ?_, hf, ?_⟩
        · rw [hall, hk]
        · rw [hnext, hr, (sent_again c (done ++ [failed]) e g).2.2 (by simp)]
          rfl

end Docbase
