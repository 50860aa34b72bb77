import Docbase.Proofs.Store.Frame

/-!
# Steps of a reader

What a request for the next item does, case by case, and what it leaves alone.

* `Advance`: the next row of the cursor becomes an item, or the reader ends and closes its cursor.
* `Reader.open_next`: a reader with a cursor advances, and keeps all other cursors.
* `Reader.pending_next`: **one that has sent nothing yet opens a cursor, sends its command there and
  advances**, unless there is no connection.
* `Reader.open_close`: ending a reader closes its cursor.
-/

namespace Docbase

open Sql Store

variable {σ : Type} [Engine σ] {held : CursorId → σ → List Value} {s t : Session σ} {o : Options}
  {c : CursorId} {connection : ConnectionId} {shape : Shape}

/-- The cursor is the own one of a reader. -/
def OfReader (c : CursorId) (_ : Option CursorId) (d : CursorId) : Prop := d = c

namespace Session

/-- The session with another engine. -/
def withEngine (e : σ) (s : Session σ) : Session σ := { s with engine := e }

/-- The session behind the closing of a cursor. -/
def closed (c : CursorId) (s : Session σ) : Session σ :=
  { s with engine := Engine.closeCursor c s.engine, history := s.history ++ [.cursorClosed c] }

/-- The session behind an error of a reader: changes are taken back if the error has lost the
transaction. -/
def recovered (x : Error) (s : Session σ) : Session σ := (runFrom s (recover x)).2

end Session

theorem on_closed (c : CursorId) (s : Session σ) :
    (s.closed c).on c = s.on c ++ [.cursorClosed c] := by
  have hnote := Session.on_note c s (.cursorClosed c)
  rw [if_pos (show (Event.cursorClosed c).cursor? = some c from rfl)] at hnote
  exact hnote

theorem runFrom_closeCursor : runFrom s (closeCursor c) = (.ok (), s.closed c) := rfl

theorem recover_connected (hconn : s.connection = some connection) (x : Error) :
    runFrom s (recover x) = (.ok (), s.recovered x) := by
  have hok : (runFrom s (recover x)).1 = .ok () := by
    rw [recover, runFrom_bind, runFrom_get]
    split
    · rename_i u hu
      cases hu
      split
      · simp [rollback, runFrom_bind, client, hconn]
      · rfl
    · rename_i hu
      cases hu
  rw [Session.recovered, ← hok]

theorem frame_closed (hheld : Engine.KeepsRows held) (hc : c < s.nextCursor) :
    Frame held (OfReader c) s (s.closed c) := by
  have hengine : Frame held (OfReader c) s (s.withEngine (Engine.closeCursor c s.engine)) :=
    Frame.engine _ fun d hd => hheld.closeCursor hd s.engine
  refine Frame.stepwise.trans hengine (Frame.note (.cursorClosed c) ?_ ?_ rfl)
  · intro d hd
    cases hd
    rfl
  · intro _ d hd
    cases hd
    exact hc

theorem frame_recovered (hheld : Engine.KeepsRows held) {own : Option CursorId → CursorId → Prop}
    (x : Error) : Frame held own s (s.recovered x) :=
  Moves.recover Frame.stepwise (Frame.rollback hheld) x s rfl

/-- A body that fails: the transaction is taken back if it is lost, and the cursor is closed. -/
theorem guarded_error {α : Type} {body : Action σ α} {x : Error}
    (hconn : t.connection = some connection) (h : runFrom s body = (.error x, t)) :
    runFrom s (Reader.guarded c body) = (.error x, (t.recovered x).closed c) := by
  rw [Reader.guarded, runFrom_tryCatch, h]
  simp only [runFrom_bind, runFrom_tryCatch, recover_connected hconn, runFrom_closeCursor,
    runFrom_throw]

theorem guarded_ok {α : Type} {body : Action σ α} {a : α} (h : runFrom s body = (.ok a, t)) :
    runFrom s (Reader.guarded c body) = (.ok a, t) := by
  rw [Reader.guarded, runFrom_tryCatch, h]

/-- What comes of a request for the next item of a reader with a cursor. -/
inductive Advance (held : CursorId → σ → List Value) (c : CursorId) (shape : Shape)
    (s t : Session σ) : Except Error (Option Value) → Reader → Prop
  /-- The first row that is held becomes an item. -/
  | item {row v : Value} : held c s.engine = row :: held c t.engine →
      shape.read s.options.resolver row = .ok v → t.on c = s.on c →
        Advance held c shape s t (.ok (some v)) (.open c shape)
  /-- There is no row, and the cursor is closed. -/
  | finished : held c s.engine = [] → t.on c = s.on c ++ [.cursorClosed c] →
      Advance held c shape s t (.ok none) .done
  /-- The first row cannot be read, and the cursor is closed. -/
  | unreadable {row : Value} {rows : List Value} {x : Error} : held c s.engine = row :: rows →
      shape.read s.options.resolver row = .error x → t.on c = s.on c ++ [.cursorClosed c] →
        Advance held c shape s t (.error x) .done
  /-- The engine gives no row, and the cursor is closed. -/
  | broken {x : EngineError} : (Engine.fetchNext c s.engine).1 = .error x →
      t.on c = s.on c ++ [.cursorClosed c] → Advance held c shape s t (.error (.engine x)) .done

theorem advance_error {x : EngineError} {e : σ} (h : Engine.fetchNext c s.engine = (.error x, e)) :
    runFrom s (Reader.advance c shape) = (.error (.engine x), s.withEngine e) := by
  rw [Reader.advance, runFrom_bind, runFrom_get]
  simp only [runFrom_bind, Store.attempt, runFrom_perform, h]
  rfl

theorem advance_none {e : σ} (h : Engine.fetchNext c s.engine = (.ok none, e)) :
    runFrom s (Reader.advance c shape) = (.ok (none, .done), (s.withEngine e).closed c) := by
  rw [Reader.advance, runFrom_bind, runFrom_get]
  simp only [runFrom_bind, Store.attempt, runFrom_perform, h]
  rfl

theorem advance_some {row : Value} {e : σ} (h : Engine.fetchNext c s.engine = (.ok (some row), e)) :
    runFrom s (Reader.advance c shape) =
      ((shape.read s.options.resolver row).map fun v => (some v, .open c shape), s.withEngine e) := by
  rw [Reader.advance, runFrom_bind, runFrom_get]
  simp only [runFrom_bind, Store.attempt, runFrom_perform, h, runFrom_pure, runFrom_given]
  cases shape.read s.options.resolver row <;> rfl

/-- What a step of a reader comes to: behind an error the reader is at its end. -/
def Reader.settle : Except Error (Option Value × Reader) × Session σ →
    (Except Error (Option Value) × Reader) × Session σ
  | (.ok (item, r), s) => ((.ok item, r), s)
  | (.error x, s) => ((.error x, .done), s)

theorem Reader.next_eq (r : Reader) (s : Session σ) : r.next s = settle (runFrom s r.step) := by
  rw [next, runFrom]
  obtain ⟨x, t⟩ := (r.step.run.run s : Except Error _ × Session σ)
  cases x <;> rfl

/-- The rows of other cursors are kept when the next row of a cursor is asked for. -/
theorem frame_fetchNext (hheld : Engine.KeepsRows held) {x : Except EngineError (Option Value)} {e : σ}
    (h : Engine.fetchNext c s.engine = (x, e)) : Frame held (OfReader c) s (s.withEngine e) := by
  refine Frame.engine e fun d hd => ?_
  have hrows := hheld.fetchNext (c := d) hd s.engine
  rwa [h] at hrows

/-- Behind a failure of a reader its cursor is closed. -/
theorem on_failed (hheld : Engine.KeepsRows held) (x : Error) (hc : c < s.nextCursor) :
    ((s.recovered x).closed c).on c = s.on c ++ [.cursorClosed c] := by
  have hrecovered : Frame held (fun _ _ => False) s (s.recovered x) := frame_recovered hheld x
  rw [on_closed, hrecovered.events c hc not_false]

theorem frame_failed (hheld : Engine.KeepsRows held) (x : Error) (hc : c < s.nextCursor) :
    Frame held (OfReader c) s ((s.recovered x).closed c) := by
  have hrecovered : Frame held (OfReader c) s (s.recovered x) := frame_recovered hheld x
  exact Frame.stepwise.trans hrecovered
    (frame_closed hheld (Nat.lt_of_lt_of_le hc hrecovered.nextCursor))

/-- A reader with a cursor advances, and nothing is done on other cursors. -/
theorem guarded_advance (shape : Shape) (hheld : Engine.KeepsRows held) (hconn : s.connection = some connection)
    (hc : c < s.nextCursor) :
    ∃ x r t, Reader.settle (runFrom s (Reader.guarded c (Reader.advance c shape))) = ((x, r), t) ∧
      Advance held c shape s t x r ∧ Frame held (OfReader c) s t := by
  cases hx : Engine.fetchNext c s.engine with
  | mk x e =>
    have hfetch : Frame held (OfReader c) s (s.withEngine e) := frame_fetchNext hheld hx
    have hconn' : (s.withEngine e).connection = some connection := hconn
    have hc' : c < (s.withEngine e).nextCursor := hc
    cases x with
    | error x =>
      have hadvance : runFrom s (Reader.advance c shape) =
        (.error (.engine x), s.withEngine e) := advance_error hx
      have hrun := guarded_error (c := c) hconn' hadvance
      -- the cursor is closed behind the rollback, if there is one
      refine ⟨.error (.engine x), .done, ((s.withEngine e).recovered (.engine x)).closed c,
        congrArg Reader.settle hrun, ?_, ?_⟩
      · exact .broken (by rw [hx]) (on_failed hheld _ hc')
      · exact Frame.stepwise.trans hfetch (frame_failed hheld _ hc')
    | ok row =>
      cases row with
      | none =>
        have hadvance : runFrom s (Reader.advance c shape) =
          (.ok (none, .done), (s.withEngine e).closed c) := advance_none hx
        have hrun := guarded_ok (c := c) hadvance
        refine ⟨.ok none, .done, (s.withEngine e).closed c, congrArg Reader.settle hrun, ?_, ?_⟩
        · exact .finished (hheld.last hx) (on_closed c (s.withEngine e))
        · exact Frame.stepwise.trans hfetch (frame_closed hheld hc')
      | some row =>
        have hadvance : runFrom s (Reader.advance c shape) =
          ((shape.read s.options.resolver row).map fun v => (some v, .open c shape),
            s.withEngine e) := advance_some hx
        cases hread : shape.read s.options.resolver row with
        | ok v =>
          rw [hread] at hadvance
          have hrun := guarded_ok (c := c) hadvance
          refine ⟨.ok (some v), .open c shape, s.withEngine e, congrArg Reader.settle hrun, ?_,
            hfetch⟩
          exact .item (hheld.next hx) hread rfl
        | error y =>
          -- the row is gone from the cursor, which is closed all the same
          rw [hread] at hadvance
          have hrun := guarded_error (c := c) hconn' hadvance
          refine ⟨.error y, .done, ((s.withEngine e).recovered y).closed c,
            congrArg Reader.settle hrun, ?_, ?_⟩
          · exact .unreadable (hheld.next hx) hread (on_failed hheld y hc')
          · exact Frame.stepwise.trans hfetch (frame_failed hheld y hc')

namespace Reader

/-- **A reader with a cursor advances**, and nothing is done on other cursors. -/
theorem open_next (shape : Shape) (hheld : Engine.KeepsRows held) (hconn : s.connection = some connection)
    (hc : c < s.nextCursor) :
    ∃ x r t, (Reader.open c shape).next s = ((x, r), t) ∧ Advance held c shape s t x r ∧
      Frame held (OfReader c) s t := by
  rw [next_eq]
  exact guarded_advance shape hheld hconn hc

/-- A reader that is ended closes its cursor. -/
theorem open_close (shape : Shape) (hheld : Engine.KeepsRows held) (hc : c < s.nextCursor) :
    runFrom s (Reader.open c shape).close = (.ok .done, s.closed c) ∧
      (s.closed c).on c = s.on c ++ [.cursorClosed c] ∧ Frame held (OfReader c) s (s.closed c) :=
  ⟨rfl, on_closed c s, frame_closed hheld hc⟩

end Reader

/-! ## The first step -/

/-- The connection that a reader sends its command on. -/
def Reader.reach (query : Query) : Action σ ConnectionId := do
  logCommand query.command
  client

/-- The session in which the command of a reader was sent on a cursor of its own, with the engine
behind that. -/
def Session.started (connection : ConnectionId) (command : Command) (e : σ) (s : Session σ) :
    Session σ :=
  { s with
    engine := e
    nextCursor := s.nextCursor + 1
    history := s.history ++ [.opened s.nextCursor connection (some s.options.batch),
      .executed s.nextCursor command] }

/-- The answer of an engine to the command of a reader. -/
def Session.answer (connection : ConnectionId) (command : Command) (s : Session σ) :
    Except EngineError Int × σ :=
  Engine.execute s.nextCursor command (Engine.openCursor connection s.nextCursor s.engine)

variable {query : Query} {u : Session σ}

theorem frame_reach (hheld : Engine.KeepsRows held) {own : Option CursorId → CursorId → Prop} :
    Frame held own s (runFrom s (Reader.reach query)).2 :=
  Moves.bind Frame.stepwise (Frame.log _ _) (fun _ => Frame.client hheld) s rfl

/-- Where a reader looks for the connection of its store, all that can happen is that one is opened. -/
theorem grows_reach : Grows (fun e => e.connects = true) s (runFrom s (Reader.reach query)).2 := by
  have hstepwise : Moves.Stepwise (Grows (σ := σ) fun e => e.connects = true) := Grows.stepwise
  refine Moves.bind hstepwise ?_ (fun _ => ?_) s rfl
  · exact fun s _ => Grows.note (P := fun e => e.connects = true) rfl s
  · exact Moves.client hstepwise (fun _ _ _ => .same rfl rfl) (fun s _ he => .note he s)
      fun _ _ _ => .same rfl rfl

theorem client_connection (h : runFrom s (client : Action σ ConnectionId) = (.ok connection, t)) :
    t.connection = some connection := by
  rw [client, runFrom_bind, runFrom_get] at h
  cases hc : s.connection with
  | some id =>
    simp only [hc] at h
    cases h
    exact hc
  | none =>
    simp only [hc, Store.connect, runFrom_bind, runFrom_get, runFrom_given] at h
    cases htarget : refuse (target s.settings) with
    | error e => rw [htarget] at h; cases h
    | ok target =>
      rw [htarget] at h
      simp only [runFrom_perform] at h
      cases hx : (Engine.connect s.nextConnection target s.engine).1 with
      | error e => rw [hx] at h; cases h
      | ok u => rw [hx] at h; cases h; rfl

theorem reach_connection (h : runFrom s (Reader.reach query) = (.ok connection, u)) :
    u.connection = some connection := by
  rw [Reader.reach, runFrom_bind] at h
  exact client_connection h

/-- Only a store that holds no connection fails to reach one. -/
theorem reach_error {x : Error} (h : runFrom s (Reader.reach query) = (.error x, u)) :
    s.connection = none := by
  rw [Reader.reach, runFrom_bind, client, logCommand] at h
  simp only [runFrom_log, runFrom_bind, runFrom_get] at h
  cases hc : s.connection with
  | none => rfl
  | some id =>
    simp only [hc, runFrom_pure] at h
    cases h

/-- The cursor that is opened for a reader is a new one, and nothing is done on others. -/
theorem keeps_started (hheld : Engine.KeepsRows held) (connection : ConnectionId) (command : Command)
    {x : Except EngineError Int} {f : σ} (h : u.answer connection command = (x, f)) :
    Keeps held (fun _ => False) u (u.started connection command f) where
  options := rfl
  connection _ h := h
  nextCursor := Nat.le_succ _
  cursor _ h := .inl h
  sound := by
    intro hu
    refine ⟨fun c hc => Nat.lt_succ_of_lt (hu.cursor c hc), fun e he c hc => ?_⟩
    rcases List.mem_append.1 he with he | he
    · exact Nat.lt_succ_of_lt (hu.history e he c hc)
    · simp only [List.mem_cons, List.not_mem_nil, or_false] at he
      rcases he with rfl | rfl
      · cases hc; exact Nat.lt_succ_self _
      · cases hc; exact Nat.lt_succ_self _
  events := by
    intro c hc _
    have hne : u.nextCursor ≠ c := (Nat.ne_of_lt hc).symm
    simp [Session.on, Session.started, Event.cursor?, hne]
  rows := by
    intro c hc _
    have hne : c ≠ u.nextCursor := Nat.ne_of_lt hc
    have hrows := hheld.execute hne command (Engine.openCursor connection u.nextCursor u.engine)
    rw [show Engine.execute u.nextCursor command
      (Engine.openCursor connection u.nextCursor u.engine) = (x, f) from h] at hrows
    exact hrows.trans (hheld.openCursor hne connection u.engine)

omit [Engine σ] in
theorem on_started (hu : u.Sound) (connection : ConnectionId) (command : Command) (f : σ) :
    (u.started connection command f).on u.nextCursor =
      [.opened u.nextCursor connection (some u.options.batch), .executed u.nextCursor command] := by
  have hfresh : u.on u.nextCursor = [] := hu.on_fresh (Nat.le_refl _)
  rw [Session.on] at hfresh
  rw [Session.on, Session.started, List.filter_append, hfresh]
  simp [Event.cursor?]

omit [Engine σ] in
theorem named_started (connection : ConnectionId) (command : Command) (f : σ) :
    (u.started connection command f).named = u.named ++ [u.nextCursor] := by
  simp [Session.named, Session.started, Event.named?, List.filterMap_append]

/-- What comes of the first request for an item, given the answer of the engine to the command. -/
inductive FirstAdvance (held : CursorId → σ → List Value) (c : CursorId) (shape : Shape)
    (s t : Session σ) : Except EngineError Int → Except Error (Option Value) → Reader → Prop
  /-- The command fails, and the cursor is closed. -/
  | refused {x : EngineError} : t.on c = s.on c ++ [.cursorClosed c] →
      FirstAdvance held c shape s t (.error x) (.error (.engine x)) .done
  /-- The reader advances. -/
  | answered {n : Int} {x : Except Error (Option Value)} {r : Reader} :
      Advance held c shape s t x r → FirstAdvance held c shape s t (.ok n) x r

/-- What a reader does on its connection: it opens a cursor, sends its command there and advances. -/
def Reader.start (query : Query) (connection : ConnectionId) : Action σ (Option Value × Reader) := do
  let batch := (← get).options.batch
  let cursor ← openCursor connection (some batch)
  guarded cursor do
    let _ ← send cursor query.command
    advance cursor query.shape

/-- A reader opens a cursor and sends its command there. -/
theorem start_eq {answer : Except EngineError Int} {f : σ}
    (h : u.answer connection query.command = (answer, f)) :
    runFrom u (Reader.start query connection) =
      runFrom (u.started connection query.command f) (Reader.guarded u.nextCursor do
        let _ ← Store.given (answer.mapError .engine)
        Reader.advance u.nextCursor query.shape) := by
  have hopened : ∀ a : Except EngineError Int × σ, u.answer connection query.command = a →
      Engine.execute u.nextCursor query.command
        (Engine.openCursor connection u.nextCursor u.engine) = a := fun _ h => h
  simp only [Reader.start, Reader.guarded, openCursor, send, Store.attempt, runFrom_bind, runFrom_get,
    runFrom_change, runFrom_note, runFrom_modify, runFrom_pure, runFrom_perform, runFrom_tryCatch,
    hopened _ h, runFrom_given, Session.started, List.append_assoc, List.cons_append, List.nil_append]
  cases answer <;> rfl

/-- **A reader that has sent nothing yet opens a cursor, sends its command there and advances**, unless
there is no connection. -/
theorem Reader.pending_next (query : Query) (hheld : Engine.KeepsRows held) :
    (∃ x u, runFrom s (reach query) = (.error x, u) ∧
      (Reader.pending query).next s = ((.error x, .done), u)) ∨
    ∃ connection u answer f x r t, runFrom s (reach query) = (.ok connection, u) ∧
      u.answer connection query.command = (answer, f) ∧
      (Reader.pending query).next s = ((x, r), t) ∧
      FirstAdvance held u.nextCursor query.shape (u.started connection query.command f) t answer x r ∧
      Frame held (OfReader u.nextCursor) (u.started connection query.command f) t := by
  have hstep : (Reader.pending query).step =
      ((reach query : Action σ ConnectionId) >>= start query) := by
    rw [reach, bind_assoc]
    rfl
  rw [next_eq, hstep, runFrom_bind]
  cases hreach : runFrom s (reach query : Action σ ConnectionId) with
  | mk x u =>
    cases x with
    | error x => exact .inl ⟨x, u, rfl, rfl⟩
    | ok connection =>
      refine .inr ?_
      cases hanswer : u.answer connection query.command with
      | mk answer f =>
        have hu : u.connection = some connection := reach_connection hreach
        have hconn : (u.started connection query.command f).connection = some connection := hu
        have hc : u.nextCursor < (u.started connection query.command f).nextCursor :=
          Nat.lt_succ_self _
        simp only [start_eq hanswer]
        cases answer with
        | error x =>
          refine ⟨connection, u, .error x, f, _, _, _, rfl, hanswer,
            congrArg settle (guarded_error hconn rfl), ?_, ?_⟩
          · exact .refused (on_failed hheld _ hc)
          · exact frame_failed hheld _ hc
        | ok n =>
          obtain ⟨x, r, t, hrun, hadvance, hframe⟩ :=
            guarded_advance query.shape hheld hconn hc
          exact ⟨connection, u, .ok n, f, x, r, t, rfl, hanswer, hrun, .answered hadvance, hframe⟩

end Docbase
