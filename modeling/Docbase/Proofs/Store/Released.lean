import Docbase.Proofs.Store.Holding

/-!
# Holding on and giving up

What a store holds over a whole run: its calls, the steps of its readers, which may go on behind its
end, and its end itself.

* `Reader.next_kept`: a step of a reader keeps what the store holds, and the cursor of the reader is
  another one.
* `runFrom_close`: what the end of a store does, whatever it holds.
* `Site.step_kept`, `Site.run_kept`: what is held is kept over every step, and over every run.
* `holdings_kept`: **what a store holds, how it comes to hold it, and how it gives it up**.
-/

namespace Docbase

open Sql Store

/-- The reader reads from the cursor. -/
def Reader.Reads (r : Reader) (c : CursorId) : Prop := ∃ shape, r = .open c shape

variable {σ α : Type} [Engine σ] {start : Holding} {others : CursorId → Prop} {s t u : Session σ}
  {o : Options} {k : ConnectionId} {c : CursorId}

/-! ## Readers -/

omit [Engine σ] in
/-- A cursor that the store does not hold is nothing to what it holds. -/
theorem Session.Spares.behind (hc : s.Spares c) :
    s.holding.behind (.cursorClosed c) = some s.holding := by
  unfold holding
  split
  · rfl
  · rfl
  · next hcursor =>
    refine if_neg fun hsame => hc.2 ?_
    rw [hcursor, hsame]

namespace Upholds

theorem closeCursor (hc : others c) :
    Moves o (Upholds start others) (Store.closeCursor c : Action σ Unit) :=
  (change _).bind stepwise fun _ _ _ =>
    note (fun hs => (hs.others c hc).behind) (fun hs => hs.others c hc) trivial

theorem guarded (hc : others c) {body : Action σ α} (h : Moves o (Upholds start others) body) :
    Moves o (Upholds start others) (Reader.guarded c body) := by
  have hclose : ∀ x : Error, Moves o (Upholds start others)
      (do Store.closeCursor c; throw x : Action σ Unit) :=
    fun x => (closeCursor hc).bind stepwise fun _ => .throw stepwise x
  refine Moves.tryCatch stepwise h fun x => ?_
  refine Moves.bind stepwise (Moves.tryCatch stepwise (recover x) hclose) fun _ => ?_
  exact (closeCursor hc).bind stepwise fun _ => .throw stepwise x

theorem advance (hc : others c) (shape : Shape) :
    Moves o (Upholds start others) (Reader.advance c shape : Action σ (Option Value × Reader)) := by
  refine (Moves.get stepwise).bind stepwise fun s => (attempt _).bind stepwise fun row => ?_
  cases row with
  | none => exact (closeCursor hc).bind stepwise fun _ => .pure stepwise _
  | some row => exact (Moves.given stepwise _).bind stepwise fun _ => .pure stepwise _

end Upholds

omit [Engine σ] in
/-- A reader opens a cursor of its own, and sends its command there. -/
theorem Session.Kept.started (h : u.Kept start others) (k : ConnectionId) (command : Command) (f : σ)
    (shape : Shape) : (u.started k command f).Kept start (Reader.open u.nextCursor shape).Reads := by
  have hspares : ∀ c, u.Spares c → (u.started k command f).Spares c :=
    fun c hc => ⟨Nat.lt_succ_of_lt hc.1, hc.2⟩
  have hcursor : ∀ c, u.cursor = some c → c < u.nextCursor + 1 :=
    fun c hc => Nat.lt_succ_of_lt (h.cursor c hc)
  have hopened : ({ u with
      engine := f
      nextCursor := u.nextCursor + 1
      history := u.history ++ [.opened u.nextCursor k (some u.options.batch)] } :
      Session σ).Kept start others :=
    h.snoc rfl (u.holding.behind_named ..) (Nat.lt_succ_self _) (Nat.le_succ _) hspares
      (fun _ h => h) h.attached h.connection hcursor
  have hhistory : (u.started k command f).history = u.history ++
      [.opened u.nextCursor k (some u.options.batch)] ++ [.executed u.nextCursor command] := by
    rw [List.append_assoc]
    rfl
  have hsent : (u.started k command f).Kept start others :=
    hopened.snoc hhistory (u.holding.behind_executed ..) (Nat.lt_succ_self _) (Nat.le_refl _)
      (fun _ h => h) (fun _ h => h) h.attached h.connection hcursor
  -- the cursor is a new one, which the store cannot hold
  refine hsent.of_others ?_
  rintro c ⟨_, ⟨⟩⟩
  exact ⟨Nat.lt_succ_self _, fun hc => Nat.lt_irrefl _ (h.cursor _ hc)⟩

omit [Engine σ] in
theorem HoldsOn.started (u : Session σ) (k : ConnectionId) (command : Command) (f : σ) :
    HoldsOn (fun _ => True) u (u.started k command f) where
  options := rfl
  connection _ h := h
  cursor _ h := h
  spares c hc := ⟨Nat.lt_succ_of_lt hc.1, hc.2⟩
  history := ⟨_, rfl, fun e he => by
    rcases List.mem_cons.1 he with rfl | he
    · trivial
    · rw [List.mem_singleton.1 he]
      exact .inr trivial⟩

namespace Reader

theorem not_reads_done : ¬ Reader.done.Reads c := fun ⟨_, h⟩ => by cases h

theorem not_reads_pending {query : Query} : ¬ (Reader.pending query).Reads c :=
  fun ⟨_, h⟩ => by cases h

/-- A reader goes on reading from its cursor. -/
theorem advance_reads (c : CursorId) (shape : Shape) :
    Gives (fun p => ∀ d, p.2.Reads d → (Reader.open c shape).Reads d)
      (advance c shape : Action σ (Option Value × Reader)) := by
  refine Gives.bind fun s => Gives.bind fun row => ?_
  cases row with
  | none => exact Gives.bind fun _ => Gives.pure fun d hd => absurd hd not_reads_done
  | some row => exact Gives.bind fun _ => Gives.pure fun d hd => hd

theorem guarded_reads (c : CursorId) {P : Option Value × Reader → Prop}
    {body : Action σ (Option Value × Reader)} (h : Gives P body) : Gives P (guarded c body) :=
  Gives.tryCatch h fun _ => Gives.bind fun _ => Gives.bind fun _ => Gives.throw _

omit [Engine σ] in
/-- A reader that is done has no cursor to spare. -/
theorem kept_done (h : s.Kept start others) : s.Kept start Reader.done.Reads :=
  h.of_others fun _ hc => absurd hc not_reads_done

variable {a : Action σ (Option Value × Reader)} {x : Except Error (Option Value)} {r r' : Reader}

omit [Engine σ] in
theorem settle_kept (ha : Upholds start others s (runFrom s a).2) (hs : s.Kept start others)
    (hreads : Gives (fun p => ∀ d, p.2.Reads d → others d) a)
    (hrun : settle (runFrom s a) = ((x, r), t)) :
    HoldsOn (fun _ => True) s t ∧ t.Kept start r.Reads := by
  have hgives := hreads s
  cases hx : runFrom s a with
  | mk y v =>
    rw [hx] at ha hrun hgives
    have hv := ha.kept hs
    have hholds : HoldsOn (fun _ => True) s v := ha.toHoldsOn.mono fun _ _ => trivial
    cases y with
    | error y =>
      cases hrun
      exact ⟨hholds, kept_done hv⟩
    | ok p =>
      cases hrun
      exact ⟨hholds, hv.of_others fun c hc => hv.others c (hgives p rfl c hc)⟩

/-- The first step on a connection takes a cursor that the store does not hold. -/
theorem start_kept {query : Query} (hu : u.Kept start others)
    (hrun : settle (runFrom u (Reader.start query k)) = ((x, r), t)) :
    HoldsOn (fun _ => True) u t ∧ t.Kept start r.Reads := by
  obtain ⟨⟨answer, f⟩, hanswer⟩ : ∃ a, u.answer k query.command = a := ⟨_, rfl⟩
  rw [start_eq hanswer] at hrun
  have hown : (Reader.open u.nextCursor query.shape).Reads u.nextCursor := ⟨_, rfl⟩
  have hbody : Moves u.options (Upholds start (Reader.open u.nextCursor query.shape).Reads) (do
      let _ ← Store.given (answer.mapError .engine)
      Reader.advance u.nextCursor query.shape : Action σ (Option Value × Reader)) := by
    refine Moves.bind Upholds.stepwise (Moves.given Upholds.stepwise _) fun _ => ?_
    exact Upholds.advance hown query.shape
  obtain ⟨hholds, ht⟩ := settle_kept
    (Upholds.guarded hown hbody (u.started k query.command f) rfl)
    (hu.started k query.command f query.shape)
    (guarded_reads _ (Gives.bind fun _ => advance_reads _ query.shape)) hrun
  exact ⟨(HoldsOn.started u k query.command f).trans hholds, ht⟩

/-- **A step of a reader keeps what the store holds**, and the reader has a cursor of its own. -/
theorem next_kept (hs : s.Kept start r.Reads) (hrun : r.next s = ((x, r'), t)) :
    HoldsOn (fun _ => True) s t ∧ t.Kept start r'.Reads := by
  rw [next_eq] at hrun
  cases r with
  | done => exact settle_kept (Upholds.stepwise.refl s) hs (Gives.pure fun d hd => hd) hrun
  | «open» c shape =>
    have hc : (Reader.open c shape).Reads c := ⟨shape, rfl⟩
    exact settle_kept (Upholds.guarded hc (Upholds.advance hc shape) s rfl) hs
      (guarded_reads c (advance_reads c shape)) hrun
  | pending query =>
    have hstep : (Reader.pending query).step =
        ((reach query : Action σ ConnectionId) >>= Reader.start query) := by
      rw [reach, bind_assoc]
      rfl
    rw [hstep, runFrom_bind] at hrun
    -- up to its own cursor the reader does what a call of the store does
    have hreach : Upholds start (Reads (.pending query)) s (runFrom s (reach query)).2 :=
      (Upholds.log _ _).bind Upholds.stepwise (fun _ => Upholds.client) s rfl
    have hweak : HoldsOn (fun _ => True) s (runFrom s (reach query)).2 :=
      hreach.toHoldsOn.mono fun _ _ => trivial
    cases hu : runFrom s (reach query : Action σ ConnectionId) with
    | mk y u =>
      rw [hu] at hreach hweak hrun
      have hkept := hreach.kept hs
      cases y with
      | error y =>
        cases hrun
        exact ⟨hweak, kept_done hkept⟩
      | ok k =>
        obtain ⟨hholds, ht⟩ := start_kept hkept hrun
        exact ⟨hweak.trans hholds, ht⟩

/-- A reader that is ended gives up its own cursor and nothing else. -/
theorem close_kept (hs : s.Kept start r.Reads) :
    ∃ t, runFrom s r.close = (.ok .done, t) ∧ HoldsOn r.Reads s t ∧
      t.Kept start Reader.done.Reads := by
  cases r with
  | pending | done => exact ⟨s, rfl, .refl s, kept_done hs⟩
  | «open» c shape =>
    have hclose : Upholds start (Reader.open c shape).Reads s (s.closed c) :=
      Upholds.closeCursor ⟨shape, rfl⟩ s rfl
    exact ⟨_, rfl, hclose.toHoldsOn, kept_done (hclose.kept hs)⟩

end Reader

/-! ## The end of a store -/

namespace Session

/-- The session behind the end of the store: its cursor is closed, and then its connection. -/
def released (s : Session σ) : Session σ :=
  { s with
    engine := s.connection.elim id Engine.disconnect (s.cursor.elim id Engine.closeCursor s.engine)
    connection := none
    cursor := none
    history := s.history ++
      (s.cursor.toList.map Event.cursorClosed ++ s.connection.toList.map Event.disconnected) }

theorem released_nothing (hconn : s.connection = none) (hcursor : s.cursor = none) :
    s.released = s := by
  cases s
  subst hconn hcursor
  simp [released]

/-- Giving up a second time does nothing. -/
theorem released_released (s : Session σ) : s.released.released = s.released :=
  released_nothing rfl rfl

end Session

/-- **The end of a store closes its cursor and its connection**, each of them once. -/
theorem runFrom_close (s : Session σ) :
    runFrom s (Store.close : Action σ Unit) = (.ok (), s.released) := by
  cases hcursor : s.cursor with
  | none =>
    cases hconn : s.connection with
    | none => simp [close, runFrom_bind, hcursor, hconn, Session.released_nothing]
    | some k => simp [close, runFrom_bind, hcursor, hconn, Session.released]
  | some c =>
    cases hconn : s.connection with
    | none => simp [close, runFrom_bind, Store.closeCursor, hcursor, hconn, Session.released]
    | some k => simp [close, runFrom_bind, Store.closeCursor, hcursor, hconn, Session.released]

namespace Session.Kept

omit [Engine σ] in
theorem closeCursor (h : s.Kept start others) (hconn : s.connection = some k)
    (hcursor : s.cursor = some c) (e : σ) :
    ({ s with
      engine := e
      cursor := none
      history := s.history ++ [.cursorClosed c] } : Session σ).Kept start others := by
  refine h.snoc rfl ?_ ⟨h.cursor c hcursor, nofun⟩ (Nat.le_refl _) (fun d hd => ⟨hd.1, nofun⟩)
    (fun _ h => h) (fun _ => rfl) h.connection nofun
  rw [holding_cursor hconn hcursor, holding, hconn]
  exact if_pos rfl

omit [Engine σ] in
theorem disconnect (h : s.Kept start others) (hconn : s.connection = some k) (hcursor : s.cursor = none)
    (e : σ) :
    ({ s with
      engine := e
      connection := none
      history := s.history ++ [.disconnected k] } : Session σ).Kept start others := by
  refine h.snoc rfl ?_ ⟨h.connection k hconn, nofun⟩ (Nat.le_refl _) (fun _ h => h)
    (fun l hl => ⟨hl.1, nofun⟩) (fun _ => hcursor) nofun h.cursor
  rw [holding_connection hconn hcursor, holding]
  exact if_pos rfl

/-- What was given up is not held any more. -/
theorem released (h : s.Kept start others) : s.released.Kept start others := by
  cases hconn : s.connection with
  | none => rwa [released_nothing hconn (h.attached hconn)]
  | some k =>
    cases hcursor : s.cursor with
    | none =>
      have hend := h.disconnect hconn hcursor (Engine.disconnect k s.engine)
      rw [hcursor] at hend
      rw [Session.released, hconn, hcursor]
      exact hend
    | some c =>
      have hend := (h.closeCursor hconn hcursor (Engine.closeCursor c s.engine)).disconnect hconn rfl
        (Engine.disconnect k (Engine.closeCursor c s.engine))
      rw [List.append_assoc] at hend
      rwa [Session.released, hconn, hcursor]

end Session.Kept

/-! ## Runs -/

namespace Site

variable {w : Site σ} {r : Request} {requests : List Request}

/-- What the store holds is kept, and no reader reads from it. -/
def Kept (start : Holding) (w : Site σ) : Prop :=
  w.session.Kept start fun c => ∃ r ∈ w.readers, r.Reads c

omit [Engine σ] in
/-- Of a reader that has taken a step, and of those that have not, none reads from what is held. -/
theorem Kept.set {i : Nat} {reader : Reader} (hw : w.Kept start) (hholds : HoldsOn others w.session t)
    (ht : t.Kept start reader.Reads) : (⟨t, w.readers.set i reader⟩ : Site σ).Kept start := by
  refine ht.of_others ?_
  rintro c ⟨other, hother, hreads⟩
  rcases List.mem_or_eq_of_mem_set hother with hother | rfl
  · exact hholds.spares c (hw.others c ⟨other, hother, hreads⟩)
  · exact ht.others c hreads

theorem step_released (w : Site σ) :
    w.step .close = (.ok .nothing, { w with session := w.session.released }) := by
  have hrun : runFrom w.session (do Store.close; pure .nothing : Action σ Answer)
      = (.ok .nothing, w.session.released) := by
    rw [runFrom_bind, runFrom_close]
    rfl
  simp only [step, act, hrun]

/-- **Every step but the last one holds on to what is held, and keeps it.** -/
theorem step_kept (hw : w.Kept start) (hr : r ≠ .close) :
    HoldsOn (fun _ => r.isCall = false) w.session (w.step r).2.session ∧
      (w.step r).2.Kept start := by
  -- a call of the store leaves the readers alone, and spares their cursors
  have hcall : r.isCall = true → (w.step r).2.readers = w.readers →
      HoldsOn (fun _ => r.isCall = false) w.session (w.step r).2.session ∧
        (w.step r).2.Kept start := by
    intro hr hreaders
    have hupholds : Upholds start (fun _ => False) w.session (w.step r).2.session :=
      step_call (o := w.session.options) Upholds.carries rfl (fun _ _ => trivial) hr
    refine ⟨hupholds.toHoldsOn.mono nofun, ?_⟩
    have hkept := hupholds.kept (hw.of_others nofun)
    refine hkept.of_others fun c hc => hupholds.spares c (hw.others c ?_)
    rwa [hreaders] at hc
  have hstill : HoldsOn (fun _ => r.isCall = false) w.session w.session := .refl _
  cases r with
  | change | upsertDoc | question | client | cursor => exact hcall rfl rfl
  | close => exact absurd rfl hr
  | opening q =>
    simp only [step, runFrom_opening]
    cases q.query w.session.options with
    | error x => exact ⟨hstill, hw⟩
    | ok query =>
      refine ⟨hstill, hw.of_others ?_⟩
      rintro c ⟨reader, hreader, hreads⟩
      rcases List.mem_append.1 hreader with hreader | hreader
      · exact hw.others c ⟨reader, hreader, hreads⟩
      · cases List.mem_singleton.1 hreader
        exact absurd hreads Reader.not_reads_pending
  | next i =>
    cases hi : w.readers[i]? with
    | none =>
      simp only [step, hi]
      exact ⟨hstill, hw⟩
    | some reader =>
      obtain ⟨⟨⟨x, reader'⟩, t⟩, hnext⟩ : ∃ a, reader.next w.session = a := ⟨_, rfl⟩
      have hreader : w.session.Kept start reader.Reads :=
        hw.of_others fun c hc => hw.others c ⟨reader, List.mem_of_getElem? hi, hc⟩
      obtain ⟨hholds, ht⟩ := Reader.next_kept hreader hnext
      rw [step_next hi hnext]
      exact ⟨hholds.mono fun _ _ => rfl, hw.set hholds ht⟩
  | finish i =>
    cases hi : w.readers[i]? with
    | none =>
      simp only [step, hi]
      exact ⟨hstill, hw⟩
    | some reader =>
      have hreader : w.session.Kept start reader.Reads :=
        hw.of_others fun c hc => hw.others c ⟨reader, List.mem_of_getElem? hi, hc⟩
      obtain ⟨t, hclose, hholds, ht⟩ := Reader.close_kept hreader
      rw [step_finish hi hclose]
      exact ⟨hholds.mono fun _ _ => rfl, hw.set hholds ht⟩

theorem run_kept (hw : w.Kept start) (requests : List Request) : (w.run requests).Kept start := by
  induction requests generalizing w with
  | nil => exact hw
  | cons r rs ih =>
    refine ih ?_
    by_cases hr : r = .close
    · rw [hr, step_released]
      exact hw.released
    · exact (step_kept hw hr).2

/-- Up to the end of the store, what is held is held on to. -/
theorem run_holdsOn (hw : w.Kept start) (hclose : .close ∉ requests) :
    HoldsOn (fun _ => True) w.session (w.run requests).session := by
  induction requests generalizing w with
  | nil => exact .refl _
  | cons r rs ih =>
    have hr : r ≠ .close := fun h => hclose (h ▸ List.mem_cons_self)
    obtain ⟨hholds, hkept⟩ := step_kept hw hr
    exact (hholds.mono fun _ _ => trivial).trans
      (ih hkept fun h => hclose (List.mem_cons_of_mem _ h))

end Site

namespace Session

/-- Nothing has happened in the session, which may hold a connection that it was given. -/
structure Unused (s : Session σ) : Prop where
  history : s.history = []
  cursor : s.cursor = none
  connection : ∀ k, s.connection = some k → k < s.nextConnection

omit [Engine σ] in
theorem unused_withoutConnection (o : Options) (settings : Settings) (e : σ) :
    (withoutConnection o settings e).Unused :=
  ⟨rfl, rfl, fun k hk => by cases hk⟩

omit [Engine σ] in
theorem Unused.kept (h : s.Unused) : (⟨s, []⟩ : Site σ).Kept s.holding where
  replayed := by rw [h.history]; rfl
  past := by rw [h.history]; nofun
  attached _ := h.cursor
  connection := h.connection
  cursor c hc := by rw [h.cursor] at hc; cases hc
  others := by
    rintro c ⟨r, hr, -⟩
    cases hr

omit [Engine σ] in
theorem Unused.holding_ne (h : s.Unused) (k : ConnectionId) (c : CursorId) :
    s.holding ≠ .cursor k c := by
  unfold holding
  rw [h.cursor]
  cases s.connection <;> nofun

/-- A connection that cannot be opened changes nothing. Without a database none is asked for; that the
engine could not be reached is told with its place, and any other error as it is. -/
structure FailsAlone (t : Session σ) : Prop where
  nowhere : t.settings.database.isEmpty = true →
    runFrom t (Store.client : Action σ ConnectionId) = (.error (.refused .databaseNotSet), t)
  unreached : ∀ {place y f}, target t.settings = .ok place →
    Engine.connect t.nextConnection place t.engine = (.error y, f) → y.kind = .operational →
      runFrom t (Store.client : Action σ ConnectionId) = (.error (.refused (.connectFailed
        place.database place.host place.port place.user y.text)), t.notJoined place y f)
  failed : ∀ {place y f}, target t.settings = .ok place →
    Engine.connect t.nextConnection place t.engine = (.error y, f) → y.kind ≠ .operational →
      runFrom t (Store.client : Action σ ConnectionId)
        = (.error (.engine y), t.notJoined place y f)

theorem failsAlone (hconn : t.connection = none) : t.FailsAlone := by
  have hfails : ∀ {place y f}, target t.settings = .ok place →
      Engine.connect t.nextConnection place t.engine = (.error y, f) →
        runFrom t (Store.client : Action σ ConnectionId)
          = (.error (connectError place y), t.notJoined place y f) := by
    intro place y f hplace hy
    rw [runFrom_client hconn, hplace]
    simp only [hy]
  refine ⟨fun hempty => ?_, fun hplace hy hkind => ?_, fun hplace hy hkind => ?_⟩
  · rw [runFrom_client hconn, target, if_pos hempty]
  · rw [hfails hplace hy, connectError, if_pos hkind]
  · rw [hfails hplace hy, connectError, if_neg hkind]

end Session

namespace Site.Entry

/-- What becomes in a step of what a store holds. -/
structure Orderly (start : Holding) (e : Entry σ) : Prop where
  /-- What is held is what the history tells. -/
  replayed : start.replay e.after.session.history = some e.after.session.holding
  /-- A connection is asked for only where nothing is held. -/
  attempts : ∀ {past event rest}, e.after.session.history = past ++ event :: rest →
    event.attempts = true → start.replay past = some .nothing
  /-- Nor is anything held behind an attempt that failed. -/
  failed : ∀ {past place y rest}, e.after.session.history = past ++ .notConnected place y :: rest →
    start.replay (past ++ [.notConnected place y]) = some .nothing
  /-- A cursor that is held is one of the connection that is held, and neither was closed. -/
  cursor : ∀ {c}, e.after.session.cursor = some c → ∃ k, e.after.session.connection = some k ∧
    .opened c k none ∈ e.after.session.history ∧
    .cursorClosed c ∉ e.after.session.history ∧ .disconnected k ∉ e.after.session.history
  /-- All that is held is given up at the end, and nothing before. -/
  close : e.request = .close →
    e.outcome = .ok .nothing ∧ e.after.session = e.before.session.released
  holds : e.request ≠ .close →
    HoldsOn (fun _ => e.request.isCall = false) e.before.session e.after.session

/-- A step is about one connection, and calls of the store about one cursor of it. -/
structure On (k : ConnectionId) (c : CursorId) (e : Entry σ) : Prop where
  connection : ∀ {l}, e.before.session.connection = some l ∨ e.after.session.connection = some l ∨
    (∃ place, .connected l place ∈ e.happened) → l = k
  cursor : e.request.isCall = true → ∀ {d command}, .executed d command ∈ e.happened →
    d = c ∧ .opened c k none ∈ e.after.session.history

variable {e : Entry σ}

theorem orderly (hstart : ∀ k c, start ≠ .cursor k c) (hbefore : e.before.Kept start)
    (hstep : e.before.step e.request = (e.outcome, e.after)) : e.Orderly start := by
  have hafter : e.after.Kept start ∧ (e.request ≠ .close →
      HoldsOn (fun _ => e.request.isCall = false) e.before.session e.after.session) := by
    by_cases hr : e.request = .close
    · rw [hr, step_released] at hstep
      obtain ⟨-, hafter⟩ := Prod.mk.inj hstep
      exact ⟨hafter ▸ hbefore.released, fun h => absurd hr h⟩
    · obtain ⟨hholds, hkept⟩ := step_kept hbefore hr
      rw [hstep] at hholds hkept
      exact ⟨hkept, fun _ => hholds⟩
  obtain ⟨hkept, hholds⟩ := hafter
  have hattempts : ∀ {past event rest}, e.after.session.history = past ++ event :: rest →
      event.attempts = true → start.replay past = some .nothing := by
    intro past event rest hhistory hevent
    have hreplayed := hkept.replayed
    rw [hhistory] at hreplayed
    exact Holding.replay_of_attempts hreplayed hevent
  refine ⟨hkept.replayed, hattempts, fun hhistory => ?_, fun {c} hc => ?_, fun hr => ?_, hholds⟩
  · rw [Holding.replay_snoc, hattempts hhistory rfl]
    rfl
  · cases hconn : e.after.session.connection with
    | none =>
      rw [hkept.attached hconn] at hc
      cases hc
    | some k =>
      have hreplayed := hkept.replayed
      rw [Session.holding_cursor hconn hc] at hreplayed
      exact ⟨k, rfl, Holding.opened_of_replay hstart hreplayed, hkept.not_closed hc,
        hkept.not_disconnected hconn⟩
  · rw [hr, step_released] at hstep
    obtain ⟨houtcome, hafter⟩ := Prod.mk.inj hstep
    exact ⟨houtcome.symm, hafter ▸ rfl⟩

end Site.Entry

/-- Up to the end of the store, all that is held is one connection and one cursor of it. -/
theorem Site.Kept.stretch {w : Site σ} (hw : w.Kept start) (hstart : ∀ k c, start ≠ .cursor k c)
    {requests : List Request} (hclose : .close ∉ requests) :
    ∃ k c, ∀ e ∈ w.journal requests, e.On k c := by
  refine ⟨(w.run requests).session.connection.getD 0, (w.run requests).session.cursor.getD 0,
    fun e he => ?_⟩
  obtain ⟨past, rest, rfl, hbefore, hstep⟩ := Site.mem_journal he
  rw [List.mem_append, List.mem_cons, not_or, not_or] at hclose
  have hkept : e.before.Kept start := hbefore ▸ Site.run_kept hw past
  obtain ⟨hholds, hafter⟩ := Site.step_kept hkept (Ne.symm hclose.2.1)
  have horderly := Site.Entry.orderly hstart hkept hstep
  rw [hstep] at hholds hafter
  -- what is held behind the step is still held in the end
  have hend : w.run (past ++ e.request :: rest) = e.after.run rest := by
    rw [Site.run_append, ← hbefore, Site.run, hstep]
  have hrest := Site.run_holdsOn hafter hclose.2.2
  obtain ⟨trace, hhistory, hbears⟩ := hholds.history
  have hhappened : e.happened = trace := Site.Entry.happened_eq hhistory
  rw [hend]
  have hconnection : ∀ l, e.after.session.connection = some l →
      l = (e.after.run rest).session.connection.getD 0 := by
    intro l hl
    rw [hrest.connection l hl, Option.getD_some]
  constructor
  · rintro l (hl | hl | ⟨place, hl⟩)
    · exact hconnection l (hholds.connection l hl)
    · exact hconnection l hl
    · rw [hhappened] at hl
      exact hconnection l (hbears _ hl)
  · intro hcall d command hd
    rw [hhappened] at hd
    have hheld : e.after.session.cursor = some d := by
      rcases hbears _ hd with hheld | hreader
      · exact hheld
      · rw [hcall] at hreader
        cases hreader
    obtain ⟨k, hk, hopened, -⟩ := horderly.cursor hheld
    have hcursor := hrest.cursor d hheld
    rw [hcursor, Option.getD_some, ← hconnection k hk]
    exact ⟨rfl, hopened⟩

/-- **What a store holds, over every run**: a cursor only of the connection that it holds, neither of
them closed; a connection is asked for only where nothing is held, and one that cannot be opened changes
nothing; the end gives up both, the cursor first, and a second time nothing; and up to the end there is
one connection, on one cursor of which all calls send their commands. -/
theorem holdings_kept (hs : s.Unused) (requests : List Request) :
    (∀ e ∈ Site.journal ⟨s, []⟩ requests, e.Orderly s.holding) ∧
    (∀ past stretch rest, requests = past ++ stretch ++ rest → .close ∉ stretch →
      ∃ k c, ∀ e ∈ (Site.run ⟨s, []⟩ past).journal stretch, e.On k c) ∧
    (∀ t : Session σ, t.connection = none → t.FailsAlone) ∧
    ∀ t : Session σ, runFrom t (Store.close : Action σ Unit) = (.ok (), t.released) ∧
      runFrom t.released (Store.close : Action σ Unit) = (.ok (), t.released) := by
  refine ⟨fun e he => ?_, fun past stretch rest _ hclose => ?_, fun t => Session.failsAlone,
    fun t => ⟨runFrom_close t, ?_⟩⟩
  · obtain ⟨past, rest, -, hbefore, hstep⟩ := Site.mem_journal he
    exact Site.Entry.orderly hs.holding_ne (hbefore ▸ Site.run_kept hs.kept past) hstep
  · exact (Site.run_kept hs.kept past).stretch hs.holding_ne hclose
  · rw [runFrom_close, Session.released_released]

/-- A store is closed while a reader is under way, and both go on behind that. -/
def Request.closedBetween : List Request :=
  [.opening .all, .next 0, .question (.getDoc (.str "animals") (.str "a")), .close, .next 0,
    .question (.getDoc (.str "animals") (.str "a")), .close]

/-- The reader fails behind the end of the store, and a second connection is opened for that; the store
goes on with a cursor of it. -/
theorem holdings_kept_reopened :
    Session.breaking.Unused ∧
      (∀ e ∈ Site.journal ⟨Session.breaking, []⟩ Request.closedBetween,
        e.Orderly Session.breaking.holding) ∧
      (Site.journal ⟨Session.breaking, []⟩ Request.closedBetween).map (·.after.session.holding)
        = [.nothing, .connection 0, .cursor 0 1, .nothing, .connection 1, .cursor 1 2, .nothing] := by
  have hunused : Session.breaking.Unused := Session.unused_withoutConnection _ _ _
  exact ⟨hunused, (holdings_kept hunused Request.closedBetween).1, by rfl⟩

end Docbase
