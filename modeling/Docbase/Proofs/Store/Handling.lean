import Docbase.Proofs.Store.Troubles

/-!
# How errors are handled

* `Site.trouble`: the trouble with a call; `Site.step_course`: **every call is done without trouble, or up
  to its trouble, which is handled**.
* `Entry.WellHandled`: nothing is opened to handle an error, what is taken back is taken back on the
  connection of the command that failed, and what cannot connect tries once.
* `Entry.Lapse`: nothing was sent, or a reader goes on though its connection was given up.
* `handled_well_iff`: **a call is well handled exactly if no error takes changes back in a lapse**.
* `reconnected_for_rollback`: connections that are opened to handle an error.
-/

namespace Docbase

open Sql Store

variable {σ : Type} [Engine σ]

/-! ## Calls -/

namespace Store

/-- What is tried when rows are asked for. -/
def rows (c : Command) : Action σ (List Value) := do
  let _ ← execute c
  let id ← cursor
  attempt (Engine.fetchAll id)

/-- The trouble with the rows of a command that is worked out from the options. -/
def askTrouble (s : Session σ) (query : Options → Except Error Command) : Option (Trouble σ) :=
  match query s.options with
  | .error _ => none
  | .ok c => Trouble.of? false none s (rows c)

theorem askTrouble_error {s : Session σ} {query : Options → Except Error Command} {e : Error}
    (h : query s.options = .error e) : askTrouble s query = none := by
  rw [askTrouble, h]

theorem askTrouble_ok {s : Session σ} {query : Options → Except Error Command} {c : Command}
    (h : query s.options = .ok c) : askTrouble s query = Trouble.of? false none s (rows c) := by
  rw [askTrouble, h]

theorem askTrouble_congr {s : Session σ} {query query' : Options → Except Error Command}
    (h : query s.options = query' s.options) : askTrouble s query = askTrouble s query' := by
  rw [askTrouble, askTrouble, h]

end Store

/-- What is tried in a change. The table of a collection to drop is looked for only there. -/
def Change.body (o : Options) : Change → Except Error (Action σ Int)
  | dropCollection collection => .ok do
    let table ← Store.given (o.table collection)
    execute (.plain (.dropTable table))
  | m => (m.plan o).map fun p => executeAll p.commands

/-- The trouble with a change. -/
def Change.trouble (m : Change) (s : Session σ) : Option (Trouble σ) :=
  match m.body s.options with
  | .error _ => none
  | .ok body => Trouble.of? true none s body

/-- The trouble with a document that is put under an id: that of looking whether there is one, or that
of the change. -/
def Store.upsertTrouble (s : Session σ) (collection id document : Value) : Option (Trouble σ) :=
  match askTrouble s fun o => o.byIdCommand docColumn collection id with
  | some f => some f
  | none =>
    match runFrom s (getDoc collection id) with
    | (.error _, _) => none
    | (.ok .null, t) => (Change.addDoc collection id document).trouble t
    | (.ok _, t) => (Change.updateDoc collection id document).trouble t

namespace Reader

/-- Opens the cursor of a reader. -/
def ready (query : Query) : Action σ CursorId := do
  logCommand query.command
  let connection ← client
  let batch := (← get).options.batch
  openCursor connection (some batch)

/-- The first step of a reader on its cursor. -/
def begin (query : Query) (c : CursorId) : Action σ (Option Value × Reader) := do
  let _ ← send c query.command
  advance c query.shape

/-- The cursor of a reader that goes on. -/
def own : Reader → Option CursorId
  | .open c _ => some c
  | _ => none

/-- The trouble with the next step of a reader. -/
def trouble (s : Session σ) : Reader → Option (Trouble σ)
  | done => none
  | .open c shape => Trouble.of? false (some c) s (advance c shape)
  | pending query =>
    match runFrom s (ready query) with
    | (.error _, _) => none
    | (.ok c, t) => Trouble.of? false none t (begin query c)

end Reader

namespace Site

/-- The trouble with a call. -/
def trouble (w : Site σ) : Request → Option (Trouble σ)
  | .change m => m.trouble w.session
  | .upsertDoc collection id document => upsertTrouble w.session collection id document
  | .question q => askTrouble w.session q.command
  | .next i => w.readers[i]?.bind fun r => r.trouble w.session
  | .opening _ | .finish _ | .client | .cursor | .close => none

omit [Engine σ] in
/-- The cursor of the reader that goes on with a call. -/
def resumed (w : Site σ) : Request → Option CursorId
  | .next i => w.readers[i]?.bind Reader.own
  | _ => none

end Site

namespace Meets

variable {s t : Session σ}

theorem fetchAll (c : Command) :
    Meets none s (Trouble.of? false none s (rows c)) (Store.fetchAll c) :=
  recovering <| (Straight.execute c).bind fun _ _ _ _ => Straight.onCursor fun _ _ _ => .attempt _

theorem ask (query : Options → Except Error Command) :
    Meets none s (askTrouble s query) (Store.ask query) := by
  refine ofSession (given_bind (fun e he => ?_) fun c hc => ?_)
  · exact askTrouble_error he
  · rw [askTrouble_ok hc]
    exact fetchAll c

theorem namesOf (query : Options → Except Error Command) :
    Meets none s (askTrouble s query) (Store.namesOf query) :=
  ofSession <| (ask query).bind fun _ _ => .given _

theorem getDoc (collection id : Value) :
    Meets none s (askTrouble s fun o => o.byIdCommand docColumn collection id)
      (Store.getDoc collection id) := by
  refine (ask _).bind fun rows t => ?_
  cases rows with
  | nil => exact .pure _
  | cons row rows => exact .given _

theorem question (q : Question) : Meets none s (askTrouble s q.command) q.act := by
  cases q with
  | listCollections => exact (namesOf fun o => .ok o.allTablesQuery).bind fun _ _ => .pure _
  | collectionsFrom start => exact (namesOf fun o => o.tablesFromQuery start).bind fun _ _ => .pure _
  | hasCollection collection =>
    exact ((ask _).bind fun _ _ => .pure _).bind fun _ _ => .pure _
  | hasIndex collection index =>
    exact ((ask _).bind fun _ _ => .pure _).bind fun _ _ => .pure _
  | getDoc collection id => exact (getDoc collection id).bind fun _ _ => .pure _
  | getPartialDoc collection select id =>
    refine bind (ofSession ?_) fun _ _ => .pure _
    refine given_bind (fun e he => ?_) fun p hp => ?_
    · refine askTrouble_error (e := e) ?_
      rw [Question.command, he]
      rfl
    · have htrouble : askTrouble s (Question.getPartialDoc collection select id).command
          = askTrouble s fun o => o.byIdCommand p.2 collection id := by
        refine askTrouble_congr ?_
        rw [Question.command, hp]
        rfl
      rw [htrouble]
      refine (ask _).bind fun rows t => ?_
      cases rows with
      | nil => exact .pure _
      | cons row rows => exact .given _
  | filterDocIds collection filter =>
    exact ((ask _).bind fun _ _ => .given _).bind fun _ _ => .pure _
  | countDocs collection filter =>
    refine bind ((ask _).bind fun rows t => ?_) fun _ _ => .pure _
    cases rows with
    | nil => exact .pure _
    | cons row rows => exact .given _

theorem change (m : Change) : Meets none s (m.trouble s) (m.act : Action σ Unit) := by
  by_cases hdrop : ∃ collection, m = .dropCollection collection
  · obtain ⟨collection, rfl⟩ := hdrop
    refine ofSession <| (transaction ?_).bind fun _ _ => .announce _
    exact (Straight.given _).bind fun _ _ _ _ => .execute _
  · have hm : ∀ collection, m ≠ .dropCollection collection := fun c h => hdrop ⟨c, h⟩
    have hbody : m.body s.options
        = (m.plan s.options).map fun p => (executeAll p.commands : Action σ Int) := by
      cases m with
      | dropCollection collection => exact absurd rfl (hm collection)
      | _ => rfl
    rw [Change.act_eq_carryOut hm, Change.trouble, hbody]
    refine ofSession (given_bind (fun e he => ?_) fun p hp => ?_)
    · have hplan : m.plan s.options = .error e := he
      rw [hplan]
      rfl
    · have hplan : m.plan s.options = .ok p := hp
      rw [hplan]
      exact (transaction (.executeAll p.commands)).bind fun _ _ => .announce _

theorem upsertDoc (collection id document : Value) :
    Meets none s (upsertTrouble s collection id document)
      (Store.upsertDoc collection id document : Action σ Unit) := by
  intro hs
  have hget := getDoc collection id hs
  rw [Store.upsertDoc, runFrom_bind, upsertTrouble]
  cases hask : askTrouble s fun o => o.byIdCommand docColumn collection id with
  | some f =>
    rw [hask] at hget
    cases hget with
    | troubled hwork hhandled hown hsent =>
      obtain ⟨trace, raised, -, hx, -⟩ := hhandled.history
      cases hrun : runFrom s (Store.getDoc collection id : Action σ Value) with
      | mk x t =>
        rw [hrun] at hx hhandled
        cases x with
        | ok v => cases hx
        | error e => exact .troubled hwork hhandled hown hsent
  | none =>
    rw [hask] at hget
    cases hget with
    | smooth hlooked =>
      cases hrun : runFrom s (Store.getDoc collection id : Action σ Value) with
      | mk x t =>
        rw [hrun] at hlooked
        cases x with
        | error e => exact .smooth hlooked
        | ok v =>
          have hwrite : ∀ m : Change, Course none s (m.trouble t) (errorOf (runFrom t m.act).1)
              (runFrom t (m.act : Action σ Unit)).2 :=
            fun m => .behind hlooked (change m hlooked.coherent)
          cases v with
          | null => exact hwrite (.addDoc collection id document)
          | _ => exact hwrite (.updateDoc collection id document)

/-- The cursor of a reader is opened on the connection of the store. -/
theorem ready_straight (query : Query) : Straight s (Reader.ready query : Action σ CursorId) :=
  (Straight.log _ _).bind fun _ _ _ _ => Straight.client.bind fun _ _ _ _ =>
    .ofSession (.openCursor _ _)

theorem ready_inReach {query : Query} {c : CursorId} (h : runFrom s (Reader.ready query) = (.ok c, t)) :
    t.InReach c := by
  rw [Reader.ready, ← bind_assoc, ← Reader.reach, runFrom_bind] at h
  cases hrun : runFrom s (Reader.reach query : Action σ ConnectionId) with
  | mk x u =>
    rw [hrun] at h
    cases x with
    | error e => cases h
    | ok k => exact Straight.openCursor_inReach (reach_connection hrun) h

theorem readerStep (r : Reader) : Meets r.own s (r.trouble s) r.step := by
  cases r with
  | done => exact straight (.pure _)
  | «open» c shape => exact guarded c (.advance c shape)
  | pending query =>
    have hstep : (Reader.pending query).step
        = ((Reader.ready query : Action σ CursorId) >>= fun c => Reader.guarded c (Reader.begin query c)) := by
      rw [Reader.ready]
      simp only [bind_assoc]
      rfl
    rw [hstep, Reader.trouble]
    cases hready : runFrom s (Reader.ready query : Action σ CursorId) with
    | mk x t =>
      cases x with
      | error e =>
        intro hs
        have hfailed := ready_straight query hs
        rw [runFrom_bind, hready]
        rw [hready] at hfailed
        exact .smooth hfailed
      | ok c =>
        refine after (ready_straight query) hready (guarded c ?_)
        exact (Straight.send (ready_inReach hready) query.command).bind fun _ _ _ _ => .advance c _

end Meets

namespace Site

variable {w : Site σ} {r : Request}

/-- **Every call but the last one takes its course.** -/
theorem step_course (hw : w.session.Coherent) (hr : r ≠ .close) :
    Course (w.resumed r) w.session (w.trouble r) (errorOf (w.step r).1) (w.step r).2.session := by
  cases r with
  | change m => exact (Meets.change m).bind (fun _ _ => .pure _) hw
  | upsertDoc collection id document =>
    exact (Meets.upsertDoc collection id document).bind (fun _ _ => .pure _) hw
  | question q => exact Meets.question q hw
  | opening q =>
    have hstep : Course none w.session none (errorOf (w.step (.opening q)).1) w.session :=
      .smooth (Unhandled.refl hw _)
    simp only [step, runFrom_opening] at hstep ⊢
    cases hquery : q.query w.session.options with
    | error e => rw [hquery] at hstep; exact hstep
    | ok query => rw [hquery] at hstep; exact hstep
  | next i =>
    cases hi : w.readers[i]? with
    | none =>
      simp only [resumed, trouble, step, hi]
      exact .smooth (Unhandled.refl hw _)
    | some reader =>
      have hcourse := Meets.readerStep reader hw
      cases hrun : runFrom w.session reader.step with
      | mk x t =>
        rw [hrun] at hcourse
        have hnext := (reader.next_eq w.session).trans (congrArg Reader.settle hrun)
        simp only [resumed, trouble, hi, Option.bind_some]
        cases x with
        | ok p =>
          rw [step_next hi hnext]
          exact hcourse
        | error e =>
          rw [step_next hi hnext]
          exact hcourse
  | finish i =>
    cases hi : w.readers[i]? with
    | none =>
      simp only [resumed, trouble, step, hi]
      exact .smooth (Unhandled.refl hw _)
    | some reader =>
      have hclose : Straight w.session reader.close := by
        cases reader with
        | «open» c shape => exact (Straight.closeCursor c).bind fun _ _ _ _ => .pure _
        | _ => exact .pure _
      have hended := hclose hw
      simp only [resumed, trouble, step, hi]
      cases hrun : runFrom w.session reader.close with
      | mk x t =>
        rw [hrun] at hended
        cases x <;> exact .smooth hended
  | client =>
    exact Meets.straight (Straight.client.bind fun _ _ _ _ => .pure _) hw
  | cursor =>
    exact Meets.straight (Straight.cursor.bind fun _ _ _ _ => .pure _) hw
  | close => exact absurd rfl hr

end Site

/-- Closing a store handles no error, and leaves no cursor. -/
theorem close_unhandled (s : Session σ) :
    (runFrom s (close : Action σ Unit)).2.cursor = none ∧
      ∃ trace, (runFrom s (close : Action σ Unit)).2.history = s.history ++ trace ∧
        ∀ e ∈ trace, e.handles = false := by
  cases hcursor : s.cursor with
  | none =>
    cases hconn : s.connection with
    | none =>
      refine ⟨?_, [], ?_, by simp⟩ <;> simp [close, runFrom_bind, hcursor, hconn]
    | some k =>
      refine ⟨?_, [.disconnected k], ?_, by simp [Event.handles, Event.attempts, Event.undoes]⟩ <;>
        simp [close, runFrom_bind, hcursor, hconn]
  | some c =>
    cases hconn : s.connection with
    | none =>
      refine ⟨?_, [.cursorClosed c], ?_, by simp [Event.handles, Event.attempts, Event.undoes]⟩ <;>
        simp [close, closeCursor, runFrom_bind, hcursor, hconn]
    | some k =>
      refine ⟨?_, [.cursorClosed c, .disconnected k], ?_,
        by simp [Event.handles, Event.attempts, Event.undoes]⟩ <;>
        simp [close, closeCursor, runFrom_bind, hcursor, hconn]

/-! ## Runs -/

namespace Site.Entry

/-- The trouble with a call. -/
def trouble (e : Entry σ) : Option (Trouble σ) := e.before.trouble e.request

/-- What happened while the error of a call was handled. -/
def handling (e : Entry σ) : List Event :=
  match e.trouble with
  | none => []
  | some f => e.after.session.history.drop f.session.history.length

/-- Errors are handled without opening a connection. -/
structure WellHandled (e : Entry σ) : Prop where
  unconnected : ∀ event ∈ e.handling, event.attempts = false
  /-- What is taken back is taken back where the command that failed was sent. -/
  undone : ∀ k, .rolledBack k ∈ e.happened → ∃ f, e.trouble = some f ∧ f.On k
  /-- A call that cannot connect tries once, and ends with the error of that. -/
  unreachable : ∀ target y, .notConnected target y ∈ e.happened →
    e.happened.filter Event.attempts = [.notConnected target y] ∧
      (∀ k, .rolledBack k ∉ e.happened) ∧ e.outcome = .error (connectError target y) ∧
      e.after.session.connection = none ∧ e.after.session.cursor = none

/-- The store does not hold the connection of a command that failed. -/
inductive Lapse (e : Entry σ) (f : Trouble σ) : Prop
  /-- Nothing was sent. -/
  | unsent (h : f.cursor = none)
  /-- A reader goes on, but its connection was given up. -/
  | left {c : CursorId} (hresumed : e.before.resumed e.request = some c) (h : ¬ f.session.InReach c)

variable {e : Entry σ} {f : Trouble σ} {trace work marks : List Event}

theorem handling_none (htrouble : e.trouble = none) : e.handling = [] := by
  rw [handling, htrouble]

theorem handling_eq (htrouble : e.trouble = some f)
    (h : e.after.session.history = f.session.history ++ trace) : e.handling = trace := by
  rw [handling, htrouble]
  show List.drop _ _ = trace
  rw [h, List.drop_left]

omit [Engine σ] in
/-- A lapse is all that keeps a command that failed from having been sent on the connection of the
store. -/
theorem lapse_iff (hown : ∀ c, e.before.resumed e.request = some c → f.cursor = some c)
    (hsent : e.before.resumed e.request = none → ∀ c, f.cursor = some c → f.session.InReach c) :
    e.Lapse f ↔ ¬ ∃ c, f.cursor = some c ∧ f.session.InReach c := by
  constructor
  · rintro (h | ⟨hresumed, h⟩) ⟨c, hc, hreach⟩
    · rw [h] at hc
      cases hc
    · have hcursor := hown _ hresumed
      rw [hc] at hcursor
      cases hcursor
      exact h hreach
  · intro h
    cases hc : f.cursor with
    | none => exact .unsent hc
    | some c =>
      cases hresumed : e.before.resumed e.request with
      | none => exact absurd ⟨c, hc, hsent hresumed c hc⟩ h
      | some d =>
        have hd := hown d hresumed
        exact .left hresumed fun hreach => h ⟨d, hd, hreach⟩

/-- What a course without trouble comes to is well handled. -/
theorem wellHandled_of_smooth (htrouble : e.trouble = none)
    (h : Unhandled e.before.session (errorOf e.outcome) e.after.session) : e.WellHandled := by
  obtain ⟨trace, hhistory, -, hkept, -⟩ := h.history
  have hhappened : e.happened = trace := happened_eq hhistory
  have hundone : ∀ k, .rolledBack k ∉ e.happened := by
    intro k hk
    rw [hhappened] at hk
    cases hkept _ hk
  refine ⟨?_, fun k hk => absurd hk (hundone k), fun target y hy => ?_⟩
  · rw [handling_none htrouble]
    simp
  · obtain ⟨hattempts, houtcome, hconn, hcursor, -⟩ := h.unreachable hhistory (hhappened ▸ hy)
    exact ⟨hhappened ▸ hattempts, hundone, errorOf_eq_some houtcome, hconn, hcursor⟩

/-- So is the end of a store. -/
theorem wellHandled_of_close (hrequest : e.request = .close)
    (hstep : e.before.step e.request = (e.outcome, e.after)) : e.WellHandled := by
  have htrouble : e.trouble = none := by rw [trouble, hrequest, Site.trouble]
  obtain ⟨-, trace, hhistory, hquiet⟩ := close_unhandled e.before.session
  have hafter : e.after.session = (runFrom e.before.session (Store.close : Action σ Unit)).2 := by
    rw [← Site.step_close e.before, ← hrequest, hstep]
  have hhappened : e.happened = trace := happened_eq (by rw [hafter, hhistory])
  rw [← hhappened] at hquiet
  refine ⟨?_, fun k hk => ?_, fun target y hy => ?_⟩
  · rw [handling_none htrouble]
    simp
  · cases hquiet _ hk
  · cases hquiet _ hy

/-- What the marks of a handling, which are its attempts to connect and what it takes back, tell of a
call that did some work before. -/
structure Marked (e : Entry σ) (work marks : List Event) : Prop where
  attempts : (∀ event ∈ e.handling, event.attempts = false) ↔
    ∀ event ∈ marks, event.attempts = false
  undone : ∀ k, .rolledBack k ∈ e.happened ↔ .rolledBack k ∈ marks
  unreachable : ∀ target y, .notConnected target y ∈ e.happened →
    .notConnected target y ∈ work ∨ .notConnected target y ∈ marks

theorem marked (hhappened : e.happened = work ++ e.handling)
    (hkept : ∀ event ∈ work, event.undoes = false) :
    e.Marked work (e.handling.filter Event.handles) := by
  have hmark : ∀ event : Event, event.handles = true →
      (event ∈ e.handling ↔ event ∈ e.handling.filter Event.handles) := by
    intro event hevent
    rw [List.mem_filter, and_iff_left hevent]
  refine ⟨?_, fun k => ?_, fun target y hy => ?_⟩
  · refine forall_congr' fun event => ?_
    cases hevent : event.attempts with
    | false => simp
    | true => rw [hmark event (by rw [Event.handles, hevent, Bool.true_or])]
  · rw [hhappened, List.mem_append, ← hmark _ rfl]
    refine or_iff_right fun h => ?_
    cases hkept _ h
  · rw [hhappened, List.mem_append] at hy
    exact hy.imp_right (hmark _ rfl).1

/-- An error that is handled with an attempt to connect is not well handled. -/
theorem not_wellHandled_of_attempt {event : Event} (hmarked : e.Marked work marks)
    (hevent : event ∈ marks) (hattempt : event.attempts = true) : ¬ e.WellHandled := by
  intro hwell
  have hquiet := hmarked.attempts.1 hwell.unconnected event hevent
  rw [hattempt] at hquiet
  cases hquiet

/-- A trouble that is passed on is well handled: the call ends as the work did. -/
theorem wellHandled_of_passed (hmarked : e.Marked work [])
    (hhappened : e.happened = work ++ e.handling)
    (hhistory : f.session.history = e.before.session.history ++ work)
    (hwork : Unhandled e.before.session (some f.error) f.session)
    (houtcome : e.outcome = .error f.error)
    (hconn : e.after.session.connection = f.session.connection)
    (hcursor : e.after.session.cursor = f.session.cursor) : e.WellHandled := by
  have hquiet : ∀ event ∈ e.handling, event.attempts = false := hmarked.attempts.2 (by simp)
  have hkept : ∀ k, .rolledBack k ∉ e.happened :=
    fun k hk => absurd ((hmarked.undone k).1 hk) List.not_mem_nil
  refine ⟨hquiet, fun k hk => absurd hk (hkept k), fun target y hy => ?_⟩
  have hy : .notConnected target y ∈ work :=
    (hmarked.unreachable target y hy).resolve_right List.not_mem_nil
  obtain ⟨hattempts, herror, hnone, hclosed, -⟩ := hwork.unreachable hhistory hy
  refine ⟨?_, hkept, ?_, hconn.trans hnone, hcursor.trans hclosed⟩
  · have hnothing : e.handling.filter Event.attempts = [] := by
      refine List.filter_eq_nil_iff.2 fun event hevent hattempt => ?_
      rw [hquiet event hevent] at hattempt
      cases hattempt
    rw [hhappened, List.filter_append, hattempts, hnothing, List.append_nil]
  · rw [houtcome, Option.some.inj herror]

/-- What is taken back on the connection that is held is well handled exactly if the command that
failed was sent there. -/
theorem wellHandled_iff_of_undone {k : ConnectionId} (hmarked : e.Marked work [.rolledBack k])
    (htrouble : e.trouble = some f)
    (hhistory : f.session.history = e.before.session.history ++ work)
    (hwork : Unhandled e.before.session (some f.error) f.session)
    (hheld : f.session.connection = some k) :
    e.WellHandled ↔ ∃ c, f.cursor = some c ∧ f.session.InReach c := by
  constructor
  · intro hwell
    have hundone : .rolledBack k ∈ e.happened := (hmarked.undone k).2 (List.mem_singleton_self _)
    obtain ⟨f', hf', c, b, hc, hopened⟩ := hwell.undone k hundone
    rw [htrouble] at hf'
    cases hf'
    exact ⟨c, hc, k, b, hheld, hopened⟩
  · rintro ⟨c, hc, j, b, hj, hopened⟩
    rw [hheld] at hj
    cases hj
    refine ⟨hmarked.attempts.2 (by simp [Event.attempts]), fun j hj => ?_, fun target y hy => ?_⟩
    · cases List.mem_singleton.1 ((hmarked.undone j).1 hj)
      exact ⟨f, htrouble, c, b, hc, hopened⟩
    · have hy := (hmarked.unreachable target y hy).resolve_right (by simp)
      obtain ⟨-, -, hnone, -⟩ := hwork.unreachable hhistory hy
      rw [hheld] at hnone
      cases hnone

/-- Without a place to connect to there is no attempt. -/
theorem wellHandled_of_nowhere {cause : Cause} (hmarked : e.Marked work [])
    (hhistory : f.session.history = e.before.session.history ++ work)
    (hwork : Unhandled e.before.session (some f.error) f.session)
    (htarget : target f.session.settings = .error cause) : e.WellHandled := by
  refine ⟨hmarked.attempts.2 (by simp),
    fun k hk => absurd ((hmarked.undone k).1 hk) List.not_mem_nil, fun place y hy => ?_⟩
  have hy := (hmarked.unreachable place y hy).resolve_right List.not_mem_nil
  obtain ⟨-, -, -, -, hset⟩ := hwork.unreachable hhistory hy
  rw [← hwork.settings, htarget] at hset
  cases hset

/-- A trouble is well handled exactly if it is not handled in a lapse. -/
theorem wellHandled_iff_of_troubled (htrouble : e.trouble = some f)
    (hwork : Unhandled e.before.session (some f.error) f.session)
    (hhandled : Handled f (errorOf e.outcome) e.after.session)
    (hown : ∀ c, e.before.resumed e.request = some c → f.cursor = some c)
    (hsent : e.before.resumed e.request = none → ∀ c, f.cursor = some c → f.session.InReach c) :
    e.WellHandled ↔ (f.takesBack = true → e.Lapse f →
      f.session.connection = none ∧ f.session.settings.database.isEmpty = true) := by
  obtain ⟨work, hbefore, -, hkept, -⟩ := hwork.history
  obtain ⟨trace, raised, hafter, hraised, hhandling⟩ := hhandled.history
  have htrace : e.handling = trace := handling_eq htrouble hafter
  have hhappened : e.happened = work ++ e.handling := by
    rw [htrace]
    exact happened_eq (by rw [hafter, hbefore, List.append_assoc])
  have hmarked := marked hhappened hkept
  have hlapse := lapse_iff hown hsent
  -- without a connection the error comes in a lapse, and is spared the attempt by a missing place only
  have hlost : f.session.connection = none → e.Lapse f := by
    intro hnone
    rw [hlapse]
    rintro ⟨c, -, k, b, hk, -⟩
    rw [hnone] at hk
    cases hk
  have hplace : ∀ place, target f.session.settings = .ok place →
      f.session.settings.database.isEmpty ≠ true := by
    intro place h hempty
    rw [target, if_pos hempty] at h
    cases h
  rw [← htrace] at hhandling
  generalize e.handling.filter Event.handles = marks at hhandling hmarked
  cases hhandling with
  | passed htakes =>
    obtain ⟨hconn, hcursor⟩ := hhandled.passed htakes
    refine iff_of_true ?_ fun h => absurd (htakes ▸ h) Bool.false_ne_true
    exact wellHandled_of_passed hmarked hhappened hbefore hwork (errorOf_eq_some hraised) hconn
      hcursor
  | @undone k htakes hheld =>
    rw [wellHandled_iff_of_undone hmarked htrouble hbefore hwork hheld]
    constructor
    · intro hreach _ hl
      exact absurd hreach (hlapse.1 hl)
    · intro h
      by_contra hno
      have hnone := (h htakes (hlapse.2 hno)).1
      rw [hheld] at hnone
      cases hnone
  | @reopened k place htakes hnone htarget =>
    refine iff_of_false (not_wellHandled_of_attempt hmarked List.mem_cons_self rfl) fun h => ?_
    exact hplace place htarget (h htakes (hlost hnone)).2
  | @unreachable place y htakes hnone htarget =>
    refine iff_of_false (not_wellHandled_of_attempt hmarked List.mem_cons_self rfl) fun h => ?_
    exact hplace place htarget (h htakes (hlost hnone)).2
  | @nowhere cause htakes hnone htarget =>
    refine iff_of_true (wellHandled_of_nowhere hmarked hbefore hwork htarget) fun _ _ => ?_
    refine ⟨hnone, ?_⟩
    by_contra hset
    rw [target, if_neg hset] at htarget
    cases htarget

end Site.Entry

namespace Site

variable {w : Site σ}

theorem step_coherent (hw : w.session.Coherent) (r : Request) : (w.step r).2.session.Coherent := by
  by_cases hr : r = .close
  · subst hr
    rw [step_close]
    exact Session.coherent_of_none (close_unhandled w.session).1
  · exact (step_course hw hr).coherent

theorem run_coherent (hw : w.session.Coherent) (requests : List Request) :
    (w.run requests).session.Coherent := by
  induction requests generalizing w with
  | nil => exact hw
  | cons r rs ih => exact ih (step_coherent hw r)

end Site

/-- **Errors are handled on the connection of the store, but for lapses.** A call of a run is well
handled, without opening a connection to handle an error, exactly if no error takes changes back in a
lapse: where nothing was sent, or where a reader goes on though its connection was given up. A store
without a place to connect to is spared that. What is done about an error comes behind all that was
done before it. -/
theorem handled_well_iff {w : Site σ} (hw : w.session.Coherent) (requests : List Request) :
    ∀ e ∈ w.journal requests,
      (e.WellHandled ↔ ∀ f, e.trouble = some f → f.takesBack = true → e.Lapse f →
        f.session.connection = none ∧ f.session.settings.database.isEmpty = true) ∧
      ∀ f, e.trouble = some f → ∃ work, f.session.history = e.before.session.history ++ work ∧
        e.happened = work ++ e.handling := by
  intro e he
  obtain ⟨past, rest, rfl, hbefore, hstep⟩ := Site.mem_journal he
  have hcoherent : e.before.session.Coherent := by
    rw [hbefore]
    exact Site.run_coherent hw past
  by_cases hr : e.request = .close
  · have htrouble : e.trouble = none := by rw [Site.Entry.trouble, hr, Site.trouble]
    have hwell : e.WellHandled := Site.Entry.wellHandled_of_close hr hstep
    rw [htrouble]
    exact ⟨⟨fun _ f hf => absurd hf nofun, fun _ => hwell⟩, fun f hf => absurd hf nofun⟩
  · have hcourse := Site.step_course hcoherent hr
    rw [hstep] at hcourse
    have htrouble : e.before.trouble e.request = e.trouble := rfl
    rw [htrouble] at hcourse
    generalize htr : e.trouble = trouble at hcourse ⊢
    cases hcourse with
    | smooth h =>
      have hwell := Site.Entry.wellHandled_of_smooth htr h
      exact ⟨⟨fun _ f hf => absurd hf nofun, fun _ => hwell⟩, fun f hf => absurd hf nofun⟩
    | @troubled f _ _ hwork hhandled hown hsent =>
      refine ⟨?_, ?_⟩
      · rw [Site.Entry.wellHandled_iff_of_troubled htr hwork hhandled hown hsent]
        constructor
        · rintro h g ⟨⟩
          exact h
        · intro h
          exact h f rfl
      · rintro g ⟨⟩
        obtain ⟨work, hbefore, -⟩ := hwork.history
        obtain ⟨trace, raised, hafter, -⟩ := hhandled.history
        refine ⟨work, hbefore, ?_⟩
        rw [Site.Entry.handling_eq htr hafter]
        exact Site.Entry.happened_eq (by rw [hafter, hbefore, List.append_assoc])

/-- A document is asked for, and then changed. -/
def Request.getThenUpdate : List Request :=
  [.question (.getDoc (.str "animals") (.str "a")),
    .change (.updateDoc (.str "animals") (.str "a") (.mapping []))]

/-- A store without a connection, on an engine with a row and a failure behind it. -/
def Session.breaking : Session Scripted :=
  .withoutConnection ⟨"t_", "TEXT", true, false, 100, "log"⟩ {}
    { results := [[.named "a", .failure ⟨.operational, "x"⟩]] }

/-- A store is closed while a reader is under way. -/
def Request.closedReading : List Request := [.opening .all, .next 0, .close, .next 0]

/-- Connections are opened to handle errors: a second time by a change that cannot connect, and anew for
a reader whose connection was closed. -/
theorem reconnected_for_rollback :
    (∃ e ∈ Site.journal ⟨Session.unreachable, []⟩ Request.getThenUpdate, ¬ e.WellHandled ∧
      ∃ target y, e.happened.filter Event.handles
        = [.notConnected target y, .notConnected target y]) ∧
    ∃ e ∈ Site.journal ⟨Session.breaking, []⟩ Request.closedReading, ¬ e.WellHandled ∧
      ∃ target, e.happened.filter Event.handles = [.connected 1 target, .rolledBack 1] := by
  constructor
  · have hentry : ∃ e target y,
        (Site.journal ⟨Session.unreachable, []⟩ Request.getThenUpdate)[1]? = some e ∧
        e.happened.filter Event.handles = [.notConnected target y, .notConnected target y] ∧
        e.happened.filter Event.attempts = [.notConnected target y, .notConnected target y] :=
      ⟨_, _, _, rfl, rfl, rfl⟩
    obtain ⟨e, target, y, he, hmarks, htwice⟩ := hentry
    refine ⟨e, List.mem_of_getElem? he, fun hwell => ?_, target, y, hmarks⟩
    have hmem : .notConnected target y ∈ e.happened.filter Event.attempts :=
      htwice ▸ List.mem_cons_self
    have honce := (hwell.unreachable target y (List.mem_filter.1 hmem).1).1
    rw [htwice] at honce
    cases honce
  · have hentry : ∃ e target,
        (Site.journal ⟨Session.breaking, []⟩ Request.closedReading)[3]? = some e ∧
        e.happened.filter Event.handles = [.connected 1 target, .rolledBack 1] ∧
        .connected 1 target ∈ e.handling :=
      ⟨_, _, rfl, rfl, List.mem_of_getElem? (i := 0) rfl⟩
    obtain ⟨e, target, he, hmarks, hconnected⟩ := hentry
    refine ⟨e, List.mem_of_getElem? he, fun hwell => ?_, target, hmarks⟩
    cases hwell.unconnected _ hconnected

/-- What cannot connect is well handled where nothing would have been changed. -/
theorem handled_well_iff_unreachable :
    Session.unreachable.Coherent ∧
      ∃ e e', Site.journal ⟨Session.unreachable, []⟩ Request.getThenUpdate = [e, e'] ∧
        e.WellHandled ∧ ¬ e'.WellHandled := by
  have hs : Session.unreachable.Coherent := Session.coherent_of_none rfl
  have hall := handled_well_iff (w := ⟨Session.unreachable, []⟩) hs Request.getThenUpdate
  have hentries : ∃ e e' f f',
      Site.journal ⟨Session.unreachable, []⟩ Request.getThenUpdate = [e, e'] ∧
      e.trouble = some f ∧ f.takesBack = false ∧ e'.trouble = some f' ∧ f'.takesBack = true ∧
      f'.cursor = none ∧ f'.session.settings.database.isEmpty = false :=
    ⟨_, _, _, _, rfl, rfl, rfl, rfl, rfl, rfl, rfl⟩
  obtain ⟨e, e', f, f', hjournal, hf, hpassed, hf', htakes, hunsent, hset⟩ := hentries
  rw [hjournal] at hall
  refine ⟨hs, e, e', hjournal, ?_, fun hwell => ?_⟩
  · refine (hall e List.mem_cons_self).1.2 fun g hg htakes => ?_
    rw [hf] at hg
    cases hg
    rw [hpassed] at htakes
    cases htakes
  · obtain ⟨-, hempty⟩ := (hall e' (List.mem_cons_of_mem _ List.mem_cons_self)).1.1 hwell f' hf'
      htakes (.unsent hunsent)
    rw [hset] at hempty
    cases hempty

end Docbase
