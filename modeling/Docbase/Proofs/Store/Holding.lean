import Docbase.Proofs.Store.Handling

/-!
# What a store holds

A store holds nothing, a connection, or a connection and a cursor of it. What it holds is told by what
has happened to it: it opens a connection only where it holds nothing, and a cursor only on the
connection that it holds, and gives up what it holds in the other order.

* `Holding.behind`, `Holding.replay`: what is held behind an event, and behind a history.
* `Holding.opened_of_replay`: a cursor that is held was opened on the connection that is held.
* `Session.Kept`: what the store holds is what its history tells, and none of it was given up.
* `HoldsOn`: what is held stays so between two sessions; `Upholds`: and if it was kept, it is kept.
* `runFrom_client`: what comes of the connection of a store that holds none.
* `Upholds.carries`: **every call of a store upholds what it holds**.
-/

namespace Docbase

open Sql Store

/-- What a store holds. -/
inductive Holding
  | nothing
  | connection (k : ConnectionId)
  /-- A connection, and a cursor of it. -/
  | cursor (k : ConnectionId) (c : CursorId)
  deriving DecidableEq

namespace Holding

/-- What is held behind an event; nothing is said if the event cannot happen where this is held. The
cursors of readers are none of it. -/
def behind : Holding → Event → Option Holding
  | nothing, .connected k _ => some (connection k)
  | nothing, .notConnected .. => some nothing
  | connection k, .opened c k' none => if k' = k then some (cursor k c) else none
  | cursor k c, .cursorClosed c' => if c' = c then some (connection k) else some (cursor k c)
  | connection k, .disconnected k' => if k' = k then some nothing else none
  | _, .connected .. | _, .notConnected .. | _, .opened _ _ none | _, .disconnected _ => none
  | h, _ => some h

/-- What is held behind a history. -/
def replay (h : Holding) (history : List Event) : Option Holding := history.foldlM behind h

variable {h h' start : Holding} {history past rest : List Event} {e : Event}

/-- Sending a command changes nothing of what is held. -/
theorem behind_executed (h : Holding) (c : CursorId) (command : Command) :
    h.behind (.executed c command) = some h := by
  cases h <;> rfl

/-- Nor does a cursor of a reader. -/
theorem behind_named (h : Holding) (c : CursorId) (k : ConnectionId) (batch : Int) :
    h.behind (.opened c k (some batch)) = some h := by
  cases h <;> rfl

theorem replay_append (history more : List Event) :
    h.replay (history ++ more) = (h.replay history).bind fun h => h.replay more :=
  List.foldlM_append

theorem replay_snoc (history : List Event) (e : Event) :
    h.replay (history ++ [e]) = (h.replay history).bind fun h => h.behind e := by
  rw [replay_append]
  refine congrArg _ (funext fun h => ?_)
  rw [replay, List.foldlM_cons]
  cases h.behind e <;> rfl

/-- What may become of what is held. -/
inductive Turn : Holding → Event → Holding → Prop
  | connected {k : ConnectionId} {place : Target} : Turn nothing (.connected k place) (connection k)
  | opened {k : ConnectionId} {c : CursorId} : Turn (connection k) (.opened c k none) (cursor k c)
  | closed {k : ConnectionId} {c : CursorId} : Turn (cursor k c) (.cursorClosed c) (connection k)
  | disconnected {k : ConnectionId} : Turn (connection k) (.disconnected k) nothing
  /-- What is held stays the same; only where nothing is held a connection may be asked for in vain. -/
  | still {h : Holding} {e : Event} : (e.attempts = true → h = nothing) → Turn h e h

theorem turn_of_behind (hbehind : h.behind e = some h') : h.Turn e h' := by
  fun_cases behind h e
  case case1 =>
    cases hbehind
    exact .connected
  case case2 =>
    cases hbehind
    exact .still fun _ => rfl
  case case3 =>
    -- a cursor of the connection that is held
    simp only [behind, if_true, Option.some.injEq] at hbehind
    exact hbehind ▸ .opened
  case case5 =>
    simp only [behind, if_true, Option.some.injEq] at hbehind
    exact hbehind ▸ .closed
  case case6 hother =>
    -- a cursor of a reader
    simp only [behind, if_neg hother, Option.some.injEq] at hbehind
    exact hbehind ▸ .still nofun
  case case7 =>
    simp only [behind, if_true, Option.some.injEq] at hbehind
    exact hbehind ▸ .disconnected
  case case13 hconnected hrefused _ _ _ _ _ _ _ =>
    have hsame : h = h' := by simpa [behind, *] using hbehind
    subst hsame
    refine .still fun hattempts => ?_
    cases e with
    | connected k place => exact (hconnected k place rfl).elim
    | notConnected place y => exact (hrefused place y rfl).elim
    | _ => cases hattempts
  -- no other event can happen
  all_goals simp_all [behind]

/-- No connection is asked for where one is held. -/
theorem nothing_of_attempts (hattempts : e.attempts = true) (hbehind : h.behind e = some h') :
    h = nothing := by
  cases turn_of_behind hbehind with
  | connected => rfl
  | opened | closed | disconnected => cases hattempts
  | still hstill => exact hstill hattempts

theorem replay_of_attempts (hreplay : start.replay (past ++ e :: rest) = some h')
    (hattempts : e.attempts = true) : start.replay past = some nothing := by
  -- what is held behind the event was held somewhere before it
  have hsplit : past ++ e :: rest = past ++ [e] ++ rest := by simp
  rw [hsplit, replay_append, replay_snoc] at hreplay
  obtain ⟨mid, hmid, -⟩ := Option.bind_eq_some_iff.1 hreplay
  obtain ⟨h, hpast, hbehind⟩ := Option.bind_eq_some_iff.1 hmid
  rw [hpast, nothing_of_attempts hattempts hbehind]

/-- **A cursor that is held was opened on the connection that is held.** -/
theorem opened_of_replay (hstart : ∀ k c, start ≠ cursor k c) {k : ConnectionId} {c : CursorId}
    (hreplay : start.replay history = some (cursor k c)) : .opened c k none ∈ history := by
  induction history using List.reverseRecOn with
  | nil => exact absurd (Option.some.inj hreplay) (hstart k c)
  | append_singleton history e ih =>
    rw [replay_snoc] at hreplay
    obtain ⟨h, hhistory, hbehind⟩ := Option.bind_eq_some_iff.1 hreplay
    cases turn_of_behind hbehind with
    | opened => exact List.mem_append_right _ (List.mem_singleton_self _)
    | still => exact List.mem_append_left _ (ih hhistory)

end Holding

variable {σ α : Type}

namespace Session

/-- What the store holds. -/
def holding (s : Session σ) : Holding :=
  match s.connection, s.cursor with
  | none, _ => .nothing
  | some k, none => .connection k
  | some k, some c => .cursor k c

variable {s : Session σ} {k : ConnectionId} {c : CursorId}

theorem holding_nothing (h : s.connection = none) : s.holding = .nothing := by
  rw [holding, h]

theorem holding_connection (h : s.connection = some k) (hc : s.cursor = none) :
    s.holding = .connection k := by
  rw [holding, h, hc]

theorem holding_cursor (h : s.connection = some k) (hc : s.cursor = some c) :
    s.holding = .cursor k c := by
  rw [holding, h, hc]

/-- The session behind the opening of a connection. -/
def joined (place : Target) (e : σ) (s : Session σ) : Session σ :=
  { s with
    engine := e
    history := s.history ++ [.connected s.nextConnection place]
    connection := some s.nextConnection
    nextConnection := s.nextConnection + 1 }

/-- The session behind an attempt to connect that failed: nothing of what is held has changed. -/
def notJoined (place : Target) (y : EngineError) (e : σ) (s : Session σ) : Session σ :=
  { s with engine := e, history := s.history ++ [.notConnected place y] }

/-- The session in which the store has taken a new cursor of a connection. -/
def taken (k : ConnectionId) (e : σ) (s : Session σ) : Session σ :=
  { s with
    engine := e
    history := s.history ++ [.opened s.nextCursor k none]
    nextCursor := s.nextCursor + 1
    cursor := some s.nextCursor }

/-- The cursor was opened, and the store does not hold it. -/
def Spares (c : CursorId) (s : Session σ) : Prop := c < s.nextCursor ∧ s.cursor ≠ some c

/-- The number is that of a connection, and the store does not hold it. -/
def Left (k : ConnectionId) (s : Session σ) : Prop :=
  k < s.nextConnection ∧ s.connection ≠ some k

/-- A new cursor is another one. -/
theorem Spares.taken (hc : s.Spares c) (k : ConnectionId) (e : σ) : (s.taken k e).Spares c :=
  ⟨Nat.lt_succ_of_lt hc.1, fun hsame => Nat.ne_of_gt hc.1 (Option.some.inj hsame)⟩

/-- A new connection is another one. -/
theorem Left.joined (hk : s.Left k) (place : Target) (e : σ) : (s.joined place e).Left k :=
  ⟨Nat.lt_succ_of_lt hk.1, fun hsame => Nat.ne_of_gt hk.1 (Option.some.inj hsame)⟩

end Session

namespace Event

/-- The event is of the past: what was closed in it is not held any more, and no cursor of it is still
to be opened. -/
def Past (s : Session σ) : Event → Prop
  | cursorClosed c => s.Spares c
  | disconnected k => s.Left k
  | opened c _ _ | executed c _ => c < s.nextCursor
  | _ => True

/-- What the event tells of a session behind it: a connection that was opened is held, and what was sent
was sent on the cursor that is held, or on one of others. -/
def Bears (others : CursorId → Prop) (s : Session σ) : Event → Prop
  | connected k _ => s.connection = some k
  | executed c _ => s.cursor = some c ∨ others c
  | _ => True

end Event

/-- What the store holds is what its history tells, and none of it was given up; some other cursors are
not among it. -/
structure Session.Kept (start : Holding) (others : CursorId → Prop) (s : Session σ) : Prop where
  replayed : start.replay s.history = some s.holding
  past : ∀ e ∈ s.history, e.Past s
  attached : s.connection = none → s.cursor = none
  connection : ∀ k, s.connection = some k → k < s.nextConnection
  cursor : ∀ c, s.cursor = some c → c < s.nextCursor
  others : ∀ c, others c → s.Spares c

/-- What is held stays so between two sessions. -/
structure HoldsOn (others : CursorId → Prop) (s t : Session σ) : Prop where
  options : t.options = s.options
  connection : ∀ k, s.connection = some k → t.connection = some k
  cursor : ∀ c, s.cursor = some c → t.cursor = some c
  spares : ∀ c, s.Spares c → t.Spares c
  history : ∃ trace, t.history = s.history ++ trace ∧ ∀ e ∈ trace, e.Bears others t

/-- What is held stays so, and if it was kept, it is kept. -/
structure Upholds (start : Holding) (others : CursorId → Prop) (s t : Session σ) : Prop
    extends HoldsOn others s t where
  kept : s.Kept start others → t.Kept start others

variable {start : Holding} {others others' : CursorId → Prop} {s t u : Session σ} {o : Options}
  {k : ConnectionId} {c : CursorId} {e : Event}

/-! ## Events -/

namespace Session.Kept

/-- What is closed is not held. -/
theorem not_closed (h : s.Kept start others) (hc : s.cursor = some c) : .cursorClosed c ∉ s.history :=
  fun hclosed => (h.past _ hclosed).2 hc

theorem not_disconnected (h : s.Kept start others) (hk : s.connection = some k) :
    .disconnected k ∉ s.history :=
  fun hclosed => (h.past _ hclosed).2 hk

theorem of_others (h : s.Kept start others) (hothers : ∀ c, others' c → s.Spares c) :
    s.Kept start others' :=
  { h with others := hothers }

theorem engine (h : s.Kept start others) (e : σ) :
    ({ s with engine := e } : Session σ).Kept start others :=
  ⟨h.replayed, fun e he => by cases e <;> exact h.past _ he, h.attached, h.connection, h.cursor,
    h.others⟩

/-- What is held is kept over an event if the session behind it holds what the event leaves. -/
theorem snoc (h : s.Kept start others) (hhistory : t.history = s.history ++ [e])
    (hbehind : s.holding.behind e = some t.holding) (hpast : e.Past t)
    (hnext : s.nextCursor ≤ t.nextCursor) (hspares : ∀ c, s.Spares c → t.Spares c)
    (hleft : ∀ k, s.Left k → t.Left k) (hattached : t.connection = none → t.cursor = none)
    (hconnection : ∀ k, t.connection = some k → k < t.nextConnection)
    (hcursor : ∀ c, t.cursor = some c → c < t.nextCursor) : t.Kept start others where
  replayed := by
    rw [hhistory, Holding.replay_snoc, h.replayed]
    exact hbehind
  past := by
    intro e' he'
    rw [hhistory] at he'
    rcases List.mem_append.1 he' with he' | he'
    · -- what was given up before does not come back
      have hpast' := h.past e' he'
      cases e' with
      | cursorClosed c => exact hspares c hpast'
      | disconnected k => exact hleft k hpast'
      | opened | executed => exact Nat.lt_of_lt_of_le hpast' hnext
      | _ => trivial
    · rw [List.mem_singleton.1 he']
      exact hpast
  attached := hattached
  connection := hconnection
  cursor := hcursor
  others c hc := hspares c (h.others c hc)

/-- An event that leaves everything held as it is. -/
theorem note (h : s.Kept start others) (hbehind : s.holding.behind e = some s.holding)
    (hpast : e.Past s) : ({ s with history := s.history ++ [e] } : Session σ).Kept start others :=
  h.snoc rfl hbehind (by cases e <;> exact hpast) (Nat.le_refl _) (fun _ h => h) (fun _ h => h)
    h.attached h.connection h.cursor

/-- A connection is opened where none is held. -/
theorem joined (h : s.Kept start others) (hconn : s.connection = none) (place : Target) (e : σ) :
    (s.joined place e).Kept start others := by
  have hcursor : (s.joined place e).cursor = none := h.attached hconn
  have hbehind : s.holding.behind (.connected s.nextConnection place)
      = some (s.joined place e).holding := by
    rw [holding_nothing hconn, holding_connection rfl hcursor]
    rfl
  refine h.snoc rfl hbehind trivial (Nat.le_refl _) (fun _ h => h) (fun k hk => hk.joined place e)
    nofun ?_ h.cursor
  rintro k ⟨⟩
  exact Nat.lt_succ_self _

/-- The store takes a new cursor of the connection that it holds. -/
theorem taken (h : s.Kept start others) (hconn : s.connection = some k) (hcursor : s.cursor = none)
    (e : σ) : (s.taken k e).Kept start others := by
  have hheld : (s.taken k e).connection = some k := hconn
  have hbehind : s.holding.behind (.opened s.nextCursor k none) = some (s.taken k e).holding := by
    rw [holding_connection hconn hcursor, holding_cursor hheld rfl]
    exact if_pos rfl
  have hattached : (s.taken k e).connection = none → (s.taken k e).cursor = none := by
    intro hnone
    rw [hheld] at hnone
    cases hnone
  refine h.snoc rfl hbehind (Nat.lt_succ_self _) (Nat.le_succ _) (fun c hc => hc.taken k e)
    (fun _ h => h) hattached h.connection ?_
  rintro c ⟨⟩
  exact Nat.lt_succ_self _

end Session.Kept

/-! ## What is done on a connection -/

theorem Event.Bears.mono (h : e.Bears others s)
    (hconnection : ∀ k, s.connection = some k → t.connection = some k)
    (hcursor : ∀ c, s.cursor = some c → t.cursor = some c) : e.Bears others t := by
  cases e with
  | connected k target => exact hconnection k h
  | executed c command => exact Or.imp_left (hcursor c) h
  | _ => trivial

/-- One event is all that has happened since. -/
theorem Event.Bears.single (h : e.Bears others t) (hhistory : t.history = s.history ++ [e]) :
    ∃ trace, t.history = s.history ++ trace ∧ ∀ e' ∈ trace, e'.Bears others t := by
  refine ⟨[e], hhistory, fun e' he' => ?_⟩
  rw [List.mem_singleton.1 he']
  exact h

namespace HoldsOn

theorem refl (s : Session σ) : HoldsOn others s s :=
  ⟨rfl, fun _ h => h, fun _ h => h, fun _ h => h, [], (List.append_nil _).symm, by simp⟩

theorem trans (h : HoldsOn others s t) (h' : HoldsOn others t u) : HoldsOn others s u where
  options := h'.options.trans h.options
  connection k hk := h'.connection k (h.connection k hk)
  cursor c hc := h'.cursor c (h.cursor c hc)
  spares c hc := h'.spares c (h.spares c hc)
  history := by
    obtain ⟨trace, hhistory, hbears⟩ := h.history
    obtain ⟨trace', hhistory', hbears'⟩ := h'.history
    refine ⟨trace ++ trace', by rw [hhistory', hhistory, List.append_assoc], fun e he => ?_⟩
    rcases List.mem_append.1 he with he | he
    · exact (hbears e he).mono h'.connection h'.cursor
    · exact hbears' e he

theorem mono (h : HoldsOn others s t) (hothers : ∀ c, others c → others' c) :
    HoldsOn others' s t := by
  obtain ⟨trace, hhistory, hbears⟩ := h.history
  refine ⟨h.options, h.connection, h.cursor, h.spares, trace, hhistory, fun e he => ?_⟩
  have hbear := hbears e he
  cases e with
  | executed c command => exact Or.imp_right (hothers c) hbear
  | _ => exact hbear

end HoldsOn

namespace Upholds

theorem stepwise : Moves.Stepwise (Upholds (σ := σ) start others) where
  refl s := ⟨.refl s, fun h => h⟩
  trans h h' := ⟨h.toHoldsOn.trans h'.toHoldsOn, fun hs => h'.kept (h.kept hs)⟩
  options h := h.options

theorem note (hbehind : s.Kept start others → s.holding.behind e = some s.holding)
    (hpast : s.Kept start others → e.Past s) (hbears : e.Bears others s) :
    Upholds start others s { s with history := s.history ++ [e] } where
  options := rfl
  connection _ h := h
  cursor _ h := h
  spares _ h := h
  history := by
    have hnoted : e.Bears others ({ s with history := s.history ++ [e] } : Session σ) :=
      hbears.mono (fun _ h => h) fun _ h => h
    exact hnoted.single rfl
  kept h := h.note (hbehind h) (hpast h)

theorem engine (e : σ) : Upholds start others s { s with engine := e } where
  options := rfl
  connection _ h := h
  cursor _ h := h
  spares _ h := h
  history := ⟨[], (List.append_nil _).symm, by simp⟩
  kept h := h.engine e

/-- Records of the log and the end of transactions are about nothing that is held. -/
theorem note_other (he : e.cursor? = none) (hattempts : e.attempts = false)
    (hdisconnected : ∀ k, e ≠ .disconnected k) :
    Moves o (Upholds start others) (Store.note e : Action σ Unit) := by
  intro s _
  cases e with
  | logged | committed | notCommitted | rolledBack =>
    exact note (fun _ => by cases s.holding <;> rfl) (fun _ => trivial) trivial
  | connected | notConnected => cases hattempts
  | disconnected k => exact absurd rfl (hdisconnected k)
  | opened | executed | cursorClosed => cases he

theorem log (level : Log.Level) (text : String) :
    Moves o (Upholds start others) (Store.log level text : Action σ Unit) :=
  note_other rfl rfl nofun

theorem perform (f : σ → α × σ) : Moves o (Upholds start others) (Store.perform f) :=
  fun s _ => engine (f s.engine).2

theorem change (f : σ → σ) : Moves o (Upholds start others) (Store.change f) :=
  fun s _ => engine (f s.engine)

theorem attempt (f : σ → Except EngineError α × σ) :
    Moves o (Upholds start others) (Store.attempt f) := by
  refine (perform f).bind stepwise fun x => ?_
  cases x with
  | ok a => exact .pure stepwise a
  | error y => exact .throw stepwise _

theorem joined (hconn : s.connection = none) (place : Target) (e : σ) :
    Upholds start others s (s.joined place e) where
  options := rfl
  connection k hk := by
    rw [hconn] at hk
    cases hk
  cursor _ h := h
  spares _ h := h
  history := by
    have hheld : (Event.connected s.nextConnection place).Bears others (s.joined place e) := rfl
    exact hheld.single rfl
  kept h := h.joined hconn place e

theorem notJoined (hconn : s.connection = none) (place : Target) (y : EngineError) (e : σ) :
    Upholds start others s (s.notJoined place y e) := by
  have hnothing : ({ s with engine := e } : Session σ).holding = .nothing :=
    Session.holding_nothing hconn
  refine stepwise.trans (engine e) (note (fun _ => ?_) (fun _ => trivial) trivial)
  rw [hnothing]
  rfl

theorem taken (hconn : s.connection = some k) (hcursor : s.cursor = none) (e : σ) :
    Upholds start others s (s.taken k e) where
  options := rfl
  connection _ h := h
  cursor c hc := by
    rw [hcursor] at hc
    cases hc
  spares c hc := hc.taken k e
  history := by
    have hopened : (Event.opened s.nextCursor k none).Bears others (s.taken k e) := trivial
    exact hopened.single rfl
  kept h := h.taken hconn hcursor e

end Upholds

/-! ## Connecting -/

section Connecting

variable [Engine σ]

/-- What comes of the connection of a store that holds none. -/
theorem runFrom_client (hconn : s.connection = none) :
    runFrom s (Store.client : Action σ ConnectionId) = match target s.settings with
      | .error cause => (.error (.refused cause), s)
      | .ok place => match Engine.connect s.nextConnection place s.engine with
        | (.error y, e) => (.error (connectError place y), s.notJoined place y e)
        | (.ok (), e) => (.ok s.nextConnection, { s.joined place e with
            history := (s.joined place e).history ++
              [.logged (Log.Level.ofName s.settings.logLevel)
                ("PostgreSQL connection established (db=" ++ place.database ++ ").")] }) := by
  have hconnect : runFrom s (Store.client : Action σ ConnectionId) = runFrom s Store.connect := by
    rw [client, runFrom_bind, runFrom_get]
    simp only [hconn]
  rw [hconnect, Store.connect, runFrom_bind, runFrom_get]
  simp only [runFrom_bind, runFrom_given]
  cases target s.settings with
  | error cause => rfl
  | ok place =>
    simp only [refuse, runFrom_perform]
    generalize Engine.connect s.nextConnection place s.engine = answer
    obtain ⟨x, e⟩ := answer
    cases x <;> rfl

theorem client_cursor : (runFrom s (Store.client : Action σ ConnectionId)).2.cursor = s.cursor := by
  cases hconn : s.connection with
  | some k => rw [client_held hconn]
  | none =>
    rw [runFrom_client hconn]
    cases target s.settings with
    | error cause => rfl
    | ok place =>
      simp only
      generalize Engine.connect s.nextConnection place s.engine = answer
      obtain ⟨x, e⟩ := answer
      cases x <;> rfl

end Connecting

namespace Upholds

variable [Engine σ]

/-- **A connection is opened where nothing is held.** -/
theorem client : Moves o (Upholds start others) (Store.client : Action σ ConnectionId) := by
  intro s ho
  cases hconn : s.connection with
  | some k =>
    rw [client_held hconn]
    exact stepwise.refl s
  | none =>
    rw [runFrom_client hconn]
    cases target s.settings with
    | error cause => exact stepwise.refl s
    | ok place =>
      simp only
      generalize Engine.connect s.nextConnection place s.engine = answer
      obtain ⟨x, e⟩ := answer
      cases x with
      | error y => exact notJoined hconn place y e
      | ok u => exact stepwise.trans (joined hconn place e) (log _ _ _ ho)

/-- A cursor is opened where none is held, on the connection that is held by then. -/
theorem cursorOf : Moves o (Upholds start others) (Store.cursor : Action σ CursorId) := by
  refine Moves.ofSession fun s ho => ?_
  cases hcursor : s.cursor with
  | some c => exact stepwise.refl s
  | none =>
    -- the connection comes first, and it leaves the store without a cursor
    have hclient : Upholds start others s (runFrom s Store.client).2 := client s ho
    have hheld := client_cursor (s := s)
    simp only [runFrom_bind]
    cases hrun : runFrom s (Store.client : Action σ ConnectionId) with
    | mk x t =>
      rw [hrun] at hclient hheld
      cases x with
      | error y => exact hclient
      | ok k =>
        exact stepwise.trans hclient (taken (client_connection hrun) (hheld.trans hcursor) _)

/-- Commands are sent on the cursor that is held, or on one of others. -/
theorem send (hc : s.cursor = some c ∨ others c) (command : Command) :
    Upholds start others s (runFrom s (Store.send c command)).2 := by
  have hnote : Upholds start others s { s with history := s.history ++ [.executed c command] } := by
    refine note (fun _ => s.holding.behind_executed c command) (fun hs => ?_) hc
    rcases hc with hc | hc
    · exact hs.cursor c hc
    · exact (hs.others c hc).1
  rw [Store.send, runFrom_bind, runFrom_note]
  exact stepwise.trans hnote (attempt _ _ rfl)

theorem execute (command : Command) :
    Moves o (Upholds start others) (Store.execute command : Action σ Int) :=
  (log _ _).bind stepwise fun _ => cursorOf.bind_of stepwise fun _ _ _ hrun _ =>
    send (.inl (Frame.cursor_held hrun)) command

theorem rollback : Moves o (Upholds start others) (Store.rollback : Action σ Unit) :=
  client.bind stepwise fun _ => (change _).bind stepwise fun _ => note_other rfl rfl nofun

theorem commit : Moves o (Upholds start others) (Store.commit : Action σ Unit) := by
  refine client.bind stepwise fun k => (perform _).bind stepwise fun x => ?_
  cases x with
  | ok u => exact note_other rfl rfl nofun
  | error y =>
    refine Moves.bind stepwise ?_ fun _ => .throw stepwise _
    exact note_other rfl rfl nofun

theorem recover (x : Error) : Moves o (Upholds start others) (Store.recover x : Action σ Unit) :=
  Moves.recover stepwise rollback x

/-- **Every call of a store upholds what it holds.** -/
theorem carries : Carries o (fun _ => True) (Upholds (σ := σ) start others) := {
  stepwise with
  log := fun level text => log level text
  client := client
  cursorOf := cursorOf
  execute := fun _ => execute _
  fetchAll := fun _ => Moves.fetched stepwise recover
    ((execute _).bind stepwise fun _ => cursorOf.bind stepwise fun _ => attempt _)
  transaction := Moves.transaction stepwise log rollback commit }

end Upholds

end Docbase
