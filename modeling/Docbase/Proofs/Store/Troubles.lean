import Docbase.Proofs.Store.Transaction
import Docbase.Proofs.Store.Unhandled

/-!
# Troubles

A change, a question and a reader try something, and handle the error if it fails: they may take
changes back, on the connection of the store. If the store holds none, that opens one first.

* `Trouble`: an error that came up in what is tried.
* `Handling`: what is done about it, and with what error it ends; `Handled.rollback`: **changes are taken
  back on the connection of the store, which is opened if there is none**.
* `Course`: something is done without trouble, or up to its trouble, which is handled; `Meets`: what
  comes of an action is a course with the trouble.
* `Meets.recovering`, `Meets.guarded`, `Meets.transaction`: so it is for all that handle errors.
-/

namespace Docbase

open Sql Store

variable {σ α β : Type}

/-! ## Troubles -/

/-- An error that came up in what is tried. -/
structure Trouble (σ : Type) where
  error : Error
  /-- The session in which it came up. -/
  session : Session σ
  /-- What was tried is a change, so that every error takes it back. -/
  changing : Bool
  /-- The cursor that the last command was sent on. -/
  cursor : Option CursorId

/-- The cursor that the last command was sent on. -/
def lastSent (trace : List Event) : Option CursorId := (trace.filterMap Event.sentOn?).getLast?

namespace Trouble

/-- The error takes changes back. -/
def takesBack (f : Trouble σ) : Bool :=
  f.session.options.transactional && (f.changing || losesTransaction f.error)

/-- The last command was sent on a cursor of the connection. -/
def On (f : Trouble σ) (k : ConnectionId) : Prop :=
  ∃ c b, f.cursor = some c ∧ .opened c k b ∈ f.session.history

/-- The trouble with an action, if there is some. A reader that goes on has sent its command before, on
its own cursor. -/
def of? (changing : Bool) (own : Option CursorId) (s : Session σ) (a : Action σ α) :
    Option (Trouble σ) :=
  match runFrom s a with
  | (.ok _, _) => none
  | (.error e, t) =>
    some ⟨e, t, changing, own <|> lastSent (t.history.drop s.history.length)⟩

end Trouble

/-- What is done about an error, given the connection that is held, the place to connect to and
whether changes are taken back: the attempts to connect and what is taken back, and the error in the
end. -/
inductive Handling (held : Option ConnectionId) (place : Except Cause Target) (takes : Bool)
    (e : Error) : List Event → Error → Prop
  | passed : takes = false → Handling held place takes e [] e
  | undone {k : ConnectionId} : takes = true → held = some k →
      Handling held place takes e [.rolledBack k] e
  /-- A connection is opened for nothing but taking changes back there. -/
  | reopened {k : ConnectionId} {target : Target} : takes = true → held = none →
      place = .ok target → Handling held place takes e [.connected k target, .rolledBack k] e
  /-- The attempt fails, and its error takes the place of the first. -/
  | unreachable {target : Target} {y : EngineError} : takes = true → held = none →
      place = .ok target → Handling held place takes e [.notConnected target y] (connectError target y)
  /-- So does the error of a database that is not set. -/
  | nowhere {cause : Cause} : takes = true → held = none → place = .error cause →
      Handling held place takes e [] (.refused cause)

/-- The events of the handling of an error. -/
def Event.handles (e : Event) : Bool := e.attempts || e.undoes

/-- The trouble was handled, with an error in the end. -/
structure Handled (f : Trouble σ) (x : Option Error) (u : Session σ) : Prop where
  history : ∃ trace raised, u.history = f.session.history ++ trace ∧ x = some raised ∧
    Handling f.session.connection (target f.session.settings) f.takesBack f.error
      (trace.filter Event.handles) raised
  coherent : u.Coherent
  passed : f.takesBack = false → u.connection = f.session.connection ∧ u.cursor = f.session.cursor

/-- What comes of a call: it is done without trouble, or up to its trouble, which is handled. `own` is
the cursor of a reader that goes on; what else was sent was sent on the connection that is held. -/
inductive Course (own : Option CursorId) (s : Session σ) :
    Option (Trouble σ) → Option Error → Session σ → Prop
  | smooth {x : Option Error} {u : Session σ} : Unhandled s x u → Course own s none x u
  | troubled {f : Trouble σ} {x : Option Error} {u : Session σ} :
      Unhandled s (some f.error) f.session → Handled f x u →
        (∀ c, own = some c → f.cursor = some c) →
        (own = none → ∀ c, f.cursor = some c → f.session.InReach c) → Course own s (some f) x u

/-- What comes first is done without handling an error. -/
theorem Course.behind {own : Option CursorId} {s t u : Session σ} {trouble : Option (Trouble σ)}
    {x : Option Error} (h : Unhandled s none t) (h' : Course own t trouble x u) :
    Course own s trouble x u := by
  cases h' with
  | smooth hu => exact .smooth (h.trans hu)
  | troubled hwork hhandled hown hsent => exact .troubled (h.trans hwork) hhandled hown hsent

theorem Course.coherent {own : Option CursorId} {s u : Session σ} {trouble : Option (Trouble σ)}
    {x : Option Error} (h : Course own s trouble x u) : u.Coherent := by
  cases h with
  | smooth hu => exact hu.coherent
  | troubled _ hhandled => exact hhandled.coherent

/-! ## What is done about an error -/

namespace Handled

variable {f : Trouble σ} {x : Option Error} {t u : Session σ}

/-- An error is passed on if it does not take changes back. -/
theorem passing (h : f.takesBack = false) (hf : f.session.Coherent) :
    Handled f (some f.error) f.session where
  history := ⟨[], f.error, (List.append_nil _).symm, rfl, .passed h⟩
  coherent := hf
  passed _ := ⟨rfl, rfl⟩

/-- What is noted to handle an error comes behind what was noted before. -/
theorem noted {before more : List Event} {raised : Error} (htakes : f.takesBack = true)
    (hhistory : t.history = f.session.history ++ before)
    (hbefore : before.filter Event.handles = []) (hu : u.history = t.history ++ more)
    (hcoherent : u.Coherent)
    (hhandling : Handling f.session.connection (target f.session.settings) f.takesBack f.error
      (more.filter Event.handles) raised) : Handled f (some raised) u where
  history := by
    refine ⟨before ++ more, raised, ?_, rfl, ?_⟩
    · rw [hu, hhistory, List.append_assoc]
    · rw [List.filter_append, hbefore]
      exact hhandling
  coherent := hcoherent
  passed h := by
    rw [htakes] at h
    cases h

variable [Engine σ]

theorem closed (h : Handled f x u) (c : CursorId) : Handled f x (u.closed c) where
  history := by
    obtain ⟨trace, raised, hhistory, hx, hhandling⟩ := h.history
    refine ⟨trace ++ [.cursorClosed c], raised, ?_, hx, ?_⟩
    · rw [Session.closed, hhistory, List.append_assoc]
    · rw [List.filter_append, show [Event.cursorClosed c].filter Event.handles = [] from rfl,
        List.append_nil]
      exact hhandling
  coherent d hd := by
    obtain ⟨k, b, hk, hopened⟩ := h.coherent d hd
    exact ⟨k, b, hk, List.mem_append_left _ hopened⟩
  passed := h.passed

/-- **Changes are taken back on the connection of the store**, which is opened if there is none. -/
theorem rollback (htakes : f.takesBack = true) (ht : t.Coherent)
    (hconn : t.connection = f.session.connection) (hsettings : t.settings = f.session.settings)
    {before : List Event} (hhistory : t.history = f.session.history ++ before)
    (hbefore : before.filter Event.handles = []) :
    Handled f (some ((errorOf (runFrom t Store.rollback).1).getD f.error))
      (runFrom t Store.rollback).2 := by
  cases hheld : t.connection with
  | some k =>
    have hrun : runFrom t Store.rollback = (.ok (), { t with
        engine := Engine.rollback k t.engine
        history := t.history ++ [.rolledBack k] }) := by
      rw [Store.rollback, runFrom_bind, client_held hheld]
      rfl
    rw [hrun]
    refine noted htakes hhistory hbefore rfl (fun c hc => ?_) (.undone htakes (hconn ▸ hheld))
    obtain ⟨j, b, hj, hopened⟩ := ht c hc
    exact ⟨j, b, hj, List.mem_append_left _ hopened⟩
  | none =>
    have hnone : f.session.connection = none := hconn ▸ hheld
    have hcursor : t.cursor = none := ht.cursor_none hheld
    rw [Store.rollback, runFrom_bind, client, runFrom_bind, runFrom_get]
    simp only [hheld, Store.connect, runFrom_bind, runFrom_get, runFrom_given]
    cases htarget : target t.settings with
    | error cause =>
      have hplace : target f.session.settings = .error cause := hsettings ▸ htarget
      exact noted htakes hhistory hbefore (List.append_nil _).symm ht (.nowhere htakes hnone hplace)
    | ok place =>
      have hplace : target f.session.settings = .ok place := hsettings ▸ htarget
      simp only [refuse, runFrom_perform]
      generalize Engine.connect t.nextConnection place t.engine = answer
      obtain ⟨y, e⟩ := answer
      cases y with
      | error y =>
        have hhandling : Handling f.session.connection (target f.session.settings) f.takesBack f.error
            (List.filter Event.handles [.notConnected place y]) (connectError place y) :=
          .unreachable htakes hnone hplace
        exact noted htakes hhistory hbefore rfl (Session.coherent_of_none hcursor) hhandling
      | ok _ =>
        have hhandling : ∀ level text, Handling f.session.connection (target f.session.settings)
            f.takesBack f.error (List.filter Event.handles [.connected t.nextConnection place,
              .logged level text, .rolledBack t.nextConnection]) f.error :=
          fun _ _ => .reopened htakes hnone hplace
        refine noted htakes hhistory hbefore ?_ (Session.coherent_of_none hcursor)
          (hhandling (Log.Level.ofName t.settings.logLevel)
            ("PostgreSQL connection established (db=" ++ place.database ++ ")."))
        exact (List.append_assoc ..).trans (List.append_assoc ..)

/-- An error of a reading takes changes back if it has lost the transaction. -/
theorem recover (hchanging : f.changing = false) (hf : f.session.Coherent) :
    Handled f (some ((errorOf (runFrom f.session (Store.recover f.error)).1).getD f.error))
      (runFrom f.session (Store.recover f.error)).2 := by
  have htakes : (losesTransaction f.error && f.session.options.transactional) = f.takesBack := by
    rw [Trouble.takesBack, hchanging, Bool.false_or, Bool.and_comm]
  rw [Store.recover, runFrom_bind, runFrom_get]
  simp only [htakes]
  cases h : f.takesBack with
  | true => exact rollback h hf rfl rfl (List.append_nil _).symm rfl
  | false => exact passing h hf

end Handled

/-! ## What is tried -/

/-- What comes of the action in the session is a course with the trouble. -/
def Meets (own : Option CursorId) (s : Session σ) (trouble : Option (Trouble σ)) (a : Action σ α) : Prop :=
  s.Coherent → Course own s trouble (errorOf (runFrom s a).1) (runFrom s a).2

namespace Meets

variable {own : Option CursorId} {s t : Session σ} {trouble : Option (Trouble σ)}

theorem straight {a : Action σ α} (h : Straight s a) : Meets own s none a := fun hs => .smooth (h hs)

/-- What comes behind handles no errors. -/
theorem bind {a : Action σ α} {f : α → Action σ β} (h : Meets own s trouble a)
    (hf : ∀ x t, Straight t (f x)) : Meets own s trouble (a >>= f) := by
  intro hs
  have ha := h hs
  rw [runFrom_bind]
  cases hrun : runFrom s a with
  | mk x t =>
    rw [hrun] at ha
    cases ha with
    | smooth ht =>
      cases x with
      | error e => exact .smooth ht
      | ok x => exact .smooth (ht.trans (hf x t ht.coherent))
    | troubled hwork hhandled hown hsent =>
      obtain ⟨trace, raised, -, hx, -⟩ := hhandled.history
      cases x with
      | error e => exact .troubled hwork hhandled hown hsent
      | ok x => cases hx

/-- What comes first handles no errors, and does not fail. -/
theorem after {a : Action σ α} {f : α → Action σ β} {x : α} (h : Straight s a)
    (hrun : runFrom s a = (.ok x, t)) (hf : Meets own t trouble (f x)) :
    Meets own s trouble (a >>= f) := by
  intro hs
  have ha := h hs
  rw [runFrom_bind, hrun]
  rw [hrun] at ha
  exact .behind ha (hf ha.coherent)

theorem ofSession {f : Session σ → Action σ α} (h : Meets own s trouble (f s)) :
    Meets own s trouble ((MonadState.get : Action σ (Session σ)) >>= f) :=
  after (fun hs => Unhandled.refl hs _) rfl h

/-- What cannot be worked out is no trouble. -/
theorem given_bind {x : Except Error α} {f : α → Action σ β} (herror : ∀ e, x = .error e → trouble = none)
    (hok : ∀ a, x = .ok a → Meets own s trouble (f a)) : Meets own s trouble (Store.given x >>= f) := by
  cases x with
  | error e =>
    rw [herror e rfl]
    exact fun hs => .smooth (Unhandled.refl hs _)
  | ok a => exact after (.given _) rfl (hok a rfl)

/-- An action that tries a body meets the trouble of the body, if it handles what is no success of it. -/
theorem tried {changing : Bool} {body : Action σ β} {a : Action σ α} (hbody : Straight s body)
    (hok : ∀ x t, runFrom s body = (.ok x, t) → t.Coherent →
      Unhandled t (errorOf (runFrom s a).1) (runFrom s a).2)
    (herror : ∀ f : Trouble σ, f.changing = changing → f.session.Coherent →
      f.session.options = s.options → runFrom s body = (.error f.error, f.session) →
        Handled f (errorOf (runFrom s a).1) (runFrom s a).2) :
    Meets own s (Trouble.of? changing own s body) a := by
  intro hs
  have hwork := hbody hs
  cases hrun : runFrom s body with
  | mk x t =>
    rw [hrun] at hwork
    cases x with
    | ok x =>
      have htrouble : Trouble.of? changing own s body = none := by rw [Trouble.of?, hrun]
      rw [htrouble]
      exact .smooth (hwork.trans (hok x t hrun hwork.coherent))
    | error e =>
      have htrouble : Trouble.of? changing own s body
          = some ⟨e, t, changing, own <|> lastSent (t.history.drop s.history.length)⟩ := by
        rw [Trouble.of?, hrun]
      rw [htrouble]
      refine .troubled hwork (herror _ rfl hwork.coherent hwork.options hrun) ?_ ?_
      · rintro c rfl
        rfl
      · rintro rfl c hc
        -- the last that was sent is one of those that were
        obtain ⟨trace, hhistory, -, -, hsent⟩ := hwork.history
        have hlast : (trace.filterMap Event.sentOn?).getLast? = some c := by
          have hdrop : t.history.drop s.history.length = trace := by rw [hhistory, List.drop_left]
          rw [← hdrop]
          exact hc
        obtain ⟨event, hevent, hon⟩ := List.mem_filterMap.1 (List.mem_of_getLast? hlast)
        exact hsent event hevent c hon

variable [Engine σ]

/-- What handles the errors of a reading. -/
theorem recovering {body : Action σ α} (hbody : Straight s body) :
    Meets own s (Trouble.of? false own s body) (tryCatch body fun e => do recover e; throw e) := by
  refine tried hbody (fun x t hrun ht => ?_) fun f hchanging hf _ hrun => ?_
  · rw [runFrom_tryCatch, hrun]
    exact Unhandled.refl ht _
  · have hhandled := Handled.recover hchanging hf
    rw [runFrom_tryCatch, hrun]
    simp only [runFrom_bind]
    cases hrecover : runFrom f.session (recover f.error) with
    | mk y u =>
      rw [hrecover] at hhandled
      cases y <;> exact hhandled

/-- A reader closes its cursor behind that. -/
theorem guarded (c : CursorId) {body : Action σ α} (hbody : Straight s body) :
    Meets own s (Trouble.of? false own s body) (Reader.guarded c body) := by
  refine tried hbody (fun x t hrun ht => ?_) fun f hchanging hf _ hrun => ?_
  · rw [Reader.guarded, runFrom_tryCatch, hrun]
    exact Unhandled.refl ht _
  · have hhandled := (Handled.recover hchanging hf).closed c
    rw [Reader.guarded, runFrom_tryCatch, hrun]
    simp only [runFrom_bind, runFrom_tryCatch]
    cases hrecover : runFrom f.session (recover f.error) with
    | mk y u =>
      rw [hrecover] at hhandled
      cases y <;> exact hhandled

theorem transaction {body : Action σ α} (hbody : Straight s body) :
    Meets none s (Trouble.of? true none s body) (transaction body) := by
  cases ht : s.options.transactional with
  | false =>
    -- the errors of others are passed on
    refine tried hbody (fun x t hrun ht' => ?_) fun f _ hf hoptions hrun => ?_
    · rw [transaction_plain ht, hrun]
      exact Unhandled.refl ht' _
    · rw [transaction_plain ht, hrun]
      exact .passing (by rw [Trouble.takesBack, hoptions, ht, Bool.false_and]) hf
  | true =>
    have htransaction : runFrom s (Store.transaction body) = match runFrom s body with
        | (.ok x, t) => runFrom t (do commit; pure x)
        | (.error e, t) => runFrom t (do log .warning rollbackWarning; rollback; throw e) := by
      rw [Store.transaction, runFrom_bind, runFrom_get]
      simp only [ht, if_true, runFrom_bind, runFrom_tryCatch]
      cases runFrom s body with
      | mk x t =>
        cases x with
        | ok x => rfl
        | error e =>
          simp only [runFrom_log]
          rw [← rollbackWarning]
          cases runFrom { t with history := t.history ++ [.logged .warning rollbackWarning] }
            (rollback : Action σ Unit) with
          | mk y u => cases y <;> rfl
    refine tried hbody (fun x t hrun ht' => ?_) fun f hchanging hf hoptions hrun => ?_
    · rw [htransaction, hrun]
      exact (Straight.commit.bind fun _ _ _ _ => .pure x) ht'
    · have htakes : f.takesBack = true := by
        rw [Trouble.takesBack, hoptions, ht, hchanging]
        rfl
      rw [htransaction, hrun]
      simp only [runFrom_bind, runFrom_log]
      have hwarned : ({ f.session with history := f.session.history
          ++ [.logged .warning rollbackWarning] } : Session σ).Coherent :=
        (Straight.log .warning rollbackWarning hf).coherent
      have hhandled := Handled.rollback htakes hwarned rfl rfl rfl rfl
      cases hrollback : runFrom { f.session with history := f.session.history
          ++ [.logged .warning rollbackWarning] } rollback with
      | mk y u =>
        rw [hrollback] at hhandled
        cases y <;> exact hhandled

end Meets

end Docbase
