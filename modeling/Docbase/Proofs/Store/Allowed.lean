import Docbase.Proofs.Store.Action

/-!
# What the steps of a store have in common

A store does few things to its session: it notes events, lets the engine go on, and takes a
connection or a cursor into its hold. A relation between sessions that allows these, and the sending
of some commands, holds over whatever is made of them; only for the end of transactions it has to be
looked at on its own.

* `Carries`: the relation holds over what all calls are made of; `Carries.carryOut`, `Carries.ask`: so
  it does over changes and questions, if the commands that these work out are among the allowed ones.
* `Event.settles`: the event ends a transaction.
* `AllowsSteps`: the relation allows all but the end of transactions; `Allows`: and that too.
* `Allows.carries`, `Allows.readerStep`: it holds over calls and over readers.
* `Grows`: the options stay, and all that happens has a property.
-/

namespace Docbase

open Sql Store

variable {σ α : Type} {o : Options} {allowed : Command → Prop} {R : Session σ → Session σ → Prop}

/-- The event is one of those that come up when a connection is opened. -/
def Event.connects : Event → Bool
  | logged .. | connected .. | notConnected .. => true
  | _ => false

theorem Event.cases_of_connects {e : Event} (h : e.connects = true) :
    (∃ level text, e = .logged level text) ∨ (∃ id target, e = .connected id target) ∨
      ∃ target x, e = .notConnected target x := by
  cases e with
  | logged level text => exact .inl ⟨level, text, rfl⟩
  | connected id target => exact .inr (.inl ⟨id, target, rfl⟩)
  | notConnected target x => exact .inr (.inr ⟨target, x, rfl⟩)
  | _ => cases h

/-! ## Connections and transactions -/

namespace Store.Moves

variable [Engine σ]

/-- A store opens a connection only when it holds none. -/
theorem client (hR : Stepwise R)
    (hengine : ∀ s id target, R s { s with engine := (Engine.connect id target s.engine).2 })
    (hnote : ∀ s e, e.connects = true → R s { s with history := s.history ++ [e] })
    (hconnection : ∀ s id, s.connection = none →
      R s { s with connection := some id, nextConnection := id + 1 }) :
    Moves o R (client : Action σ ConnectionId) := by
  refine Moves.ofSession fun s _ => ?_
  cases hc : s.connection with
  | some id => exact hR.refl s
  | none =>
    simp only [Store.connect, runFrom_bind, runFrom_get, runFrom_given]
    cases refuse (target s.settings) with
    | error e => exact hR.refl s
    | ok t =>
      have hconnect := hengine s s.nextConnection t
      simp only [runFrom_perform]
      generalize hx : Engine.connect s.nextConnection t s.engine = p at hconnect
      obtain ⟨x, e⟩ := p
      cases x with
      | error e =>
        simp only [runFrom_bind, runFrom_note, runFrom_throw]
        exact hR.trans hconnect (hnote _ (.notConnected t e) rfl)
      | ok u =>
        simp only [runFrom_bind, runFrom_note, runFrom_modify]
        refine hR.trans hconnect (hR.trans (hnote _ (.connected s.nextConnection t) rfl) ?_)
        exact hR.trans (hconnection _ s.nextConnection hc) (hnote _ (.logged _ _) rfl)

theorem recover (hR : Stepwise R) (hrollback : Moves o R (rollback : Action σ Unit)) (e : Error) :
    Moves o R (recover e : Action σ Unit) := by
  refine (Moves.get hR).bind hR fun s => ?_
  split
  · exact hrollback
  · exact .pure hR _

theorem transaction (hR : Stepwise R) (hlog : ∀ level text, Moves o R (log level text : Action σ Unit))
    (hrollback : Moves o R (rollback : Action σ Unit)) (hcommit : Moves o R (commit : Action σ Unit))
    {body : Action σ α} (hbody : Moves o R body) : Moves o R (transaction body) := by
  refine (Moves.get hR).bind hR fun s => ?_
  split
  · refine Moves.bind hR ?_ fun a => hcommit.bind hR fun _ => .pure hR a
    refine Moves.tryCatch hR hbody fun e => ?_
    exact (hlog _ _).bind hR fun _ => hrollback.bind hR fun _ => .throw hR e
  · exact hbody

/-- What fails may lose the transaction. -/
theorem fetched (hR : Stepwise R) (hrecover : ∀ e, Moves o R (Store.recover e : Action σ Unit))
    {body : Action σ α} (hbody : Moves o R body) :
    Moves o R (MonadExcept.tryCatch body fun e => do Store.recover e; MonadExcept.throw e) :=
  Moves.tryCatch hR hbody fun e => (hrecover e).bind hR fun _ => .throw hR e

end Store.Moves

/-! ## Calls -/

namespace Allows

/-- All commands that a plan may come to are allowed. -/
def Plans (o : Options) (allowed : Command → Prop) (plan : Options → Except Error Plan) : Prop :=
  ∀ p, plan o = .ok p → ∀ c ∈ p.commands, allowed c

/-- The command of a question is allowed. -/
def Asks (o : Options) (allowed : Command → Prop) (query : Options → Except Error Command) : Prop :=
  ∀ c, query o = .ok c → allowed c

end Allows

/-- A relation between sessions that holds over what the calls of a store with some options are made
of, as long as they send no commands but the allowed ones. -/
structure Carries [Engine σ] (o : Options) (allowed : Command → Prop)
    (R : Session σ → Session σ → Prop) : Prop extends Moves.Stepwise R where
  log : ∀ level text, Moves o R (log level text : Action σ Unit)
  client : Moves o R (client : Action σ ConnectionId)
  cursorOf : Moves o R (Store.cursor : Action σ CursorId)
  execute : ∀ {c : Command}, allowed c → Moves o R (execute c)
  fetchAll : ∀ {c : Command}, allowed c → Moves o R (fetchAll c)
  transaction : ∀ {α : Type} {body : Action σ α}, Moves o R body → Moves o R (transaction body)

namespace Carries

open Allows

variable [Engine σ]

/-- What is given back does not change the session. -/
theorem result (hR : Carries o allowed R) {a : Action σ α} {β : Type} (h : Moves o R a)
    (f : α → β) : Moves o R (do pure (f (← a))) :=
  h.bind hR.toStepwise fun _ => .pure hR.toStepwise _

theorem announce (hR : Carries o allowed R) (text : String) : Moves o R (announce text) :=
  (Moves.get hR.toStepwise).bind hR.toStepwise fun _ => hR.log _ _

theorem executeAll (hR : Carries o allowed R) {commands : List Command}
    (h : ∀ c ∈ commands, allowed c) : Moves o R (executeAll commands) := by
  induction commands with
  | nil => exact .pure hR.toStepwise _
  | cons c cs ih =>
    obtain ⟨hc, hcs⟩ : allowed c ∧ ∀ c ∈ cs, allowed c := by simpa using h
    cases cs with
    | nil => exact hR.execute hc
    | cons d ds => exact (hR.execute hc).bind hR.toStepwise fun _ => ih hcs

theorem run (hR : Carries o allowed R) {plan : Plan} (h : ∀ c ∈ plan.commands, allowed c) :
    Moves o R (Store.run plan) :=
  (hR.transaction (hR.executeAll h)).bind hR.toStepwise fun _ => hR.announce _

theorem carryOut (hR : Carries o allowed R) {plan : Options → Except Error Plan}
    (h : Plans o allowed plan) : Moves o R (carryOut plan) :=
  Moves.ofOptions (f := fun o => given (plan o) >>= Store.run)
    (Moves.given_bind hR.toStepwise fun p hp => hR.run (h p hp))

theorem ask (hR : Carries o allowed R) {query : Options → Except Error Command}
    (h : Asks o allowed query) : Moves o R (ask query : Action σ (List Value)) :=
  Moves.ofOptions (f := fun o => given (query o) >>= Store.fetchAll)
    (Moves.given_bind hR.toStepwise fun c hc => hR.fetchAll (h c hc))

theorem namesOf (hR : Carries o allowed R) {query : Options → Except Error Command}
    (h : Asks o allowed query) : Moves o R (namesOf query : Action σ (List Value)) :=
  (Moves.get hR.toStepwise).bind hR.toStepwise fun _ =>
    (hR.ask h).bind hR.toStepwise fun _ => .given hR.toStepwise _

theorem getDoc (hR : Carries o allowed R) {collection id : Value}
    (h : Asks o allowed fun o => o.byIdCommand docColumn collection id) :
    Moves o R (getDoc collection id : Action σ Value) := by
  refine (hR.ask h).bind hR.toStepwise fun rows => ?_
  cases rows with
  | nil => exact .pure hR.toStepwise _
  | cons row rows => exact .given hR.toStepwise _

theorem upsertDoc (hR : Carries o allowed R) {collection id document : Value}
    (hget : Asks o allowed fun o => o.byIdCommand docColumn collection id)
    (hadd : Plans o allowed fun o => o.addDocPlan collection id document)
    (hupdate : Plans o allowed fun o => o.changeDocPlan true collection id document) :
    Moves o R (upsertDoc collection id document : Action σ Unit) := by
  refine (hR.getDoc hget).bind hR.toStepwise fun v => ?_
  split
  · exact hR.carryOut hadd
  · exact hR.carryOut hupdate

end Carries

/-! ## Steps -/

/-- The event ends a transaction. -/
def Event.settles : Event → Bool
  | committed _ | notCommitted .. | rolledBack _ => true
  | _ => false

/-- The event is not the sending of any but the allowed commands. -/
def Event.Within (allowed : Command → Prop) (e : Event) : Prop :=
  ∀ id c, e = .executed id c → allowed c

/-- A relation between sessions that allows what a store with some options does as long as it sends
no commands but the allowed ones; but for the end of transactions. -/
structure AllowsSteps (o : Options) (allowed : Command → Prop) (R : Session σ → Session σ → Prop) :
    Prop extends Moves.Stepwise R where
  note : ∀ s e, e.settles = false → e.Within allowed → R s { s with history := s.history ++ [e] }
  engine : ∀ s e, R s { s with engine := e }
  connection : ∀ s id, s.connection = none →
    R s { s with connection := some id, nextConnection := id + 1 }
  cursor : ∀ s id, R s { s with cursor := some id }
  nextCursor : ∀ s id, R s { s with nextCursor := id }

namespace AllowsSteps

theorem log (hR : AllowsSteps o allowed R) (level : Log.Level) (text : String) :
    Moves o R (log level text) :=
  fun s _ => hR.note s (.logged level text) rfl (by simp [Event.Within])

theorem perform (hR : AllowsSteps o allowed R) (f : σ → α × σ) : Moves o R (perform f) :=
  fun s _ => hR.engine s (f s.engine).2

theorem change (hR : AllowsSteps o allowed R) (f : σ → σ) : Moves o R (change f) :=
  fun s _ => hR.engine s (f s.engine)

theorem attempt (hR : AllowsSteps o allowed R) (f : σ → Except EngineError α × σ) :
    Moves o R (attempt f) := by
  refine (hR.perform f).bind hR.toStepwise fun x => ?_
  cases x with
  | ok a => exact .pure hR.toStepwise a
  | error e => exact .throw hR.toStepwise _

variable [Engine σ]

theorem client (hR : AllowsSteps o allowed R) : Moves o R (client : Action σ ConnectionId) := by
  refine Moves.client hR.toStepwise (fun s _ _ => hR.engine s _) (fun s e he => ?_) hR.connection
  refine hR.note s e ?_ ?_
  · obtain ⟨_, _, rfl⟩ | ⟨_, _, rfl⟩ | ⟨_, _, rfl⟩ := Event.cases_of_connects he <;> rfl
  · rintro id c rfl
    cases he

theorem openCursor (hR : AllowsSteps o allowed R) (connection : ConnectionId)
    (batch : Option Int) : Moves o R (openCursor connection batch : Action σ CursorId) := by
  refine (Moves.get hR.toStepwise).bind hR.toStepwise fun s => ?_
  refine (hR.change _).bind hR.toStepwise fun _ => ?_
  refine Moves.bind hR.toStepwise (fun s _ => hR.note s _ rfl (by simp [Event.Within])) fun _ => ?_
  exact Moves.bind hR.toStepwise (fun s _ => hR.nextCursor s _) fun _ => .pure hR.toStepwise _

theorem cursorOf (hR : AllowsSteps o allowed R) :
    Moves o R (Store.cursor : Action σ CursorId) := by
  refine (Moves.get hR.toStepwise).bind hR.toStepwise fun s => ?_
  cases s.cursor with
  | some id => exact .pure hR.toStepwise id
  | none =>
    refine hR.client.bind hR.toStepwise fun c => (hR.openCursor c none).bind hR.toStepwise fun id => ?_
    exact Moves.bind hR.toStepwise (fun s _ => hR.cursor s id) fun _ => .pure hR.toStepwise id

theorem send (hR : AllowsSteps o allowed R) (id : CursorId) {c : Command} (hc : allowed c) :
    Moves o R (send id c : Action σ Int) := by
  refine Moves.bind hR.toStepwise (fun s _ => hR.note s _ rfl ?_) fun _ => hR.attempt _
  intro _ d hd
  cases hd
  exact hc

theorem closeCursor (hR : AllowsSteps o allowed R) (id : CursorId) :
    Moves o R (closeCursor id : Action σ Unit) :=
  (hR.change _).bind hR.toStepwise fun _ s _ => hR.note s _ rfl (by simp [Event.Within])

theorem execute (hR : AllowsSteps o allowed R) {c : Command} (hc : allowed c) :
    Moves o R (execute c) :=
  (hR.log _ _).bind hR.toStepwise fun _ => hR.cursorOf.bind hR.toStepwise fun id => hR.send id hc

/-- Closing a store lets go of its cursor and of its connection. -/
theorem close (hR : AllowsSteps o allowed R) (hcursor : ∀ s, R s { s with cursor := none })
    (hconnection : ∀ s, R s { s with connection := none }) :
    Moves o R (close : Action σ Unit) := by
  refine (Moves.get hR.toStepwise).bind hR.toStepwise fun s => ?_
  cases s.cursor
  case' some id =>
    refine (hR.closeCursor id).bind hR.toStepwise fun _ => ?_
    refine Moves.bind hR.toStepwise (fun s _ => hcursor s) fun _ => ?_
  -- with or without a cursor, the connection is looked at next
  all_goals
    refine (Moves.get hR.toStepwise).bind hR.toStepwise fun s => ?_
    cases s.connection with
    | none => exact .pure hR.toStepwise _
    | some id =>
      refine (hR.change _).bind hR.toStepwise fun _ => ?_
      refine Moves.bind hR.toStepwise (fun s _ => hR.note s _ rfl (by simp [Event.Within])) fun _ => ?_
      exact fun s _ => hconnection s

end AllowsSteps

variable [Engine σ]

/-! ## Transactions and readers -/

/-- A relation between sessions that allows what a store with some options does as long as it sends
no commands but the allowed ones. -/
structure Allows (o : Options) (allowed : Command → Prop) (R : Session σ → Session σ → Prop) :
    Prop extends AllowsSteps o allowed R where
  recover : ∀ e, Moves o R (recover e)
  transaction : ∀ {α : Type} {body : Action σ α}, Moves o R body → Moves o R (transaction body)

/-- A relation that does not tell the end of transactions from other events allows it too. -/
theorem AllowsSteps.allows (hR : AllowsSteps o allowed R)
    (hnote : ∀ s e, e.settles = true → R s { s with history := s.history ++ [e] }) :
    Allows o allowed R := by
  have hsettle : ∀ e, e.settles = true → Moves o R (Store.note e : Action σ Unit) :=
    fun e he s _ => hnote s e he
  have hrollback : Moves o R (rollback : Action σ Unit) :=
    hR.client.bind hR.toStepwise fun c =>
      (hR.change _).bind hR.toStepwise fun _ => hsettle _ rfl
  have hcommit : Moves o R (commit : Action σ Unit) := by
    refine hR.client.bind hR.toStepwise fun c => ?_
    refine (hR.perform _).bind hR.toStepwise fun x => ?_
    cases x with
    | ok u => exact hsettle _ rfl
    | error x => exact (hsettle _ rfl).bind hR.toStepwise fun _ => .throw hR.toStepwise _
  exact { hR with
    recover := Moves.recover hR.toStepwise hrollback
    transaction := Moves.transaction hR.toStepwise hR.log hrollback hcommit }

namespace Allows

theorem carries (hR : Allows o allowed R) : Carries o allowed R := {
  hR.toStepwise with
  log := hR.log
  client := hR.client
  cursorOf := hR.cursorOf
  execute := hR.execute
  fetchAll := fun hc => Moves.fetched hR.toStepwise hR.recover
    ((hR.execute hc).bind hR.toStepwise fun _ =>
      hR.cursorOf.bind hR.toStepwise fun _ => hR.attempt _)
  transaction := hR.transaction }

theorem guarded (hR : Allows o allowed R) (id : CursorId) {body : Action σ α} (h : Moves o R body) :
    Moves o R (Reader.guarded id body) := by
  have hthrow : ∀ {β : Type} (e : Error), Moves o R (throw e : Action σ β) :=
    fun e => .throw hR.toStepwise e
  refine Moves.tryCatch hR.toStepwise h fun e => ?_
  refine Moves.bind hR.toStepwise ?_ fun _ => (hR.closeCursor id).bind hR.toStepwise fun _ => hthrow e
  refine Moves.tryCatch hR.toStepwise (hR.recover e) fun e => ?_
  exact (hR.closeCursor id).bind hR.toStepwise fun _ => hthrow e

theorem advance (hR : Allows o allowed R) (id : CursorId) (shape : Shape) :
    Moves o R (Reader.advance id shape : Action σ (Option Value × Reader)) := by
  refine (Moves.get hR.toStepwise).bind hR.toStepwise fun s => ?_
  refine (hR.attempt _).bind hR.toStepwise fun row => ?_
  cases row with
  | none => exact (hR.closeCursor id).bind hR.toStepwise fun _ => .pure hR.toStepwise _
  | some row => exact (Moves.given hR.toStepwise _).bind hR.toStepwise fun _ => .pure hR.toStepwise _

/-- Only a reader that has sent nothing yet still has to send its command. -/
theorem readerStep (hR : Allows o allowed R) {r : Reader}
    (h : ∀ query, r = .pending query → allowed query.command) :
    Moves o R (r.step : Action σ (Option Value × Reader)) := by
  cases r with
  | done => exact .pure hR.toStepwise _
  | «open» id shape => exact hR.guarded id (hR.advance id shape)
  | pending query =>
    refine (hR.log _ _).bind hR.toStepwise fun _ => ?_
    refine hR.client.bind hR.toStepwise fun c => ?_
    refine (Moves.get hR.toStepwise).bind hR.toStepwise fun s => ?_
    refine (hR.openCursor c _).bind hR.toStepwise fun id => hR.guarded id ?_
    exact (hR.send id (h query rfl)).bind hR.toStepwise fun _ => hR.advance id query.shape

theorem readerClose (hR : Allows o allowed R) (r : Reader) :
    Moves o R (r.close : Action σ Reader) := by
  cases r with
  | «open» id shape => exact (hR.closeCursor id).bind hR.toStepwise fun _ => .pure hR.toStepwise _
  | pending | done => exact .pure hR.toStepwise _

end Allows

/-! ## What happens -/

/-- The options stay, and all that happens has a property. -/
structure Grows (P : Event → Prop) (s t : Session σ) : Prop where
  options : t.options = s.options
  history : ∃ trace, t.history = s.history ++ trace ∧ ∀ e ∈ trace, P e

namespace Grows

variable {P : Event → Prop}

omit [Engine σ] in
theorem same {s t : Session σ} (ho : t.options = s.options) (hh : t.history = s.history) :
    Grows P s t :=
  ⟨ho, [], by simp [hh], by simp⟩

omit [Engine σ] in
theorem note {e : Event} (he : P e) (s : Session σ) :
    Grows P s { s with history := s.history ++ [e] } :=
  ⟨rfl, [e], rfl, by simpa using he⟩

omit [Engine σ] in
theorem stepwise : Moves.Stepwise fun s t : Session σ => Grows P s t where
  refl _ := same rfl rfl
  trans h k := by
    obtain ⟨trace, hh, hq⟩ := h.history
    obtain ⟨more, hh', hq'⟩ := k.history
    refine ⟨k.options.trans h.options, trace ++ more, by rw [hh', hh, List.append_assoc], ?_⟩
    intro e he
    rcases List.mem_append.1 he with he | he
    · exact hq e he
    · exact hq' e he
  options h := h.options

omit [Engine σ] in
theorem steps (hP : ∀ e, e.settles = false → e.Within allowed → P e) :
    AllowsSteps o allowed fun s t : Session σ => Grows P s t where
  toStepwise := stepwise
  note s e he hw := note (hP e he hw) s
  engine _ _ := same rfl rfl
  connection _ _ _ := same rfl rfl
  cursor _ _ := same rfl rfl
  nextCursor _ _ := same rfl rfl

/-- All that happens is allowed, if only the sending of commands is restricted. -/
theorem allows (hP : ∀ e, e.Within allowed → P e) :
    Allows o allowed fun s t : Session σ => Grows P s t := by
  have hsteps : AllowsSteps o allowed fun s t : Session σ => Grows P s t := steps fun e _ => hP e
  refine hsteps.allows fun s e he => note (hP e ?_) s
  rintro id c rfl
  cases he

/-- Closing a store sends nothing, and ends no transaction. -/
theorem close (hP : ∀ e, e.settles = false → e.Within (fun _ => False) → P e) :
    Moves o (Grows P) (Store.close : Action σ Unit) :=
  (steps hP).close (fun _ => same rfl rfl) fun _ => same rfl rfl

end Grows

end Docbase
