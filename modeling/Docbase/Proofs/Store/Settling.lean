import Docbase.Proofs.Store.Iteration

/-!
# Which calls end a transaction

A reader and the changes of a store share one connection. When a transaction ends on it, a database
gives the rows of a reader up. So it matters which calls end one.

* `Ended`: the ends of transactions between two sessions.
* `Reads`: an action that ends none, unless it fails with an error of the engine's own.
* `Changes`: **an action that ends exactly one if it succeeds, and at most one if it fails**.
* `Site.step_settles`: what each call is.
-/

namespace Docbase

open Sql Store

/-- The connection whose transaction the event ends. -/
def Event.settledOn? : Event → Option ConnectionId
  | committed k | notCommitted k _ | rolledBack k => some k
  | _ => none

variable {σ α β : Type} {o : Options}

/-- Every cursor was opened on the connection that the store holds. -/
def Session.Attached (s : Session σ) : Prop :=
  ∀ c k b, .opened c k b ∈ s.history → s.connection = some k

/-- Between the two sessions some transactions ended, all of them on the connection of the store,
which it keeps. -/
structure Ended (settled : List Event) (s t : Session σ) : Prop where
  options : t.options = s.options
  connection : ∀ k, s.connection = some k → t.connection = some k
  attached : s.Attached → t.Attached
  history : ∃ trace, t.history = s.history ++ trace ∧ trace.filter Event.settles = settled
  held : ∀ e ∈ settled, ∃ k, e.settledOn? = some k ∧ t.connection = some k

namespace Ended

variable {s t u : Session σ} {settled more : List Event}

theorem refl (s : Session σ) : Ended [] s s where
  options := rfl
  connection _ h := h
  attached h := h
  history := ⟨[], (List.append_nil _).symm, rfl⟩
  held _ h := absurd h List.not_mem_nil

theorem trans (h : Ended settled s t) (k : Ended more t u) : Ended (settled ++ more) s u where
  options := k.options.trans h.options
  connection id hid := k.connection id (h.connection id hid)
  attached hs := k.attached (h.attached hs)
  history := by
    obtain ⟨trace, hhistory, hsettled⟩ := h.history
    obtain ⟨trace', hhistory', hsettled'⟩ := k.history
    refine ⟨trace ++ trace', ?_, ?_⟩
    · rw [hhistory', hhistory, List.append_assoc]
    · rw [List.filter_append, hsettled, hsettled']
  held e he := by
    obtain he | he := List.mem_append.1 he
    · obtain ⟨id, hid, hconn⟩ := h.held e he
      exact ⟨id, hid, k.connection id hconn⟩
    · exact k.held e he

/-- No transaction ends. -/
theorem stepwise : Moves.Stepwise (Ended (σ := σ) []) where
  refl := refl
  trans h k := h.trans k
  options h := h.options

theorem then_quiet (h : Ended settled s t) (k : Ended [] t u) : Ended settled s u := by
  have htrans := h.trans k
  rwa [List.append_nil] at htrans

theorem engine (e : σ) (s : Session σ) : Ended [] s { s with engine := e } :=
  ⟨rfl, fun _ h => h, fun h => h, ⟨[], (List.append_nil _).symm, rfl⟩,
    fun _ h => absurd h List.not_mem_nil⟩

/-- An event that ends no transaction; a cursor is opened on the connection of the store. -/
theorem note (e : Event) (hquiet : e.settles = false)
    (hopened : ∀ c k b, e = .opened c k b → s.connection = some k) :
    Ended [] s { s with history := s.history ++ [e] } where
  options := rfl
  connection _ h := h
  attached hs := by
    intro c k b hmem
    obtain hmem | hmem := List.mem_append.1 hmem
    · exact hs c k b hmem
    · exact hopened c k b (List.mem_singleton.1 hmem).symm
  history := ⟨[e], rfl, by rw [List.filter_cons_of_neg (by rw [hquiet]; simp), List.filter_nil]⟩
  held _ h := absurd h List.not_mem_nil

/-- The cursor of a reader is opened on the connection of the store. -/
theorem started {k : ConnectionId} (hconn : s.connection = some k) (command : Command) (e : σ) :
    Ended [] s (s.started k command e) := by
  have hopened : Ended [] s { s with history := s.history
      ++ [.opened s.nextCursor k (some s.options.batch)] } := by
    refine note _ rfl ?_
    rintro c j b h
    cases h
    exact hconn
  have hsent := hopened.trans (note (.executed s.nextCursor command) rfl fun _ _ _ h => by cases h)
  refine ⟨rfl, hsent.connection, ?_, ?_, hsent.held⟩
  · intro hs c j b hmem
    refine hsent.attached hs c j b ?_
    rw [List.append_assoc]
    exact hmem
  · exact ⟨[.opened s.nextCursor k (some s.options.batch), .executed s.nextCursor command], rfl, rfl⟩

/-- An event that ends a transaction on the connection of the store. -/
theorem settle {k : ConnectionId} (e : Event) (hsettles : e.settles = true)
    (hon : e.settledOn? = some k) (hconn : s.connection = some k) :
    Ended [e] s { s with history := s.history ++ [e] } where
  options := rfl
  connection _ h := h
  attached hs := by
    intro c j b hmem
    obtain hmem | hmem := List.mem_append.1 hmem
    · exact hs c j b hmem
    · rw [← List.mem_singleton.1 hmem] at hsettles
      cases hsettles
  history := ⟨[e], rfl, by rw [List.filter_cons_of_pos hsettles, List.filter_nil]⟩
  held e' he' := by
    rw [List.mem_singleton.1 he']
    exact ⟨k, hon, hconn⟩

end Ended

/-! ## Actions that end no transaction -/

namespace Store.Moves

theorem log_quiet (level : Log.Level) (text : String) :
    Moves o (Ended []) (log level text : Action σ Unit) := by
  intro s _
  exact Ended.note (.logged level text) rfl fun _ _ _ h => by cases h

theorem attempt_quiet (f : σ → Except EngineError α × σ) : Moves o (Ended []) (attempt f) := by
  refine Moves.bind Ended.stepwise (fun s _ => Ended.engine _ s) fun x => ?_
  cases x with
  | ok a => exact .pure Ended.stepwise a
  | error e => exact .throw Ended.stepwise _

variable [Engine σ]

theorem client_quiet : Moves o (Ended []) (Store.client : Action σ ConnectionId) := by
  refine Moves.client Ended.stepwise (fun s id target => Ended.engine _ s) ?_ ?_
  · intro s e he
    refine Ended.note e ?_ ?_
    · obtain ⟨_, _, rfl⟩ | ⟨_, _, rfl⟩ | ⟨_, _, rfl⟩ := Event.cases_of_connects he <;> rfl
    · rintro c k b rfl
      cases he
  · intro s id hnone
    refine ⟨rfl, ?_, ?_, ⟨[], (List.append_nil _).symm, rfl⟩, fun _ h => absurd h List.not_mem_nil⟩
    · intro k hk
      rw [hnone] at hk
      cases hk
    · intro hs c k b hmem
      have hk := hs c k b hmem
      rw [hnone] at hk
      cases hk

/-- What is done on the connection of the store comes after it is there. -/
theorem onClient {f : ConnectionId → Action σ α}
    (h : ∀ k s, s.options = o → s.connection = some k → Ended [] s (runFrom s (f k)).2) :
    Moves o (Ended []) (Store.client >>= f) := by
  intro s ho
  have hclient : Ended [] s (runFrom s Store.client).2 := client_quiet s ho
  rw [runFrom_bind]
  cases hrun : runFrom s (Store.client : Action σ ConnectionId) with
  | mk x t =>
    rw [hrun] at hclient
    cases x with
    | error e => exact hclient
    | ok k => exact hclient.trans (h k t (hclient.options.trans ho) (client_connection hrun))

theorem openCursor_quiet {s : Session σ} {k : ConnectionId} (hconn : s.connection = some k)
    (batch : Option Int) : Ended [] s (runFrom s (openCursor k batch)).2 := by
  have hopened : Ended [] s { s with history := s.history ++ [.opened s.nextCursor k batch] } := by
    refine Ended.note _ rfl ?_
    rintro c j b h
    cases h
    exact hconn
  -- the engine and the number of the next cursor are neither here nor there
  exact ⟨rfl, hopened.connection, hopened.attached, hopened.history, hopened.held⟩

theorem cursor_quiet : Moves o (Ended []) (Store.cursor : Action σ CursorId) := by
  refine Moves.ofSession fun s ho => ?_
  cases s.cursor with
  | some id => exact Ended.refl s
  | none =>
    refine onClient (o := o) (fun k t _ hconn => ?_) s ho
    have hopened := openCursor_quiet hconn none
    exact ⟨rfl, hopened.connection, hopened.attached, hopened.history, hopened.held⟩

theorem closeCursor_quiet (id : CursorId) :
    Moves o (Ended []) (closeCursor id : Action σ Unit) := by
  refine Moves.bind Ended.stepwise (fun s _ => Ended.engine _ s) fun _ s _ => ?_
  exact Ended.note (.cursorClosed id) rfl fun _ _ _ h => by cases h

theorem send_quiet (id : CursorId) (c : Command) :
    Moves o (Ended []) (send id c : Action σ Int) := by
  refine Moves.bind Ended.stepwise (fun s _ => ?_) fun _ => attempt_quiet _
  exact Ended.note (.executed id c) rfl fun _ _ _ h => by cases h

theorem execute_quiet (c : Command) : Moves o (Ended []) (execute c : Action σ Int) :=
  (log_quiet _ _).bind Ended.stepwise fun _ =>
    cursor_quiet.bind Ended.stepwise fun id => send_quiet id c

theorem executeAll_quiet (commands : List Command) :
    Moves o (Ended []) (executeAll commands : Action σ Int) := by
  induction commands with
  | nil => exact .pure Ended.stepwise _
  | cons c cs ih =>
    cases cs with
    | nil => exact execute_quiet c
    | cons d ds => exact (execute_quiet c).bind Ended.stepwise fun _ => ih

theorem advance_quiet (id : CursorId) (shape : Shape) :
    Moves o (Ended []) (Reader.advance id shape : Action σ (Option Value × Reader)) := by
  refine (Moves.get Ended.stepwise).bind Ended.stepwise fun s => ?_
  refine (attempt_quiet _).bind Ended.stepwise fun row => ?_
  cases row with
  | none => exact (closeCursor_quiet id).bind Ended.stepwise fun _ => .pure Ended.stepwise _
  | some row => exact (Moves.given Ended.stepwise _).bind Ended.stepwise fun _ => .pure Ended.stepwise _

end Store.Moves

/-! ## Actions that may end one -/

/-- What comes of an action that reads: no transaction ends, unless the action fails with an error of
the engine's own; then one may be taken back. -/
def ReadBy (s : Session σ) (x : Except Error α) (t : Session σ) : Prop :=
  Ended [] s t ∨
    ∃ y k, x = .error (.engine y) ∧ y.isOwn = true ∧ Ended [.rolledBack k] s t

/-- What comes of an action that changes something: if it succeeds, one transaction is made to last;
if it fails, one may be taken back, or not be made to last. -/
structure ChangedBy (s : Session σ) (x : Except Error α) (t : Session σ) : Prop where
  succeeds : ∀ a, x = .ok a → ∃ k, Ended [.committed k] s t
  fails : ∀ e, x = .error e →
    Ended [] s t ∨ (∃ k, Ended [.rolledBack k] s t) ∨ ∃ k y, Ended [.notCommitted k y] s t

namespace ChangedBy

variable {s t : Session σ}

theorem of_ok {k : ConnectionId} (a : α) (h : Ended [.committed k] s t) :
    ChangedBy s (.ok a) t where
  succeeds _ _ := ⟨k, h⟩
  fails _ h := by cases h

theorem of_error (e : Error) (h : Ended [] s t ∨ (∃ k, Ended [.rolledBack k] s t)
    ∨ ∃ k y, Ended [.notCommitted k y] s t) : ChangedBy s (.error e : Except Error α) t where
  succeeds _ h := by cases h
  fails _ _ := h

end ChangedBy

/-- The action reads. -/
def Reads (o : Options) (a : Action σ α) : Prop :=
  ∀ s, s.options = o → ReadBy s (runFrom s a).1 (runFrom s a).2

/-- **The action changes something.** -/
def Changes (o : Options) (a : Action σ α) : Prop :=
  ∀ s, s.options = o → ChangedBy s (runFrom s a).1 (runFrom s a).2

namespace Reads

theorem of_quiet {a : Action σ α} (h : Moves o (Ended []) a) : Reads o a :=
  fun s ho => .inl (h s ho)

theorem given_bind {x : Except Error α} {f : α → Action σ β} (h : ∀ a, Reads o (f a)) :
    Reads o (Store.given x >>= f) := by
  intro s ho
  cases x with
  | error e => exact .inl (Ended.refl s)
  | ok a =>
    rw [runFrom_bind, runFrom_given]
    exact h a s ho

theorem ofSession {f : Session σ → Action σ α} (h : ∀ t, Reads o (f t)) :
    Reads o ((MonadState.get : Action σ (Session σ)) >>= f) := by
  intro s ho
  rw [runFrom_bind]
  exact h s s ho

/-- What comes behind reading ends no transaction. -/
theorem bind {a : Action σ α} {f : α → Action σ β} (h : Reads o a)
    (hf : ∀ x, Moves o (Ended []) (f x)) : Reads o (a >>= f) := by
  intro s ho
  have hs := h s ho
  rw [runFrom_bind]
  cases hrun : runFrom s a with
  | mk x t =>
    rw [hrun] at hs
    obtain hs | ⟨y, k, rfl, hown, hs⟩ := hs
    · cases x with
      | error e => exact .inl hs
      | ok x => exact .inl (hs.trans (hf x t (hs.options.trans ho)))
    · exact .inr ⟨y, k, rfl, hown, hs⟩

end Reads

variable [Engine σ]

/-- What is done by taking changes back. -/
theorem rollback_ended (s : Session σ) :
    (∃ e t, runFrom s rollback = (.error e, t) ∧ Ended [] s t) ∨
      ∃ k t, runFrom s rollback = (.ok (), t) ∧ Ended [.rolledBack k] s t := by
  have hclient : Ended [] s (runFrom s Store.client).2 := Moves.client_quiet s rfl
  rw [rollback, runFrom_bind]
  cases hrun : runFrom s (Store.client : Action σ ConnectionId) with
  | mk x t =>
    rw [hrun] at hclient
    cases x with
    | error e => exact .inl ⟨e, t, rfl, hclient⟩
    | ok k =>
      have hengine := Ended.engine (Engine.rollback k t.engine) t
      have hconn : t.connection = some k := client_connection hrun
      have hsettle := Ended.settle (s := { t with engine := Engine.rollback k t.engine })
        (.rolledBack k) rfl rfl hconn
      exact .inr ⟨k, _, rfl, hclient.trans (hengine.trans hsettle)⟩

/-- What is done by making changes last. -/
theorem commit_ended (s : Session σ) :
    (∃ k t, runFrom s commit = (.ok (), t) ∧ Ended [.committed k] s t) ∨
      ∃ e t, runFrom s commit = (.error e, t) ∧
        (Ended [] s t ∨ ∃ k y, Ended [.notCommitted k y] s t) := by
  have hclient : Ended [] s (runFrom s Store.client).2 := Moves.client_quiet s rfl
  rw [commit, runFrom_bind]
  cases hrun : runFrom s (Store.client : Action σ ConnectionId) with
  | mk x t =>
    rw [hrun] at hclient
    cases x with
    | error e => exact .inr ⟨e, t, rfl, .inl hclient⟩
    | ok k =>
      have hheld : t.connection = some k := client_connection hrun
      simp only [runFrom_bind, runFrom_perform]
      generalize Engine.commit k t.engine = answer
      obtain ⟨x, e⟩ := answer
      have hengine := Ended.engine e t
      have hconn : ({ t with engine := e } : Session σ).connection = some k := hheld
      cases x with
      | ok u =>
        exact .inl ⟨k, _, rfl,
          hclient.trans (hengine.trans (Ended.settle (.committed k) rfl rfl hconn))⟩
      | error y =>
        exact .inr ⟨.engine y, _, rfl, .inr ⟨k, y,
          hclient.trans (hengine.trans (Ended.settle (.notCommitted k y) rfl rfl hconn))⟩⟩

/-- An error takes the changes back if it is one of the engine's own. -/
theorem recover_ended (x : Error) (s : Session σ) :
    (∃ e t, runFrom s (recover x) = (.error e, t) ∧ Ended [] s t) ∨
      ∃ t, runFrom s (recover x) = (.ok (), t) ∧
        (Ended [] s t ∨ ∃ y k, x = .engine y ∧ y.isOwn = true ∧ Ended [.rolledBack k] s t) := by
  rw [recover, runFrom_bind, runFrom_get]
  by_cases hlost : (losesTransaction x && s.options.transactional) = true
  · simp only [hlost, if_true]
    obtain ⟨e, t, hrun, hended⟩ | ⟨k, t, hrun, hended⟩ := rollback_ended s
    · exact .inl ⟨e, t, hrun, hended⟩
    · refine .inr ⟨t, hrun, .inr ?_⟩
      cases x with
      | engine y => exact ⟨y, k, rfl, (Bool.and_eq_true_iff.1 hlost).1, hended⟩
      | _ => cases hlost
  · simp only [hlost]
    exact .inr ⟨s, rfl, .inl (Ended.refl s)⟩

namespace Reads

/-- A body that fails takes the changes back, and passes its error on. -/
theorem recovering {body : Action σ α} (h : Moves o (Ended []) body) :
    Reads o (tryCatch body fun e => do recover e; throw e) := by
  intro s ho
  have hbody := h s ho
  rw [runFrom_tryCatch]
  cases hrun : runFrom s body with
  | mk x t =>
    rw [hrun] at hbody
    cases x with
    | ok a => exact .inl hbody
    | error x =>
      simp only [runFrom_bind]
      obtain ⟨e, u, hrecover, hended⟩ | ⟨u, hrecover, hended⟩ := recover_ended x t
      · rw [hrecover]
        exact .inl (hbody.trans hended)
      · rw [hrecover]
        obtain hended | ⟨y, k, rfl, hown, hended⟩ := hended
        · exact .inl (hbody.trans hended)
        · exact .inr ⟨y, k, rfl, hown, hbody.trans hended⟩

theorem fetchAll (c : Command) : Reads o (Store.fetchAll c : Action σ (List Value)) :=
  recovering <| (Moves.execute_quiet c).bind Ended.stepwise fun _ =>
    Moves.cursor_quiet.bind Ended.stepwise fun _ => Moves.attempt_quiet _

theorem ask (query : Options → Except Error Command) :
    Reads o (Store.ask query : Action σ (List Value)) :=
  ofSession fun _ => given_bind fun c => fetchAll c

theorem namesOf (query : Options → Except Error Command) :
    Reads o (Store.namesOf query : Action σ (List Value)) :=
  ofSession fun _ => (ask query).bind fun _ => .given Ended.stepwise _

theorem getDoc (collection id : Value) : Reads o (Store.getDoc collection id : Action σ Value) := by
  refine (ask _).bind fun rows => ?_
  cases rows with
  | nil => exact .pure Ended.stepwise _
  | cons row rows => exact .given Ended.stepwise _

/-- Every question reads. -/
theorem question (q : Question) : Reads o (q.act : Action σ Answer) := by
  have hpure : ∀ x : Answer, Moves o (Ended []) (pure x : Action σ Answer) :=
    fun _ => .pure Ended.stepwise _
  cases q with
  | listCollections | collectionsFrom => exact (namesOf _).bind fun _ => hpure _
  | hasCollection | hasIndex =>
    exact ((ask _).bind fun _ => .pure Ended.stepwise _).bind fun _ => hpure _
  | getDoc collection id => exact (getDoc collection id).bind fun _ => hpure _
  | getPartialDoc collection select id =>
    refine bind (ofSession fun _ => given_bind fun p => (ask _).bind fun rows => ?_) fun _ => hpure _
    cases rows with
    | nil => exact .pure Ended.stepwise _
    | cons row rows => exact .given Ended.stepwise _
  | filterDocIds => exact ((ask _).bind fun _ => .given Ended.stepwise _).bind fun _ => hpure _
  | countDocs =>
    refine bind ((ask _).bind fun rows => ?_) fun _ => hpure _
    cases rows with
    | nil => exact .pure Ended.stepwise _
    | cons row rows => exact .given Ended.stepwise _

/-- A reader closes its cursor behind an error, and behind the rollback that comes of it. -/
theorem guarded (id : CursorId) {body : Action σ α} (h : Moves o (Ended []) body) :
    Reads o (Reader.guarded id body) := by
  intro s ho
  have hbody := h s ho
  rw [Reader.guarded, runFrom_tryCatch]
  cases hrun : runFrom s body with
  | mk x t =>
    rw [hrun] at hbody
    cases x with
    | ok a => exact .inl hbody
    | error x =>
      have hclosed : ∀ u : Session σ, Ended [] u (u.closed id) :=
        fun u => Moves.closeCursor_quiet (o := u.options) id u rfl
      simp only [runFrom_bind, runFrom_tryCatch]
      obtain ⟨e, u, hrecover, hended⟩ | ⟨u, hrecover, hended⟩ := recover_ended x t
      · rw [hrecover]
        exact .inl (hbody.trans (hended.trans (hclosed u)))
      · rw [hrecover]
        obtain hended | ⟨y, k, rfl, hown, hended⟩ := hended
        · exact .inl (hbody.trans (hended.trans (hclosed u)))
        · exact .inr ⟨y, k, rfl, hown, hbody.trans (hended.then_quiet (hclosed u))⟩

/-- The step of a reader reads. -/
theorem readerStep (r : Reader) : Reads o (r.step : Action σ (Option Value × Reader)) := by
  cases r with
  | done => exact of_quiet (.pure Ended.stepwise _)
  | «open» id shape => exact guarded id (Moves.advance_quiet id shape)
  | pending query =>
    -- only what comes behind the opening of the cursor is guarded
    intro s ho
    have hreach : Ended [] s (runFrom s (Reader.reach query)).2 :=
      ((Moves.log_quiet _ _).bind Ended.stepwise fun _ => Moves.client_quiet) s ho
    have hstep : (Reader.pending query).step
        = ((Reader.reach query : Action σ ConnectionId) >>= Reader.start query) := by
      rw [Reader.reach, bind_assoc]
      rfl
    rw [hstep, runFrom_bind]
    cases hrun : runFrom s (Reader.reach query : Action σ ConnectionId) with
    | mk x u =>
      rw [hrun] at hreach
      cases x with
      | error e => exact .inl hreach
      | ok k =>
        have hconn : u.connection = some k := reach_connection hrun
        cases hanswer : u.answer k query.command with
        | mk answer f =>
          have hstarted : Ended [] u (u.started k query.command f) := Ended.started hconn _ f
          have hread := guarded u.nextCursor (o := u.options)
            (Moves.bind Ended.stepwise (.given Ended.stepwise (answer.mapError .engine)) fun _ =>
              Moves.advance_quiet u.nextCursor query.shape) (u.started k query.command f) rfl
          simp only [start_eq hanswer]
          obtain hread | ⟨y, j, hy, hown, hread⟩ := hread
          · exact .inl (hreach.trans (hstarted.trans hread))
          · exact .inr ⟨y, j, hy, hown, hreach.trans (hstarted.trans hread)⟩

end Reads

namespace Changes

/-- A transaction around what ends none. -/
theorem transaction (ht : o.transactional = true) {body : Action σ α}
    (h : Moves o (Ended []) body) : Changes o (Store.transaction body) := by
  intro s ho
  subst ho
  have hbody := h s rfl
  rw [Store.transaction, runFrom_bind, runFrom_get]
  simp only [ht, if_true, runFrom_bind, runFrom_tryCatch]
  cases hrun : runFrom s body with
  | mk x t =>
    rw [hrun] at hbody
    cases x with
    | ok a =>
      simp only
      obtain ⟨k, u, hcommit, hended⟩ | ⟨e, u, hcommit, hended⟩ := commit_ended t
      · rw [hcommit]
        exact .of_ok a (hbody.trans hended)
      · rw [hcommit]
        refine .of_error e ?_
        obtain hended | ⟨k, y, hended⟩ := hended
        · exact .inl (hbody.trans hended)
        · exact .inr (.inr ⟨k, y, hbody.trans hended⟩)
    | error x =>
      have hwarned := hbody.trans (Moves.log_quiet (o := t.options) .warning
        "Rolling back transaction after error." t rfl)
      simp only [runFrom_log]
      rw [runFrom_log] at hwarned
      obtain ⟨e, u, hrollback, hended⟩ | ⟨k, u, hrollback, hended⟩ := rollback_ended
        { t with history := t.history
            ++ [.logged .warning "Rolling back transaction after error."] }
      · rw [hrollback]
        exact .of_error _ (.inl (hwarned.trans hended))
      · rw [hrollback]
        exact .of_error _ (.inr (.inl ⟨k, hwarned.trans hended⟩))

omit [Engine σ] in
theorem given_bind {x : Except Error α} {f : α → Action σ β} (h : ∀ a, Changes o (f a)) :
    Changes o (Store.given x >>= f) := by
  intro s ho
  cases x with
  | error e => exact .of_error e (.inl (Ended.refl s))
  | ok a =>
    rw [runFrom_bind, runFrom_given]
    exact h a s ho

omit [Engine σ] in
theorem ofSession {f : Session σ → Action σ α} (h : ∀ t, Changes o (f t)) :
    Changes o ((MonadState.get : Action σ (Session σ)) >>= f) := by
  intro s ho
  rw [runFrom_bind]
  exact h s s ho

omit [Engine σ] in
/-- What comes behind a change ends no transaction and does not fail. -/
theorem bind {a : Action σ α} {f : α → Action σ β} (h : Changes o a)
    (hf : ∀ x t, t.options = o → ∃ b u, runFrom t (f x) = (.ok b, u) ∧ Ended [] t u) :
    Changes o (a >>= f) := by
  intro s ho
  have hs := h s ho
  rw [runFrom_bind]
  cases hrun : runFrom s a with
  | mk x t =>
    rw [hrun] at hs
    cases x with
    | error e => exact .of_error e (hs.fails e rfl)
    | ok x =>
      obtain ⟨k, hended⟩ := hs.succeeds x rfl
      obtain ⟨b, u, hrun', hquiet⟩ := hf x t (hended.options.trans ho)
      simp only [hrun']
      exact .of_ok b (hended.then_quiet hquiet)

omit [Engine σ] in
theorem announce_quiet (text : String) (t : Session σ) :
    ∃ b u, runFrom t (announce text) = (.ok b, u) ∧ Ended [] t u :=
  ⟨_, _, rfl, Moves.log_quiet (o := t.options) _ text t rfl⟩

/-- **Every change of a transactional store is one.** -/
theorem change (ht : o.transactional = true) (m : Change) : Changes o (m.act : Action σ Unit) := by
  by_cases hdrop : ∃ collection, m = .dropCollection collection
  · obtain ⟨collection, rfl⟩ := hdrop
    refine ofSession fun s => (transaction ht ?_).bind fun _ t _ => announce_quiet _ t
    exact (Moves.given Ended.stepwise _).bind Ended.stepwise fun _ => Moves.execute_quiet _
  · have hm : ∀ collection, m ≠ .dropCollection collection := fun c h => hdrop ⟨c, h⟩
    rw [Change.act_eq_carryOut hm]
    refine ofSession fun _ => given_bind fun p => ?_
    exact (transaction ht (Moves.executeAll_quiet p.commands)).bind fun _ t _ => announce_quiet _ t

omit [Engine σ] in
/-- What is read first may fail with an error of its own. -/
theorem after_reading {a : Action σ α} {f : α → Action σ β} (h : Reads o a)
    (hf : ∀ x, Changes o (f x)) : Changes o (a >>= f) := by
  intro s ho
  have hs := h s ho
  rw [runFrom_bind]
  cases hrun : runFrom s a with
  | mk x t =>
    rw [hrun] at hs
    obtain hs | ⟨y, k, rfl, -, hs⟩ := hs
    · cases x with
      | error e => exact .of_error e (.inl hs)
      | ok x =>
        have hnext := hf x t (hs.options.trans ho)
        refine ⟨fun b hb => ?_, fun e he => ?_⟩
        · obtain ⟨k, hended⟩ := hnext.succeeds b hb
          exact ⟨k, hs.trans hended⟩
        · obtain hended | ⟨k, hended⟩ | ⟨k, y, hended⟩ := hnext.fails e he
          · exact .inl (hs.trans hended)
          · exact .inr (.inl ⟨k, hs.trans hended⟩)
          · exact .inr (.inr ⟨k, y, hs.trans hended⟩)
    · exact .of_error _ (.inr (.inl ⟨k, hs⟩))

theorem upsertDoc (ht : o.transactional = true) (collection id document : Value) :
    Changes o (Store.upsertDoc collection id document : Action σ Unit) := by
  refine after_reading (Reads.getDoc collection id) fun v => ?_
  split
  · exact change ht (.addDoc collection id document)
  · exact change ht (.updateDoc collection id document)

end Changes

/-! ## Calls -/

/-- How a call may end transactions. -/
inductive Request.Kind
  | idle
  | reading
  | changing
  deriving DecidableEq

/-- Changes change something, questions and readers read, and all else does neither. -/
def Request.kind : Request → Kind
  | .change _ | .upsertDoc .. => .changing
  | .question _ | .next _ => .reading
  | .opening _ | .finish _ | .client | .cursor | .close => .idle

/-- The ends of transactions that come with a call of some kind and outcome: none, or one. -/
inductive Request.Kind.Settles : Kind → Except Error Answer → List Event → Prop
  | idle {x : Except Error Answer} : Settles .idle x []
  | read {x : Except Error Answer} : Settles .reading x []
  /-- What reads takes changes back only if it fails with an error of the engine's own. -/
  | lost {y : EngineError} {k : ConnectionId} :
      y.isOwn = true → Settles .reading (.error (.engine y)) [.rolledBack k]
  /-- A change that succeeds makes the changes last. -/
  | committed {a : Answer} {k : ConnectionId} : Settles .changing (.ok a) [.committed k]
  /-- One that fails does not, and may take them back. -/
  | refused {e : Error} : Settles .changing (.error e) []
  | undone {e : Error} {k : ConnectionId} : Settles .changing (.error e) [.rolledBack k]
  | failed {e : Error} {k : ConnectionId} {y : EngineError} :
      Settles .changing (.error e) [.notCommitted k y]

omit [Engine σ] in
theorem ReadBy.settles {s t : Session σ} {x : Except Error Answer} (h : ReadBy s x t) :
    ∃ settled, Ended settled s t ∧ Request.Kind.reading.Settles x settled := by
  obtain h | ⟨y, k, rfl, hown, h⟩ := h
  · exact ⟨_, h, .read⟩
  · exact ⟨_, h, .lost hown⟩

omit [Engine σ] in
theorem ChangedBy.settles {s t : Session σ} {x : Except Error Answer} (h : ChangedBy s x t) :
    ∃ settled, Ended settled s t ∧ Request.Kind.changing.Settles x settled := by
  cases x with
  | ok a =>
    obtain ⟨k, h⟩ := h.succeeds a rfl
    exact ⟨_, h, .committed⟩
  | error e =>
    obtain h | ⟨k, h⟩ | ⟨k, y, h⟩ := h.fails e rfl
    · exact ⟨_, h, .refused⟩
    · exact ⟨_, h, .undone⟩
    · exact ⟨_, h, .failed⟩

namespace Site

variable {w : Site σ} {r : Request}

/-- The step of a reader reads. -/
theorem next_read {i : Nat} {reader : Reader} (hi : w.readers[i]? = some reader) :
    ReadBy w.session (w.step (.next i)).1 (w.step (.next i)).2.session := by
  have hread := Reads.readerStep reader w.session rfl
  cases hrun : runFrom w.session reader.step with
  | mk x t =>
    rw [hrun] at hread
    have hnext := (reader.next_eq w.session).trans (congrArg Reader.settle hrun)
    cases x with
    | ok p =>
      rw [step_next hi hnext]
      obtain hread | ⟨y, k, hy, -⟩ := hread
      · exact .inl hread
      · cases hy
    | error e =>
      rw [step_next hi hnext]
      obtain hread | ⟨y, k, hy, hown, hread⟩ := hread
      · exact .inl hread
      · cases hy
        exact .inr ⟨y, k, rfl, hown, hread⟩

/-- The end of a reader ends no transaction. -/
theorem finish_quiet (i : Nat) : Ended [] w.session (w.step (.finish i)).2.session := by
  cases hi : w.readers[i]? with
  | none =>
    simp only [step, hi]
    exact Ended.refl _
  | some reader =>
    cases reader with
    | pending query =>
      rw [step_finish (r := .done) (t := w.session) hi rfl]
      exact Ended.refl _
    | done =>
      rw [step_finish (r := .done) (t := w.session) hi rfl]
      exact Ended.refl _
    | «open» c shape =>
      rw [step_finish (r := .done) (t := w.session.closed c) hi rfl]
      exact Moves.closeCursor_quiet (o := w.session.options) c w.session rfl

/-- **Every call but the last one ends the transactions of its kind.** -/
theorem step_settles (ht : w.session.options.transactional = true) (hr : r ≠ .close) :
    ∃ settled, Ended settled w.session (w.step r).2.session ∧
      r.kind.Settles (w.step r).1 settled := by
  have hpure : ∀ (x : Answer) (t : Session σ), ∃ b u,
      runFrom t (pure x : Action σ Answer) = (.ok b, u) ∧ Ended [] t u :=
    fun x t => ⟨x, t, rfl, Ended.refl t⟩
  cases r with
  | change m =>
    have hchanges : Changes w.session.options (do m.act; pure .nothing : Action σ Answer) :=
      (Changes.change ht m).bind fun _ t _ => hpure .nothing t
    exact (hchanges w.session rfl).settles
  | upsertDoc collection id document =>
    have hchanges : Changes w.session.options
        (do Store.upsertDoc collection id document; pure .nothing : Action σ Answer) :=
      (Changes.upsertDoc ht collection id document).bind fun _ t _ => hpure .nothing t
    exact (hchanges w.session rfl).settles
  | question q => exact (Reads.question q w.session rfl).settles
  | opening q =>
    have hsame : (w.step (.opening q)).2.session = w.session := by
      simp only [step, runFrom_opening]
      cases q.query w.session.options <;> rfl
    exact ⟨[], hsame ▸ Ended.refl _, .idle⟩
  | next i =>
    cases hi : w.readers[i]? with
    | none =>
      simp only [step, hi]
      exact ⟨[], Ended.refl _, .read⟩
    | some reader => exact (next_read hi).settles
  | finish i => exact ⟨[], finish_quiet i, .idle⟩
  | client =>
    have hclient : Moves w.session.options (Ended [])
        (do pure (.handle (← Store.client)) : Action σ Answer) :=
      Moves.client_quiet.bind Ended.stepwise fun _ => .pure Ended.stepwise _
    exact ⟨[], hclient w.session rfl, .idle⟩
  | cursor =>
    have hcursor : Moves w.session.options (Ended [])
        (do pure (.handle (← Store.cursor)) : Action σ Answer) :=
      Moves.cursor_quiet.bind Ended.stepwise fun _ => .pure Ended.stepwise _
    exact ⟨[], hcursor w.session rfl, .idle⟩
  | close => exact absurd rfl hr

/-- As long as it is not closed, a store opens all its cursors on one connection. -/
theorem run_attached {requests : List Request} (ht : w.session.options.transactional = true)
    (hw : w.session.Attached) (hclose : .close ∉ requests) :
    (w.run requests).session.Attached := by
  induction requests generalizing w with
  | nil => exact hw
  | cons r rs ih =>
    have hr : r ≠ .close := fun h => hclose (h ▸ .head _)
    obtain ⟨settled, hended, -⟩ := step_settles ht hr
    exact ih (hended.options ▸ ht) (hended.attached hw) fun h => hclose (.tail _ h)

/-- Closing a store ends no transaction. -/
theorem close_quiet (w : Site σ) : ∃ trace, (w.step .close).2.session.history
    = w.session.history ++ trace ∧ trace.filter Event.settles = [] := by
  have hclose : Grows (fun event => event.settles = false) w.session
      (runFrom w.session Store.close).2 :=
    Grows.close (fun _ h _ => h) w.session rfl
  rw [← w.step_close] at hclose
  obtain ⟨trace, hhistory, htrace⟩ := hclose.history
  refine ⟨trace, hhistory, List.filter_eq_nil_iff.2 fun event hevent => ?_⟩
  rw [htrace event hevent]
  exact Bool.false_ne_true

end Site

/-- **Only changes and what fails end a transaction**, and so may cut off the readers that are under
way. A call of a transactional store ends one if it is a change that succeeds; if it is one that
fails, or reads and fails with an error of the engine's own, it ends one at most; else it ends none.
Until the store is closed, that is on the connection of every cursor that was opened. -/
theorem settled_by_changes {s : Session σ} (ht : s.options.transactional = true) (hs : s.Attached)
    (requests : List Request) :
    ∀ e ∈ Site.journal ⟨s, []⟩ requests, ∃ trace,
      e.after.session.history = e.before.session.history ++ trace ∧
        e.request.kind.Settles e.outcome (trace.filter Event.settles) ∧
        (.close ∉ requests → ∀ event ∈ trace, event.settles = true →
          ∀ c k b, .opened c k b ∈ e.after.session.history → event.settledOn? = some k) := by
  intro e he
  obtain ⟨past, rest, rfl, hbefore, hstep⟩ := Site.mem_journal he
  have hoptions : e.before.session.options = s.options := by
    rw [hbefore]
    exact Site.run_options _ past
  have hte : e.before.session.options.transactional = true := by rw [hoptions, ht]
  by_cases hr : e.request = .close
  · obtain ⟨trace, hhistory, hnone⟩ := e.before.close_quiet
    rw [← hr, hstep] at hhistory
    refine ⟨trace, hhistory, ?_, fun hclose => absurd ?_ hclose⟩
    · rw [hnone, hr]
      exact .idle
    · exact List.mem_append_right _ (hr ▸ .head _)
  · obtain ⟨settled, hended, hsettles⟩ := Site.step_settles hte hr
    rw [hstep] at hended hsettles
    obtain ⟨trace, hhistory, rfl⟩ := hended.history
    refine ⟨trace, hhistory, hsettles, fun hclose event hevent hsettled c k b hopened => ?_⟩
    have hattached : e.before.session.Attached := by
      rw [hbefore]
      exact Site.run_attached ht hs fun h => hclose (List.mem_append_left _ h)
    obtain ⟨j, hj, hconn⟩ := hended.held event (List.mem_filter.2 ⟨hevent, hsettled⟩)
    rw [hj, ← hconn]
    exact hended.attached hattached c k b hopened

/-- A document is changed while the documents of its collection are read. -/
def Request.updateReading : List Request :=
  [.opening .all, .next 0, .change (.updateDoc (.str "animals") (.str "1") (.mapping [])), .next 0,
    .next 0]

/-- The change is made to last between the command of the reader and the end of its cursor. -/
theorem committed_while_reading :
    Session.stocked.options.transactional = true ∧ ∃ command,
      (Site.run ⟨Session.stocked, []⟩ Request.updateReading).session.history.filter
          (fun event => event.cursor? == some 0 || event.settledOn? == some 0)
        = [.opened 0 0 (some 100), .executed 0 command, .committed 0, .cursorClosed 0] :=
  ⟨rfl, _, rfl⟩

/-- The change ends a transaction on the connection of the reader, and the reader ends none. -/
theorem settled_by_changes_reading :
    Session.stocked.options.transactional = true ∧ Session.stocked.Attached ∧
      ∃ e ∈ Site.journal ⟨Session.stocked, []⟩ Request.updateReading,
        e.request.kind = .changing ∧ e.outcome = .ok .nothing ∧ ∃ trace,
          e.after.session.history = e.before.session.history ++ trace ∧
          trace.filter Event.settles = [.committed 0] := by
  have hattached : Session.stocked.Attached := fun c k b h => absurd h List.not_mem_nil
  refine ⟨rfl, hattached, ?_⟩
  have hentry : ∃ e, (Site.journal ⟨Session.stocked, []⟩ Request.updateReading)[2]? = some e ∧
      e.request.kind = .changing ∧ e.outcome = .ok .nothing ∧
      .opened 0 0 (some 100) ∈ e.after.session.history :=
    ⟨_, rfl, rfl, rfl, List.mem_of_getElem? (i := 1) rfl⟩
  obtain ⟨e, he, hkind, houtcome, hopened⟩ := hentry
  have hmem := List.mem_of_getElem? he
  obtain ⟨trace, hhistory, hsettles, hon⟩ := settled_by_changes rfl hattached _ e hmem
  have hclose : .close ∉ Request.updateReading := by simp [Request.updateReading]
  refine ⟨e, hmem, hkind, houtcome, trace, hhistory, ?_⟩
  rw [hkind, houtcome] at hsettles
  generalize hsettled : trace.filter Event.settles = settled at hsettles
  cases hsettles with
  | @committed _ k =>
    have hcommitted : .committed k ∈ trace.filter Event.settles := hsettled ▸ .head _
    obtain ⟨hin, hends⟩ := List.mem_filter.1 hcommitted
    have hk : some k = some 0 := hon hclose _ hin hends 0 0 _ hopened
    cases hk
    rfl

end Docbase
