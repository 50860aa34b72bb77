import Docbase.Proofs.Store.Settling

/-!
# What is done before an error is handled

Between the beginning of a call and its first error a store only goes ahead: it connects if it holds
no connection, opens cursors on the one that it holds, and sends its commands there.

* `Session.Coherent`: the cursor of a store belongs to its connection.
* `Unhandled`: nothing is taken back between two sessions, there was at most one attempt to connect,
  and all that was sent was sent on the connection that is held in the end.
* `Straight`: what comes of an action that handles no error, with a rule for every part of a store.
-/

namespace Docbase

open Sql Store

/-- The event is an attempt to connect. -/
def Event.attempts : Event → Bool
  | connected .. | notConnected .. => true
  | _ => false

/-- The event takes changes back. -/
def Event.undoes : Event → Bool
  | rolledBack _ => true
  | _ => false

/-- The cursor that a command was sent on. -/
def Event.sentOn? : Event → Option CursorId
  | executed c _ => some c
  | _ => none

/-- The error of an outcome, if it has one. -/
def errorOf {α : Type} : Except Error α → Option Error
  | .ok _ => none
  | .error e => some e

theorem errorOf_eq_some {α : Type} {x : Except Error α} {e : Error} (h : errorOf x = some e) :
    x = .error e := by
  cases x with
  | ok a => cases h
  | error e' =>
    cases h
    rfl

variable {σ α β : Type}

namespace Session

/-- The cursor was opened on the connection that the store holds. -/
def InReach (s : Session σ) (c : CursorId) : Prop :=
  ∃ k b, s.connection = some k ∧ .opened c k b ∈ s.history

/-- The cursor of the store was opened on the connection of the store. -/
def Coherent (s : Session σ) : Prop := ∀ c, s.cursor = some c → s.InReach c

/-- Without a connection there is no cursor either. -/
theorem Coherent.cursor_none {s : Session σ} (hs : s.Coherent) (h : s.connection = none) :
    s.cursor = none := by
  cases hc : s.cursor with
  | none => rfl
  | some c =>
    obtain ⟨k, b, hk, -⟩ := hs c hc
    rw [h] at hk
    cases hk

theorem coherent_of_none {s : Session σ} (h : s.cursor = none) : s.Coherent := by
  intro c hc
  rw [h] at hc
  cases hc

end Session

/-- The attempts to connect between two sessions. -/
inductive Attempts (s t : Session σ) (x : Option Error) : List Event → Prop
  | none : Attempts s t x []
  | connected {k : ConnectionId} {target : Target} : s.connection = none → t.connection = some k →
      Attempts s t x [.connected k target]
  /-- What cannot connect comes to an end with the error of the attempt. -/
  | notConnected {target : Target} {y : EngineError} : s.connection = none → t.connection = none →
      Store.target s.settings = .ok target → x = some (connectError target y) →
        Attempts s t x [.notConnected target y]

/-- What is done between two sessions without handling an error, and with what outcome. -/
structure Unhandled (s : Session σ) (x : Option Error) (t : Session σ) : Prop where
  options : t.options = s.options
  settings : t.settings = s.settings
  connection : ∀ k, s.connection = some k → t.connection = some k
  coherent : t.Coherent
  history : ∃ trace, t.history = s.history ++ trace ∧ Attempts s t x (trace.filter Event.attempts) ∧
    (∀ e ∈ trace, e.undoes = false) ∧ ∀ e ∈ trace, ∀ c, e.sentOn? = some c → t.InReach c

namespace Unhandled

variable {s t u : Session σ} {x : Option Error}

theorem refl (hs : s.Coherent) (x : Option Error) : Unhandled s x s where
  options := rfl
  settings := rfl
  connection _ h := h
  coherent := hs
  history := ⟨[], (List.append_nil _).symm, .none, by simp, by simp⟩

/-- A cursor stays in reach as long as the connection is held. -/
theorem reaches (h : Unhandled s x t) {c : CursorId} (hc : s.InReach c) : t.InReach c := by
  obtain ⟨k, b, hconn, hopened⟩ := hc
  obtain ⟨trace, hhistory, -⟩ := h.history
  exact ⟨k, b, h.connection k hconn, hhistory ▸ List.mem_append_left _ hopened⟩

theorem trans (h : Unhandled s none t) (h' : Unhandled t x u) : Unhandled s x u where
  options := h'.options.trans h.options
  settings := h'.settings.trans h.settings
  connection k hk := h'.connection k (h.connection k hk)
  coherent := h'.coherent
  history := by
    obtain ⟨trace, hhistory, hattempts, hkept, hsent⟩ := h.history
    obtain ⟨trace', hhistory', hattempts', hkept', hsent'⟩ := h'.history
    have hnone : t.connection = none → s.connection = none := by
      intro ht
      cases hs : s.connection with
      | none => rfl
      | some k =>
        rw [h.connection k hs] at ht
        cases ht
    refine ⟨trace ++ trace', by rw [hhistory', hhistory, List.append_assoc], ?_, ?_, ?_⟩
    · rw [List.filter_append]
      generalize trace.filter Event.attempts = first at hattempts ⊢
      generalize trace'.filter Event.attempts = second at hattempts' ⊢
      cases hattempts with
      | none =>
        cases hattempts' with
        | none => exact .none
        | connected ht hu => exact .connected (hnone ht) hu
        | notConnected ht hu htarget hx =>
          rw [h.settings] at htarget
          exact .notConnected (hnone ht) hu htarget hx
      | connected hs ht =>
        -- the connection is held from then on
        cases hattempts' with
        | none => exact .connected hs (h'.connection _ ht)
        | connected ht' => rw [ht] at ht'; cases ht'
        | notConnected ht' => rw [ht] at ht'; cases ht'
      | notConnected _ _ _ hx => cases hx
    · intro e he
      rcases List.mem_append.1 he with he | he
      · exact hkept e he
      · exact hkept' e he
    · intro e he c hc
      rcases List.mem_append.1 he with he | he
      · exact h'.reaches (hsent e he c hc)
      · exact hsent' e he c hc

/-- The engine and the numbers to come are neither here nor there. -/
theorem same (h : Unhandled s x t) (hoptions : u.options = t.options)
    (hsettings : u.settings = t.settings) (hconnection : u.connection = t.connection)
    (hcursor : u.cursor = t.cursor) (hhistory : u.history = t.history) : Unhandled s x u := by
  have hreaches : ∀ c, t.InReach c → u.InReach c := by
    rintro c ⟨k, b, hconn, hopened⟩
    exact ⟨k, b, hconnection.trans hconn, hhistory ▸ hopened⟩
  obtain ⟨trace, htrace, hattempts, hkept, hsent⟩ := h.history
  refine ⟨hoptions.trans h.options, hsettings.trans h.settings,
    fun k hk => hconnection.trans (h.connection k hk),
    fun c hc => hreaches c (h.coherent c (hcursor ▸ hc)), trace, hhistory.trans htrace, ?_, hkept,
    fun e he c hc => hreaches c (hsent e he c hc)⟩
  generalize trace.filter Event.attempts = attempts at hattempts ⊢
  cases hattempts with
  | none => exact .none
  | connected hs ht => exact .connected hs (hconnection.trans ht)
  | notConnected hs ht htarget hx => exact .notConnected hs (hconnection.trans ht) htarget hx

/-- An event that is no attempt to connect and takes nothing back; what is sent is sent on a cursor in
reach. -/
theorem note (hs : s.Coherent) {e : Event} (hattempts : e.attempts = false)
    (hundoes : e.undoes = false) (hsent : ∀ c, e.sentOn? = some c → s.InReach c)
    (x : Option Error) : Unhandled s x { s with history := s.history ++ [e] } := by
  have hreaches : ∀ c, s.InReach c →
      ({ s with history := s.history ++ [e] } : Session σ).InReach c := by
    rintro c ⟨k, b, hconn, hopened⟩
    exact ⟨k, b, hconn, List.mem_append_left _ hopened⟩
  refine ⟨rfl, rfl, fun _ h => h, fun c hc => hreaches c (hs c hc), [e], rfl, ?_, ?_, ?_⟩
  · rw [List.filter_cons_of_neg (by simp [hattempts]), List.filter_nil]
    exact .none
  · simpa using hundoes
  · intro e' he' c hc
    rw [List.mem_singleton.1 he'] at hc
    exact hreaches c (hsent c hc)

/-- **What cannot connect tries once**, ends with the error of that, and leaves nothing behind. -/
theorem unreachable (h : Unhandled s x t) {trace : List Event}
    (hhistory : t.history = s.history ++ trace) {target : Target} {y : EngineError}
    (hy : .notConnected target y ∈ trace) :
    trace.filter Event.attempts = [.notConnected target y] ∧ x = some (connectError target y) ∧
      t.connection = none ∧ t.cursor = none ∧ Store.target s.settings = .ok target := by
  obtain ⟨trace', hhistory', hattempts, -⟩ := h.history
  obtain rfl : trace' = trace := List.append_cancel_left (hhistory'.symm.trans hhistory)
  have hmem : .notConnected target y ∈ trace'.filter Event.attempts := List.mem_filter.2 ⟨hy, rfl⟩
  generalize trace'.filter Event.attempts = attempts at hattempts hmem ⊢
  cases hattempts with
  | none => cases hmem
  | connected => simp at hmem
  | notConnected hs ht htarget hx =>
    cases List.mem_singleton.1 hmem
    exact ⟨rfl, hx, ht, h.coherent.cursor_none ht, htarget⟩

end Unhandled

/-! ## Actions that handle no error -/

/-- Whatever comes of the action in the session comes without handling an error. -/
def Straight (s : Session σ) (a : Action σ α) : Prop :=
  s.Coherent → Unhandled s (errorOf (runFrom s a).1) (runFrom s a).2

namespace Straight

variable {s t : Session σ}

theorem pure (a : α) : Straight s (pure a : Action σ α) := fun hs => Unhandled.refl hs _

theorem throw (e : Error) : Straight s (throw e : Action σ α) := fun hs => Unhandled.refl hs _

theorem given (x : Except Error α) : Straight s (Store.given x) := by
  intro hs
  rw [runFrom_given]
  exact Unhandled.refl hs _

theorem bind {a : Action σ α} {f : α → Action σ β} (h : Straight s a)
    (hf : ∀ x t, runFrom s a = (.ok x, t) → t.Coherent → Straight t (f x)) :
    Straight s (a >>= f) := by
  intro hs
  have ha := h hs
  rw [runFrom_bind]
  cases hrun : runFrom s a with
  | mk x t =>
    rw [hrun] at ha
    cases x with
    | error e => exact ha
    | ok x => exact ha.trans (hf x t hrun ha.coherent ha.coherent)

theorem ofSession {f : Session σ → Action σ α} (h : Straight s (f s)) :
    Straight s ((MonadState.get : Action σ (Session σ)) >>= f) := by
  intro hs
  rw [runFrom_bind]
  exact h hs

theorem log (level : Log.Level) (text : String) : Straight s (Store.log level text : Action σ Unit) :=
  fun hs => Unhandled.note hs rfl rfl (fun _ h => by cases h) _

theorem announce (text : String) : Straight s (Store.announce text : Action σ Unit) :=
  ofSession (log _ text)

theorem perform (f : σ → α × σ) : Straight s (Store.perform f) :=
  fun hs => (Unhandled.refl hs none).same rfl rfl rfl rfl rfl

theorem attempt (f : σ → Except EngineError α × σ) : Straight s (Store.attempt f) := by
  refine (perform f).bind fun x t _ _ => ?_
  cases x with
  | ok a => exact .pure a
  | error e => exact .throw _

/-- A command is sent on a cursor in reach. -/
theorem send [Engine σ] {c : CursorId} (hc : s.InReach c) (command : Command) :
    Straight s (Store.send c command : Action σ Int) := by
  refine bind (fun hs => ?_) fun _ t _ _ => attempt _
  refine Unhandled.note hs rfl rfl (fun d hd => ?_) _
  cases hd
  exact hc

variable [Engine σ]

theorem closeCursor (c : CursorId) : Straight s (Store.closeCursor c : Action σ Unit) :=
  bind (perform fun e => ((), Engine.closeCursor c e)) fun _ _ _ _ hs =>
    Unhandled.note hs rfl rfl (fun _ h => by cases h) _

theorem client : Straight s (Store.client : Action σ ConnectionId) := by
  refine ofSession ?_
  cases hconn : s.connection with
  | some k => exact .pure k
  | none =>
    intro hs
    have hcursor : s.cursor = none := hs.cursor_none hconn
    have hkept : ∀ {t : Session σ} k, s.connection = some k → t.connection = some k := by
      intro t k hk
      rw [hconn] at hk
      cases hk
    simp only [Store.connect, runFrom_bind, runFrom_get, runFrom_given]
    cases htarget : Store.target s.settings with
    | error cause => exact Unhandled.refl hs _
    | ok target =>
      simp only [refuse, runFrom_perform]
      generalize Engine.connect s.nextConnection target s.engine = answer
      obtain ⟨x, e⟩ := answer
      cases x with
      | error y =>
        exact {
          options := rfl
          settings := rfl
          connection := hkept
          coherent := Session.coherent_of_none hcursor
          history := ⟨[.notConnected target y], rfl, .notConnected hconn hconn htarget rfl,
            by simp [Event.undoes], by simp [Event.sentOn?]⟩ }
      | ok u =>
        exact {
          options := rfl
          settings := rfl
          connection := hkept
          coherent := Session.coherent_of_none hcursor
          history := ⟨[.connected s.nextConnection target, .logged _ _],
            List.append_assoc .., .connected hconn rfl, by simp [Event.undoes],
            by simp [Event.sentOn?]⟩ }

theorem openCursor (k : ConnectionId) (batch : Option Int) :
    Straight s (Store.openCursor k batch : Action σ CursorId) := by
  intro hs
  have hopened : Unhandled s none
      { s with history := s.history ++ [.opened s.nextCursor k batch] } :=
    Unhandled.note hs rfl rfl (fun _ h => by cases h) none
  exact hopened.same rfl rfl rfl rfl rfl

theorem openCursor_inReach {k : ConnectionId} {batch : Option Int} {c : CursorId}
    (hconn : s.connection = some k) (h : runFrom s (Store.openCursor k batch) = (.ok c, t)) :
    t.InReach c := by
  cases h
  exact ⟨k, batch, hconn, List.mem_append_right _ (List.mem_singleton_self _)⟩

theorem cursor : Straight s (Store.cursor : Action σ CursorId) := by
  refine ofSession ?_
  cases s.cursor with
  | some c => exact .pure c
  | none =>
    refine client.bind fun k t hclient _ => ?_
    have hconn : t.connection = some k := client_connection hclient
    refine (openCursor k none).bind fun c u hopen _ => ?_
    have hreaches : u.InReach c := openCursor_inReach hconn hopen
    refine bind (fun hu => ?_) fun _ _ _ _ => .pure c
    refine ⟨rfl, rfl, fun _ h => h, ?_, [], (List.append_nil _).symm, .none, by simp, by simp⟩
    rintro d hd
    cases hd
    exact hreaches

/-- What is sent on the cursor of the store is sent on a cursor in reach. -/
theorem onCursor {f : CursorId → Action σ α}
    (h : ∀ c t, t.InReach c → Straight t (f c)) : Straight s (Store.cursor >>= f) :=
  cursor.bind fun c t hrun ht => h c t (ht c (Frame.cursor_held hrun))

theorem execute (c : Command) : Straight s (Store.execute c : Action σ Int) :=
  (log _ _).bind fun _ _ _ _ => onCursor fun _ _ hreaches => send hreaches c

theorem executeAll (commands : List Command) :
    Straight s (Store.executeAll commands : Action σ Int) := by
  induction commands generalizing s with
  | nil => exact .pure _
  | cons c cs ih =>
    cases cs with
    | nil => exact execute c
    | cons d ds => exact (execute c).bind fun _ _ _ _ => ih

theorem commit : Straight s (Store.commit : Action σ Unit) := by
  refine client.bind fun k t _ _ => (perform _).bind fun x u _ _ => ?_
  have hnote : ∀ {e : Event} {v : Session σ}, e.attempts = false → e.undoes = false →
      e.sentOn? = none → Straight v (Store.note e) :=
    fun hattempts hundoes hsent hv =>
      Unhandled.note hv hattempts hundoes (fun c h => by rw [hsent] at h; cases h) _
  cases x with
  | ok _ => exact hnote rfl rfl rfl
  | error y => exact (hnote rfl rfl rfl).bind fun _ _ _ _ => .throw _

theorem advance (c : CursorId) (shape : Shape) :
    Straight s (Reader.advance c shape : Action σ (Option Value × Reader)) := by
  refine ofSession ((attempt _).bind fun row t _ _ => ?_)
  cases row with
  | none => exact (closeCursor c).bind fun _ _ _ _ => .pure _
  | some row => exact (given _).bind fun _ _ _ _ => .pure _

end Straight

end Docbase
