import Docbase.Proofs.Engine
import Docbase.Proofs.Store.Run

/-!
# What a store leaves alone

The calls of a store use one cursor that the store holds. The cursors of readers are others, and
nothing is done to them; what happens on them and the rows that they hold stay as they are.

* `Event.cursor?`, `Session.on`: the events on a cursor.
* `Keeps`, `Frame`: what is kept of all cursors but some.
* `Frame.carries`: **every call keeps all cursors but the one of the store**.
-/

namespace Docbase

open Sql Store

/-- The cursor that the event is about. -/
def Event.cursor? : Event → Option CursorId
  | opened c _ _ | executed c _ | cursorClosed c => some c
  | _ => none

/-- The cursor that was opened for a reader. -/
def Event.named? : Event → Option CursorId
  | opened c _ (some _) => some c
  | _ => none

variable {σ : Type}

namespace Session

/-- What happened on a cursor. -/
def on (c : CursorId) (s : Session σ) : List Event := s.history.filter (·.cursor? == some c)

/-- The cursors that were opened for readers. -/
def named (s : Session σ) : List CursorId := s.history.filterMap Event.named?

/-- No cursor is in use but those that were opened. -/
structure Sound (s : Session σ) : Prop where
  cursor : ∀ c, s.cursor = some c → c < s.nextCursor
  history : ∀ e ∈ s.history, ∀ c, e.cursor? = some c → c < s.nextCursor

theorem sound_withConnection (o : Options) (settings : Settings) (e : σ) :
    (withConnection o settings e).Sound where
  cursor _ h := by cases h
  history _ h := by cases h

theorem on_note (c : CursorId) (s : Session σ) (e : Event) :
    ({ s with history := s.history ++ [e] } : Session σ).on c =
      s.on c ++ if e.cursor? = some c then [e] else [] := by
  rw [on, on, List.filter_append]
  by_cases h : e.cursor? = some c
  · simp [h]
  · simp [h]

theorem named_note (s : Session σ) (e : Event) :
    ({ s with history := s.history ++ [e] } : Session σ).named = s.named ++ e.named?.toList := by
  rw [named, named, List.filterMap_append]
  cases h : e.named? <;> simp [h]

/-- Nothing happened yet on a cursor that is still to be opened. -/
theorem Sound.on_fresh {s : Session σ} (h : s.Sound) {c : CursorId} (hc : s.nextCursor ≤ c) :
    s.on c = [] := by
  rw [on, List.filter_eq_nil_iff]
  intro e he heq
  have hlt : c < s.nextCursor := h.history e he c (by simpa using heq)
  exact Nat.lt_irrefl c (Nat.lt_of_lt_of_le hlt hc)

end Session

/-- What is kept of all cursors but some. -/
structure Keeps (held : CursorId → σ → List Value) (own : CursorId → Prop) (s t : Session σ) :
    Prop where
  options : t.options = s.options
  connection : ∀ id, s.connection = some id → t.connection = some id
  nextCursor : s.nextCursor ≤ t.nextCursor
  /-- The store takes no cursor but one that it opens. -/
  cursor : ∀ c, t.cursor = some c → s.cursor = some c ∨ s.nextCursor ≤ c
  sound : s.Sound → t.Sound
  events : ∀ c < s.nextCursor, ¬ own c → t.on c = s.on c
  rows : ∀ c < s.nextCursor, ¬ own c → held c t.engine = held c s.engine

namespace Keeps

variable {held : CursorId → σ → List Value} {own own' : CursorId → Prop} {s t u : Session σ}

theorem refl (s : Session σ) : Keeps held own s s :=
  ⟨rfl, fun _ h => h, Nat.le_refl _, fun _ h => .inl h, fun h => h, fun _ _ _ => rfl,
    fun _ _ _ => rfl⟩

theorem trans (h : Keeps held own s t) (k : Keeps held own' t u)
    (hown : ∀ c < s.nextCursor, own' c → own c) : Keeps held own s u := by
  have hle : s.nextCursor ≤ t.nextCursor := h.nextCursor
  refine ⟨k.options.trans h.options, fun id hid => k.connection id (h.connection id hid),
    Nat.le_trans hle k.nextCursor, ?_, fun hs => k.sound (h.sound hs), ?_, ?_⟩
  · intro c hc
    rcases k.cursor c hc with hc | hc
    · exact h.cursor c hc
    · exact .inr (Nat.le_trans hle hc)
  · intro c hc hnot
    have hnot' : ¬ own' c := fun hn => hnot (hown c hc hn)
    exact (k.events c (Nat.lt_of_lt_of_le hc hle) hnot').trans (h.events c hc hnot)
  · intro c hc hnot
    have hnot' : ¬ own' c := fun hn => hnot (hown c hc hn)
    exact (k.rows c (Nat.lt_of_lt_of_le hc hle) hnot').trans (h.rows c hc hnot)

end Keeps

/-- What is kept of all cursors but some; which these are may depend on the cursor that the store
holds. No cursor is opened for a reader. -/
structure Frame (held : CursorId → σ → List Value) (own : Option CursorId → CursorId → Prop)
    (s t : Session σ) : Prop extends Keeps held (own s.cursor) s t where
  still : ∀ c < s.nextCursor, own t.cursor c → own s.cursor c
  named : t.named = s.named

namespace Frame

variable {held : CursorId → σ → List Value} {own : Option CursorId → CursorId → Prop}
  {s t : Session σ} {o : Options}

theorem stepwise : Moves.Stepwise (Frame held own) where
  refl s := ⟨.refl s, fun _ _ h => h, rfl⟩
  trans h k := by
    refine ⟨h.toKeeps.trans k.toKeeps h.still, ?_, k.named.trans h.named⟩
    intro c hc hown
    exact h.still c hc (k.still c (Nat.lt_of_lt_of_le hc h.nextCursor) hown)
  options h := h.options

/-- An event is noted: one on an own cursor, or on none. -/
theorem note (e : Event) (hown : ∀ c, e.cursor? = some c → own s.cursor c)
    (hsound : s.Sound → ∀ c, e.cursor? = some c → c < s.nextCursor) (hnamed : e.named? = none) :
    Frame held own s { s with history := s.history ++ [e] } where
  options := rfl
  connection _ h := h
  nextCursor := Nat.le_refl _
  cursor _ h := .inl h
  sound := by
    intro hs
    refine ⟨hs.cursor, ?_⟩
    intro e' he' c hc
    rcases List.mem_append.1 he' with he' | he'
    · exact hs.history e' he' c hc
    · rw [List.mem_singleton.1 he'] at hc
      exact hsound hs c hc
  still _ _ h := h
  events := by
    intro c _ hnot
    have hne : ¬ e.cursor? = some c := fun he => hnot (hown c he)
    rw [Session.on_note, if_neg hne, List.append_nil]
  rows _ _ _ := rfl
  named := by rw [Session.named_note, hnamed]; simp

/-- An event is noted that is about no cursor. -/
theorem note_none (e : Event) (h : e.cursor? = none) :
    Frame held own s { s with history := s.history ++ [e] } := by
  refine note e (fun c hc => ?_) (fun _ c hc => ?_) ?_
  · rw [h] at hc; cases hc
  · rw [h] at hc; cases hc
  · cases e with
    | opened => cases h
    | _ => rfl

/-- The engine goes on, and keeps the rows of all but the own cursors. -/
theorem engine (e : σ) (h : ∀ c, ¬ own s.cursor c → held c e = held c s.engine) :
    Frame held own s { s with engine := e } where
  options := rfl
  connection _ h := h
  nextCursor := Nat.le_refl _
  cursor _ h := .inl h
  sound h := ⟨h.cursor, h.history⟩
  still _ _ h := h
  events _ _ _ := rfl
  rows c _ hc := h c hc
  named := rfl

theorem log (level : Log.Level) (text : String) :
    Moves o (Frame held own) (log level text : Action σ Unit) :=
  fun s _ => note_none (s := s) (.logged level text) rfl

variable [Engine σ]

/-- Nothing is done on any cursor when a connection is opened. -/
theorem client (hheld : Engine.KeepsRows held) :
    Moves o (Frame held own) (client : Action σ ConnectionId) := by
  refine Moves.client stepwise ?_ ?_ ?_
  · exact fun s id target => engine _ fun c _ => hheld.connect c id target s.engine
  · intro s e he
    refine note_none e ?_
    obtain ⟨_, _, rfl⟩ | ⟨_, _, rfl⟩ | ⟨_, _, rfl⟩ := Event.cases_of_connects he <;> rfl
  · intro s id hnone
    have hkept : ∀ c, s.connection = some c → some id = some c := by
      intro c hc
      rw [hnone] at hc
      cases hc
    exact ⟨⟨rfl, hkept, Nat.le_refl _, fun _ h => .inl h, fun h => ⟨h.cursor, h.history⟩,
      fun _ _ _ => rfl, fun _ _ _ => rfl⟩, fun _ _ h => h, rfl⟩

theorem rollback (hheld : Engine.KeepsRows held) :
    Moves o (Frame held own) (rollback : Action σ Unit) := by
  refine (client hheld).bind stepwise fun connection => ?_
  refine Moves.bind stepwise (fun s _ => ?_) fun _ s _ => note_none (.rolledBack connection) rfl
  exact engine _ fun c _ => hheld.rollback c connection s.engine

theorem commit (hheld : Engine.KeepsRows held) :
    Moves o (Frame held own) (commit : Action σ Unit) := by
  refine (client hheld).bind stepwise fun connection => ?_
  refine Moves.bind stepwise (fun s _ => ?_) fun x => ?_
  · exact engine _ fun c _ => hheld.commit c connection s.engine
  · cases x with
    | ok u => exact fun s _ => note_none (s := s) (.committed connection) rfl
    | error x =>
      refine Moves.bind stepwise (fun s _ => ?_) fun _ => .throw stepwise _
      exact note_none (s := s) (.notCommitted connection x) rfl

end Frame

/-! ## Calls of a store -/

/-- The cursor that the store holds is its own. -/
def OfStore (cursor : Option CursorId) (c : CursorId) : Prop := cursor = some c

namespace Frame

variable {held : CursorId → σ → List Value} {s t : Session σ} {o : Options} [Engine σ]

/-- The store takes a cursor that it opens. -/
theorem takeCursor (hheld : Engine.KeepsRows held) (connection : ConnectionId) (s : Session σ) :
    Frame held OfStore s { s with
      cursor := some s.nextCursor
      nextCursor := s.nextCursor + 1
      engine := Engine.openCursor connection s.nextCursor s.engine
      history := s.history ++ [.opened s.nextCursor connection none] } where
  options := rfl
  connection _ h := h
  nextCursor := Nat.le_succ _
  cursor := by
    intro c hc
    cases hc
    exact .inr (Nat.le_refl _)
  sound := by
    intro hs
    refine ⟨fun c hc => ?_, fun e he c hc => ?_⟩
    · cases hc
      exact Nat.lt_succ_self _
    · rcases List.mem_append.1 he with he | he
      · exact Nat.lt_succ_of_lt (hs.history e he c hc)
      · rw [List.mem_singleton.1 he] at hc
        cases hc
        exact Nat.lt_succ_self _
  still := by
    intro c hc hown
    cases hown
    exact absurd hc (Nat.lt_irrefl _)
  events := by
    intro c hc _
    have hne : ¬ (Event.opened s.nextCursor connection none).cursor? = some c := by
      rintro h
      cases h
      exact Nat.lt_irrefl _ hc
    exact (Session.on_note c s _).trans (by rw [if_neg hne, List.append_nil])
  rows c hc _ := hheld.openCursor (Nat.ne_of_lt hc) connection s.engine
  named := (Session.named_note s _).trans (by simp [Event.named?])

theorem cursorOf (hheld : Engine.KeepsRows held) :
    Moves o (Frame held OfStore) (Store.cursor : Action σ CursorId) := by
  refine Moves.ofSession fun s ho => ?_
  cases s.cursor with
  | some id => exact stepwise.refl s
  | none =>
    refine (client hheld).bind stepwise (fun connection t ht => ?_) s ho
    exact takeCursor hheld connection t

/-- The cursor that is given is the one that the store holds. -/
theorem cursor_held {id : CursorId} (h : runFrom s (Store.cursor : Action σ CursorId) = (.ok id, t)) :
    t.cursor = some id := by
  rw [Store.cursor, runFrom_bind, runFrom_get] at h
  cases hc : s.cursor with
  | some c =>
    simp only [hc] at h
    cases h
    exact hc
  | none =>
    simp only [hc, runFrom_bind] at h
    cases hclient : runFrom s (Store.client : Action σ ConnectionId) with
    | mk x u =>
      rw [hclient] at h
      cases x with
      | error e => cases h
      | ok connection =>
        simp only [openCursor, runFrom_bind, runFrom_get] at h
        cases h
        rfl

/-- What is done on the cursor of the store comes after it is taken. -/
theorem onCursor {α : Type} (hheld : Engine.KeepsRows held) {f : CursorId → Action σ α}
    (h : ∀ id s, s.options = o → s.cursor = some id → Frame held OfStore s (runFrom s (f id)).2) :
    Moves o (Frame held OfStore) (Store.cursor >>= f) := by
  intro s ho
  have hcursor : Frame held OfStore s (runFrom s Store.cursor).2 := cursorOf hheld s ho
  rw [runFrom_bind]
  cases hrun : runFrom s (Store.cursor : Action σ CursorId) with
  | mk x t =>
    rw [hrun] at hcursor
    cases x with
    | error e => exact hcursor
    | ok id =>
      exact stepwise.trans hcursor (h id t (hcursor.options.trans ho) (cursor_held hrun))

omit [Engine σ] in
theorem attempt {α : Type} (f : σ → Except EngineError α × σ)
    (h : ∀ c, ¬ OfStore s.cursor c → held c (f s.engine).2 = held c s.engine) :
    Frame held OfStore s (runFrom s (Store.attempt f)).2 := by
  have hengine : Frame held OfStore s { s with engine := (f s.engine).2 } := engine _ h
  rw [Store.attempt, runFrom_bind, runFrom_perform]
  cases (f s.engine).1 with
  | ok a => exact hengine
  | error e => exact hengine

theorem execute (hheld : Engine.KeepsRows held) (c : Command) :
    Moves o (Frame held OfStore) (Store.execute c : Action σ Int) := by
  refine (log _ _).bind stepwise fun _ => onCursor hheld fun id s _ hid => ?_
  have hnote : Frame held OfStore s { s with history := s.history ++ [.executed id c] } := by
    refine note _ ?_ ?_ rfl
    · intro d hd
      cases hd
      exact hid
    · intro hs d hd
      cases hd
      exact hs.cursor id hid
  refine stepwise.trans hnote ?_
  refine attempt (s := { s with history := s.history ++ [.executed id c] }) _ fun d hd => ?_
  have hne : d ≠ id := by
    rintro rfl
    exact hd hid
  exact hheld.execute hne c s.engine

theorem fetchAll (hheld : Engine.KeepsRows held) (c : Command) :
    Moves o (Frame held OfStore) (Store.fetchAll c : Action σ (List Value)) := by
  refine Moves.fetched stepwise (Moves.recover stepwise (rollback hheld)) ?_
  refine (execute hheld c).bind stepwise fun _ => onCursor hheld fun id s _ hid => ?_
  refine attempt (s := s) _ fun d hd => ?_
  have hne : d ≠ id := by
    rintro rfl
    exact hd hid
  exact hheld.fetchAll hne s.engine

/-- **Every call keeps all cursors but the one of the store.** -/
theorem carries (hheld : Engine.KeepsRows held) (o : Options) :
    Carries o (fun _ => True) (Frame held OfStore) := {
  stepwise with
  log := log
  client := client hheld
  cursorOf := cursorOf hheld
  execute := fun _ => execute hheld _
  fetchAll := fun _ => fetchAll hheld _
  transaction := Moves.transaction stepwise log (rollback hheld) (commit hheld) }

end Frame

end Docbase
