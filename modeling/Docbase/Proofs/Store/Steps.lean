import Docbase.Proofs.Store.Readers

/-!
# Steps of a store with readers

What a call does to a store and to the readers that it has opened, case by case. All that is to be
shown of runs follows from these cases.

* `Site.Step`: what comes of a call; `Site.step_cases`: **every call but the last one is such a step**.
* `Site.Step.keeps`: no cursor is touched but the one of the store and the one of the reader that the
  call is about.
* `Site.Step.reader`: nor is any other reader.
* `Site.Step.named`: only the first request for an item opens a cursor for a reader, a new one.
-/

namespace Docbase

open Sql Store

variable {σ : Type} {held : CursorId → σ → List Value}

/-- The number of the reader that the call is about. -/
def Request.reader? : Request → Option Nat
  | .next i | .finish i => some i
  | _ => none

/-- A call of the store itself is about no reader. -/
theorem Request.reader?_call {r : Request} (h : r.isCall = true) : r.reader? = none := by
  cases r with
  | next | finish => cases h
  | _ => rfl

namespace Site

/-- The cursors that a call may touch: the one of the store and the one of its reader. -/
def Own (w : Site σ) (r : Request) (c : CursorId) : Prop :=
  w.session.cursor = some c ∨ ∃ i shape, r.reader? = some i ∧ w.readers[i]? = some (Reader.open c shape)

/-- A reader that reads holds a cursor that was opened, and the store still has its connection. -/
def Connected (w : Site σ) : Prop :=
  ∀ (i : Nat) c shape, w.readers[i]? = some (Reader.open c shape) →
    c < w.session.nextCursor ∧ ∃ connection, w.session.connection = some connection

variable [Engine σ]

/-- What comes of a call. -/
inductive Step (held : CursorId → σ → List Value) (w : Site σ) :
    Request → Except Error Answer → Site σ → Prop
  /-- A call of the store itself. -/
  | call {r : Request} {x : Except Error Answer} {t : Session σ} : r.isCall = true →
      Frame held OfStore w.session t → Step held w r x ⟨t, w.readers⟩
  /-- A reader is opened. -/
  | opened {q : Opening} {query : Query} : q.query w.session.options = .ok query →
      Step held w (.opening q) (.ok (.reader w.readers.length))
        ⟨w.session, w.readers ++ [.pending query]⟩
  /-- A reader is not opened. -/
  | refused {q : Opening} {e : Error} : q.query w.session.options = .error e →
      Step held w (.opening q) (.error e) w
  /-- There is no such reader. -/
  | absent {r : Request} {i : Nat} : r.reader? = some i → w.readers[i]? = none →
      Step held w r (.ok .nothing) w
  /-- The reader is at its end already. -/
  | atEnd {i : Nat} : w.readers[i]? = some .done → Step held w (.next i) (.ok (.item none)) w
  | atEndFinish {i : Nat} : w.readers[i]? = some .done → Step held w (.finish i) (.ok .nothing) w
  /-- The reader is ended before it has sent anything. -/
  | dropped {i : Nat} {query : Query} : w.readers[i]? = some (.pending query) →
      Step held w (.finish i) (.ok .nothing) ⟨w.session, w.readers.set i .done⟩
  /-- The reader is ended. -/
  | closed {i : Nat} {c : CursorId} {shape : Shape} : w.readers[i]? = some (.open c shape) →
      Frame held (OfReader c) w.session (w.session.closed c) →
        Step held w (.finish i) (.ok .nothing) ⟨w.session.closed c, w.readers.set i .done⟩
  /-- There is no connection to send the command on. -/
  | unreached {i : Nat} {query : Query} {x : Error} {u : Session σ} :
      w.readers[i]? = some (.pending query) →
      runFrom w.session (Reader.reach query) = (.error x, u) →
      Frame held (fun _ _ => False) w.session u →
        Step held w (.next i) (.error x) ⟨u, w.readers.set i .done⟩
  /-- The reader opens a cursor, sends its command and advances. -/
  | started {i : Nat} {query : Query} {connection : ConnectionId} {u t : Session σ}
      {answer : Except EngineError Int} {f : σ} {x : Except Error (Option Value)} {r : Reader} :
      w.readers[i]? = some (.pending query) →
      runFrom w.session (Reader.reach query) = (.ok connection, u) →
      u.answer connection query.command = (answer, f) →
      FirstAdvance held u.nextCursor query.shape (u.started connection query.command f) t answer x r →
      Frame held (fun _ _ => False) w.session u →
      Keeps held (fun _ => False) u (u.started connection query.command f) →
      Frame held (OfReader u.nextCursor) (u.started connection query.command f) t →
        Step held w (.next i) (x.map .item) ⟨t, w.readers.set i r⟩
  /-- The reader advances. -/
  | advanced {i : Nat} {c : CursorId} {shape : Shape} {t : Session σ}
      {x : Except Error (Option Value)} {r : Reader} : w.readers[i]? = some (.open c shape) →
      Advance held c shape w.session t x r → Frame held (OfReader c) w.session t →
        Step held w (.next i) (x.map .item) ⟨t, w.readers.set i r⟩

variable {w w' : Site σ} {r : Request} {x : Except Error Answer}

omit [Engine σ] in
/-- A reader that stays as it is leaves its site as it is. -/
theorem set_same {i : Nat} {reader : Reader} (h : w.readers[i]? = some reader) :
    (⟨w.session, w.readers.set i reader⟩ : Site σ) = w := by
  obtain ⟨hi, rfl⟩ := List.getElem?_eq_some_iff.1 h
  rw [List.set_getElem_self hi]

/-- A request for the next item of a reader that is there. -/
theorem step_next {i : Nat} {reader r : Reader} {x : Except Error (Option Value)} {t : Session σ}
    (hi : w.readers[i]? = some reader) (h : reader.next w.session = ((x, r), t)) :
    w.step (.next i) = (x.map .item, ⟨t, w.readers.set i r⟩) := by
  simp only [step, hi, h]

theorem step_finish {i : Nat} {reader r : Reader} {t : Session σ}
    (hi : w.readers[i]? = some reader) (h : runFrom w.session reader.close = (.ok r, t)) :
    w.step (.finish i) = (.ok .nothing, ⟨t, w.readers.set i r⟩) := by
  simp only [step, hi, h]

theorem step_close (w : Site σ) :
    (w.step .close).2.session = (runFrom w.session (Store.close : Action σ Unit)).2 := by
  show (runFrom w.session (do Store.close; pure .nothing : Action σ Answer)).2 = _
  rw [runFrom_bind]
  cases hrun : runFrom w.session (Store.close : Action σ Unit) with
  | mk x t => cases x <;> rfl

/-- **Every call but the last one is a step.** -/
theorem step_cases (hheld : Engine.KeepsRows held) (hw : w.Connected) (hr : r ≠ .close) :
    Step held w r (w.step r).1 (w.step r).2 := by
  have hcall : r.isCall = true → Step held w r (w.step r).1 ⟨(w.step r).2.session, w.readers⟩ :=
    fun h => .call h (step_call (Frame.carries hheld w.session.options) rfl (fun _ _ => trivial) h)
  cases r with
  | change | upsertDoc | question | client | cursor => exact hcall rfl
  | close => exact absurd rfl hr
  | opening q =>
    simp only [step, runFrom_opening]
    cases hq : q.query w.session.options with
    | ok query => exact .opened hq
    | error e => exact .refused hq
  | next i =>
    cases hi : w.readers[i]? with
    | none =>
      have hstep : w.step (.next i) = (.ok .nothing, w) := by simp only [step, hi]
      rw [hstep]
      exact .absent rfl hi
    | some reader =>
      cases reader with
      | done =>
        rw [step_next (x := .ok none) (r := .done) (t := w.session) hi rfl, set_same hi]
        exact .atEnd hi
      | «open» c shape =>
        obtain ⟨hc, connection, hconn⟩ := hw i c shape hi
        obtain ⟨x, r, t, hnext, hadvance, hframe⟩ :=
          Reader.open_next shape hheld hconn hc
        rw [step_next hi hnext]
        exact .advanced hi hadvance hframe
      | pending query =>
        have hreach : Frame held (fun _ _ => False) w.session
            (runFrom w.session (Reader.reach query)).2 := frame_reach hheld
        rcases Reader.pending_next (s := w.session) query hheld with
          ⟨x, u, hrun, hnext⟩ | ⟨connection, u, answer, f, x, r, t, hrun, hanswer, hnext, hfirst, hframe⟩
        · rw [hrun] at hreach
          rw [step_next hi hnext]
          exact .unreached hi hrun hreach
        · rw [hrun] at hreach
          rw [step_next hi hnext]
          exact .started hi hrun hanswer hfirst hreach
            (keeps_started hheld connection query.command hanswer) hframe
  | finish i =>
    cases hi : w.readers[i]? with
    | none =>
      have hstep : w.step (.finish i) = (.ok .nothing, w) := by simp only [step, hi]
      rw [hstep]
      exact .absent rfl hi
    | some reader =>
      cases reader with
      | done =>
        rw [step_finish (r := .done) (t := w.session) hi rfl, set_same hi]
        exact .atEndFinish hi
      | «open» c shape =>
        obtain ⟨hc, -⟩ := hw i c shape hi
        obtain ⟨hclose, -, hframe⟩ := Reader.open_close shape hheld hc
        rw [step_finish hi hclose]
        exact .closed hi hframe
      | pending query =>
        rw [step_finish (r := .done) (t := w.session) hi rfl]
        exact .dropped hi

namespace Step

/-- **No cursor is touched but the one of the store and the one of the reader that the call is
about.** -/
theorem keeps (h : Step held w r x w') : Keeps held (w.Own r) w.session w'.session := by
  have hrefl : Keeps held (w.Own r) w.session w.session := .refl w.session
  have htrans : ∀ {own : CursorId → Prop} {t : Session σ}, Keeps held own w.session t →
      (∀ c < w.session.nextCursor, own c → w.Own r c) → Keeps held (w.Own r) w.session t :=
    fun hkeeps hown => hrefl.trans hkeeps hown
  cases h with
  | call _ hframe => exact htrans hframe.toKeeps fun c _ hc => .inl hc
  | opened | refused | absent | atEnd | atEndFinish | dropped => exact hrefl
  | @closed i c shape hi hframe =>
    refine htrans hframe.toKeeps fun d _ hd => .inr ⟨i, shape, rfl, ?_⟩
    rw [hi, show d = c from hd]
  | unreached _ _ hframe => exact htrans hframe.toKeeps fun _ _ hc => hc.elim
  | @advanced i c shape _ _ _ hi _ hframe =>
    refine htrans hframe.toKeeps fun d _ hd => .inr ⟨i, shape, rfl, ?_⟩
    rw [hi, show d = c from hd]
  | started _ _ _ _ hreach hstarted hframe =>
    have hopened := hreach.toKeeps.trans hstarted fun _ _ h => h
    -- the cursor of the reader is a new one
    refine htrans (hopened.trans hframe.toKeeps fun c hc hown => ?_) fun _ _ hc => hc.elim
    rw [show c = _ from hown] at hc
    exact absurd hreach.nextCursor (Nat.not_le_of_lt hc)

/-- The readers that a call is not about stay as they are. -/
theorem reader (h : Step held w r x w') {i : Nat} (hr : r.reader? ≠ some i)
    (hi : i < w.readers.length) : w'.readers[i]? = w.readers[i]? := by
  have hset : ∀ {k : Nat} {other : Reader}, r.reader? = some k →
      (w.readers.set k other)[i]? = w.readers[i]? := by
    intro k other hk
    rw [List.getElem?_set_ne]
    rintro rfl
    exact hr hk
  cases h with
  | call | refused | absent | atEnd | atEndFinish => rfl
  | opened => exact List.getElem?_append_left hi
  | dropped | closed | unreached | started | advanced => exact hset rfl

theorem length_le (h : Step held w r x w') : w.readers.length ≤ w'.readers.length := by
  cases h with
  | call | refused | absent | atEnd | atEndFinish => exact Nat.le_refl _
  | opened => simp
  | dropped | closed | unreached | started | advanced => simp

/-- A reader that was not there is one that was opened. -/
theorem newcomer (h : Step held w r x w') {i : Nat} {reader : Reader}
    (hi : w'.readers[i]? = some reader) (hlen : w.readers.length ≤ i) :
    ∃ q query, r = .opening q ∧ q.query w.session.options = .ok query ∧ reader = .pending query ∧
      w.readers.length = i := by
  have hlt : i < w'.readers.length := (List.getElem?_eq_some_iff.1 hi).1
  have hsame : w'.readers.length = w.readers.length → False := by
    intro hsame
    rw [hsame] at hlt
    exact absurd hlt (Nat.not_lt_of_le hlen)
  cases h with
  | call | refused | absent | atEnd | atEndFinish => exact (hsame rfl).elim
  | dropped | closed | unreached | started | advanced => exact (hsame List.length_set).elim
  | @opened q query hq =>
    have hlast : i = w.readers.length := by
      rw [List.length_append, List.length_singleton] at hlt
      exact Nat.le_antisymm (Nat.le_of_lt_succ hlt) hlen
    subst hlast
    rw [List.getElem?_concat_length] at hi
    cases hi
    exact ⟨q, query, rfl, hq, rfl, rfl⟩

/-- **Only the first request for an item opens a cursor for a reader**, a new one which the store does
not take for itself. -/
theorem named (h : Step held w r x w') (hw : w.session.Sound) :
    w'.session.named = w.session.named ∨ ∃ i query c, r = .next i ∧
      w.readers[i]? = some (.pending query) ∧ w'.session.named = w.session.named ++ [c] ∧
        w.session.nextCursor ≤ c ∧ c < w'.session.nextCursor ∧ w'.session.cursor ≠ some c ∧
          ∃ connection, w'.session.connection = some connection := by
  cases h with
  | call _ hframe => exact .inl hframe.named
  | opened | refused | absent | atEnd | atEndFinish | dropped => exact .inl rfl
  | closed _ hframe => exact .inl hframe.named
  | unreached _ _ hframe => exact .inl hframe.named
  | advanced _ _ hframe => exact .inl hframe.named
  | @started i query connection u t _ f _ _ hi hrun _ _ hreach hstarted hframe =>
    have hu : u.Sound := hreach.sound hw
    have hlt : u.nextCursor < (u.started connection query.command f).nextCursor :=
      Nat.lt_succ_self _
    refine .inr ⟨i, query, u.nextCursor, rfl, hi, ?_, hreach.nextCursor,
      Nat.lt_of_lt_of_le hlt hframe.nextCursor, ?_, connection, ?_⟩
    · rw [hframe.named, named_started, hreach.named]
    · intro hcursor
      rcases hframe.cursor _ hcursor with hcursor | hle
      · exact Nat.lt_irrefl _ (hu.cursor _ hcursor)
      · exact absurd hle (Nat.not_le_of_lt hlt)
    · exact hframe.connection _ (hstarted.connection _ (reach_connection hrun))

end Step

end Site

end Docbase
