import Docbase.Proofs.Store.Openings
import Docbase.Proofs.Store.Past
import Mathlib.Data.List.Induction

/-!
# Readers in use

Any number of readers of a store are gone through at the same time, with other calls of the store in
between. Each of them still gives the rows of its own command, one by one and in their order.

* `Told`: what a journal tells of readers; `Told.step`: a call adds to it; `run_told`: so does a run.
* `opensReader`, `leavesAtEnd`: what is done when a reader is opened, and when it is at its end.
* `readers_served`: **what every run does with the readers of a store**.
-/

namespace Docbase

open Sql Store

variable {σ : Type} [Engine σ]

/-- The query that a reader was opened for. -/
def OpenedFor (o : Options) (j : List (Site.Entry σ)) (i : Nat) (query : Query) : Prop :=
  ∃ e ∈ j, ∃ q : Opening, e.request = .opening q ∧ e.before.readers.length = i ∧
    q.query o = .ok query

/-- What a journal tells of the readers of the site that it leads to. -/
structure Told (held : CursorId → σ → List Value) (o : Options) (j : List (Site.Entry σ))
    (w : Site σ) : Prop where
  options : w.session.options = o
  sound : w.session.Sound
  /-- The cursors of readers were opened, and the store holds none of them. -/
  taken : ∀ i c, Site.cursorOf i j = some c → c < w.session.nextCursor ∧ w.session.cursor ≠ some c ∧
    i < w.readers.length ∧ ∃ connection, w.session.connection = some connection
  /-- No two readers have the same cursor. -/
  apart : ∀ i k c, Site.cursorOf i j = some c → Site.cursorOf k j = some c → i = k
  /-- Only requests for items open cursors for readers, and each reader has one. -/
  opened : ∀ e ∈ j, e.opened = [] ∨
    ∃ i c, e.request = .next i ∧ e.opened = [c] ∧ Site.cursorOf i j = some c
  /-- Nothing was given for readers that are not there. -/
  unasked : ∀ i, w.readers.length ≤ i → Site.answersOf i j = []
  past : ∀ i reader, w.readers[i]? = some reader → ∃ query, OpenedFor o j i query ∧
    Past held o j w.session i query (Site.cursorOf i j) (Site.answersOf i j) reader

namespace Told

variable {held : CursorId → σ → List Value} {o : Options} {j : List (Site.Entry σ)} {w w' : Site σ}
  {r : Request} {x : Except Error Answer}

theorem connected (h : Told held o j w) : w.Connected := by
  intro i c shape hi
  obtain ⟨query, -, hpast⟩ := h.past i _ hi
  obtain ⟨hc, -, -, hconnection⟩ := h.taken i c hpast.of_open
  exact ⟨hc, hconnection⟩

/-- A call that is about another reader does not touch the cursor of a reader. -/
theorem not_own (h : Told held o j w) {i : Nat} {c : CursorId} (hc : Site.cursorOf i j = some c)
    (hr : r.reader? ≠ some i) : ¬ w.Own r c := by
  rintro (hown | ⟨k, shape, hk, hopen⟩)
  · exact (h.taken i c hc).2.1 hown
  · obtain ⟨query, -, hpast⟩ := h.past k _ hopen
    rw [h.apart i k c hc hpast.of_open] at hr
    exact hr hk

/-- A cursor that is opened for a reader is a new one. -/
theorem opens_new (h : Told held o j w) (hstep : Site.Step held w r x w') {i : Nat} {c : CursorId}
    (hopens : Site.Entry.opens i ⟨w, r, x, w'⟩ = some c) :
    r = .next i ∧ i < w.readers.length ∧ w.session.nextCursor ≤ c ∧ c < w'.session.nextCursor ∧
      w'.session.cursor ≠ some c ∧ ∃ connection, w'.session.connection = some connection := by
  rcases hstep.named h.sound with hnamed | ⟨k, query, d, hr, hk, hnamed, hnew⟩
  · rw [Site.Entry.opens_none hnamed] at hopens
    cases hopens
  · have hki : k = i := by
      by_contra hne
      rw [Site.Entry.opens_other (by rw [hr]; exact fun h => hne (Option.some.inj h))] at hopens
      cases hopens
    subst hki
    rw [Site.Entry.opens_some hr hnamed] at hopens
    cases hopens
    exact ⟨hr, (List.getElem?_eq_some_iff.1 hk).1, hnew⟩

/-- **A call adds to what a journal tells.** -/
theorem step (h : Told held o j w) (hstep : Site.Step held w r x w') :
    Told held o (j ++ [⟨w, r, x, w'⟩]) w' := by
  have hkeeps := hstep.keeps
  have hcursor : ∀ i c, Site.cursorOf i (j ++ [⟨w, r, x, w'⟩]) = some c →
      Site.cursorOf i j = some c ∨ Site.Entry.opens i ⟨w, r, x, w'⟩ = some c := by
    intro i c hc
    rw [Site.cursorOf_snoc, Option.or_eq_some_iff] at hc
    rcases hc with hc | ⟨-, hc⟩
    · exact .inl hc
    · exact .inr hc
  refine ⟨hkeeps.options.trans h.options, hkeeps.sound h.sound, ?_, ?_, ?_, ?_, ?_⟩
  -- `taken`: the store takes no cursor but one that it opens itself
  · intro i c hc
    rcases hcursor i c hc with hc | hc
    · obtain ⟨hlt, hfree, hi, connection, hconnection⟩ := h.taken i c hc
      refine ⟨Nat.lt_of_lt_of_le hlt hkeeps.nextCursor, ?_, Nat.lt_of_lt_of_le hi hstep.length_le,
        connection, hkeeps.connection connection hconnection⟩
      intro hheld
      rcases hkeeps.cursor c hheld with hheld | hle
      · exact hfree hheld
      · exact absurd hlt (Nat.not_lt_of_le hle)
    · obtain ⟨-, hi, -, hlt, hfree, hconnection⟩ := h.opens_new hstep hc
      exact ⟨hlt, hfree, Nat.lt_of_lt_of_le hi hstep.length_le, hconnection⟩
  -- `apart`: a cursor that is opened by the call is none of those that were opened before
  · have hnew : ∀ i k c, Site.cursorOf i j = some c →
        Site.Entry.opens k ⟨w, r, x, w'⟩ = some c → False := by
      intro i k c hi hk
      obtain ⟨-, -, hle, -⟩ := h.opens_new hstep hk
      exact absurd (h.taken i c hi).1 (Nat.not_lt_of_le hle)
    intro i k c hi hk
    rcases hcursor i c hi with hi | hi
    · rcases hcursor k c hk with hk | hk
      · exact h.apart i k c hi hk
      · exact (hnew i k c hi hk).elim
    · rcases hcursor k c hk with hk | hk
      · exact (hnew k i c hk hi).elim
      · obtain ⟨hnext, -⟩ := h.opens_new hstep hi
        obtain ⟨hnext', -⟩ := h.opens_new hstep hk
        rw [hnext] at hnext'
        cases hnext'
        rfl
  -- `opened`
  · intro e he
    rcases List.mem_append.1 he with he | he
    · rcases h.opened e he with hnone | ⟨i, c, hr, hopened, hc⟩
      · exact .inl hnone
      · refine .inr ⟨i, c, hr, hopened, ?_⟩
        rw [Site.cursorOf_snoc, hc, Option.some_or]
    · cases List.mem_singleton.1 he
      rcases hstep.named h.sound with hnamed | ⟨i, query, c, hr, hi, hnamed, -⟩
      · exact .inl (Site.Entry.opened_eq (by rw [hnamed, List.append_nil]))
      · refine .inr ⟨i, c, hr, Site.Entry.opened_eq hnamed, ?_⟩
        obtain ⟨_, -, hpast⟩ := h.past i _ hi
        have hnone : Site.cursorOf i j = none := hpast.of_pending
        rw [Site.cursorOf_snoc, hnone, Option.none_or, Site.Entry.opens_some hr hnamed]
  -- `unasked`
  · intro i hi
    have hle : w.readers.length ≤ i := Nat.le_trans hstep.length_le hi
    rw [Site.answersOf_snoc, h.unasked i hle, Site.Entry.gives_none hle]
    rfl
  -- `past`: the reader is a new one, the one that the call is about, or another one
  · intro i reader hi
    have hsub : ∀ e ∈ j, e ∈ j ++ [(⟨w, r, x, w'⟩ : Site.Entry σ)] :=
      fun _ he => List.mem_append_left _ he
    have hmore : ∀ {query}, OpenedFor o j i query → OpenedFor o (j ++ [⟨w, r, x, w'⟩]) i query := by
      rintro query ⟨e, he, hopened⟩
      exact ⟨e, hsub e he, hopened⟩
    rw [Site.cursorOf_snoc, Site.answersOf_snoc]
    by_cases hlen : w.readers.length ≤ i
    · obtain ⟨q, query, hr, hq, hreader, hlast⟩ := hstep.newcomer hi hlen
      rw [h.options] at hq
      refine ⟨query, ⟨⟨w, r, x, w'⟩, by simp, q, hr, hlast, hq⟩, ?_⟩
      have hnone : Site.cursorOf i j = none := by
        rw [Option.eq_none_iff_forall_ne_some]
        intro c hc
        exact absurd (h.taken i c hc).2.2.1 (Nat.not_lt_of_le hlen)
      rw [hnone, h.unasked i hlen, Site.Entry.gives_none hlen,
        Site.Entry.opens_other (by rw [hr]; exact fun h => by cases h), hreader]
      exact .waiting
    · have hlt : i < w.readers.length := Nat.lt_of_not_le hlen
      by_cases hr : r.reader? = some i
      · obtain ⟨before, hbefore⟩ : ∃ before, w.readers[i]? = some before :=
          ⟨_, List.getElem?_eq_getElem hlt⟩
        obtain ⟨query, hopened, hpast⟩ := h.past i before hbefore
        obtain ⟨after, hafter, hpast'⟩ := hpast.step rfl hstep hr hbefore h.options h.sound
        rw [hi] at hafter
        cases hafter
        exact ⟨query, hmore hopened, hpast'⟩
      · rw [hstep.reader hr hlt] at hi
        obtain ⟨query, hopened, hpast⟩ := h.past i reader hi
        refine ⟨query, hmore hopened, ?_⟩
        rw [Site.Entry.opens_other hr, Site.Entry.gives_other hr, Option.or_none, Option.toList_none,
          List.append_nil]
        refine hpast.mono hsub fun c hc => ?_
        obtain ⟨hlt, -⟩ := h.taken i c hc
        have hown : ¬ w.Own r c := h.not_own hc hr
        exact ⟨hkeeps.events c hlt hown, hkeeps.rows c hlt hown⟩

end Told

/-- A store that has opened no reader tells nothing. -/
theorem told_start {s : Session σ} (hs : s.Sound) : Told held s.options [] (⟨s, []⟩ : Site σ) where
  options := rfl
  sound := hs
  taken _ _ h := by cases h
  apart _ _ _ h := by cases h
  opened _ h := by cases h
  unasked _ _ := rfl
  past _ _ h := by cases h

/-- **What the journal of a run tells of its readers.** -/
theorem run_told (hheld : Engine.KeepsRows held) {s : Session σ} (hs : s.Sound)
    {requests : List Request} (hclose : .close ∉ requests) :
    Told held s.options (Site.journal ⟨s, []⟩ requests) (Site.run ⟨s, []⟩ requests) := by
  induction requests using List.reverseRecOn with
  | nil => exact told_start hs
  | append_singleton rs r ih =>
    have htold := ih fun h => hclose (List.mem_append_left _ h)
    have hr : r ≠ .close := by
      rintro rfl
      exact hclose (by simp)
    rw [Site.journal_append, Site.run_append]
    exact htold.step (Site.step_cases hheld htold.connected hr)

/-- What comes of opening a reader: nothing is done to the store, and the reader is refused if anything is
malformed. -/
structure OpensReader (o : Options) (q : Opening) (e : Site.Entry σ) : Prop where
  session : e.after.session = e.before.session
  opened : q.WellFormed o → ∃ query, q.query o = .ok query ∧
    e.outcome = .ok (.reader e.before.readers.length) ∧
      e.after.readers = e.before.readers ++ [.pending query]
  refused : ¬ q.WellFormed o → ∃ x, e.outcome = .error x ∧ e.after = e.before

/-- Nothing is done for a reader at its end, and nothing is given. -/
structure LeavesAtEnd (i : Nat) (e : Site.Entry σ) : Prop where
  next : e.request = .next i → e.outcome = .ok (.item none) ∧ e.after = e.before
  finish : e.request = .finish i → e.outcome = .ok .nothing ∧ e.after = e.before

/-- What a run does with the readers of a store that has opened none before. -/
structure Served (held : CursorId → σ → List Value) (s : Session σ) (requests : List Request) :
    Prop extends Told held s.options (Site.journal ⟨s, []⟩ requests) (Site.run ⟨s, []⟩ requests) where
  opening : ∀ e ∈ Site.journal ⟨s, []⟩ requests, ∀ q, e.request = .opening q →
    OpensReader s.options q e
  atEnd : ∀ e ∈ Site.journal ⟨s, []⟩ requests, ∀ i, e.before.readers[i]? = some .done →
    LeavesAtEnd i e
  /-- A reader keeps its cursor. -/
  steady : ∀ start, start <+: requests → ∀ i c,
    Site.cursorOf i (Site.journal ⟨s, []⟩ start) = some c →
      Site.cursorOf i (Site.journal ⟨s, []⟩ requests) = some c
  /-- The cursor of a reader is closed as soon as the reader is at its end, and not before. -/
  closed : ∀ i c, Site.cursorOf i (Site.journal ⟨s, []⟩ requests) = some c →
    (.cursorClosed c ∈ (Site.run ⟨s, []⟩ requests).session.history ↔
      (Site.run ⟨s, []⟩ requests).readers[i]? = some .done)

theorem opensReader {s : Session σ} {requests : List Request} {e : Site.Entry σ} {q : Opening}
    (he : e ∈ Site.journal ⟨s, []⟩ requests) (hr : e.request = .opening q) :
    OpensReader s.options q e := by
  obtain ⟨past, rest, -, hbefore, hstep⟩ := Site.mem_journal he
  have ho : e.before.session.options = s.options := by
    rw [hbefore]
    exact Site.run_options _ past
  rw [hr] at hstep
  simp only [Site.step, runFrom_opening, ho] at hstep
  cases hq : q.query s.options with
  | ok query =>
    rw [hq] at hstep
    obtain ⟨houtcome, hafter⟩ := Prod.mk.inj hstep
    have hwell : q.WellFormed s.options := Opening.query_ok_iff.1 ⟨query, hq⟩
    refine ⟨?_, fun _ => ⟨query, hq, houtcome.symm, ?_⟩, fun hnot => absurd hwell hnot⟩
    · rw [← hafter]
    · rw [← hafter]
  | error x =>
    rw [hq] at hstep
    obtain ⟨houtcome, hafter⟩ := Prod.mk.inj hstep
    refine ⟨?_, fun hwell => ?_, fun _ => ⟨x, houtcome.symm, hafter.symm⟩⟩
    · rw [← hafter]
    · obtain ⟨query, hquery⟩ := Opening.query_ok_iff.2 hwell
      rw [hq] at hquery
      cases hquery

theorem leavesAtEnd {w : Site σ} {requests : List Request} {e : Site.Entry σ} {i : Nat}
    (he : e ∈ w.journal requests) (hi : e.before.readers[i]? = some .done) : LeavesAtEnd i e := by
  obtain ⟨-, -, -, -, hstep⟩ := Site.mem_journal he
  refine ⟨fun hr => ?_, fun hr => ?_⟩
  · have hnext : e.before.step (.next i) = (.ok (.item none), e.before) := by
      rw [Site.step_next (x := .ok none) (r := .done) (t := e.before.session) hi rfl,
        Site.set_same hi]
      rfl
    rw [hr, hnext] at hstep
    obtain ⟨houtcome, hafter⟩ := Prod.mk.inj hstep
    exact ⟨houtcome.symm, hafter.symm⟩
  · have hfinish : e.before.step (.finish i) = (.ok .nothing, e.before) := by
      rw [Site.step_finish (r := .done) (t := e.before.session) hi rfl, Site.set_same hi]
    rw [hr, hfinish] at hstep
    obtain ⟨houtcome, hafter⟩ := Prod.mk.inj hstep
    exact ⟨houtcome.symm, hafter.symm⟩

/-- The cursor of a reader is closed exactly if the reader is at its end. -/
theorem Told.closed_iff {o : Options} {j : List (Site.Entry σ)} {w : Site σ} {i : Nat} {c : CursorId}
    (h : Told held o j w) (hc : Site.cursorOf i j = some c) :
    .cursorClosed c ∈ w.session.history ↔ w.readers[i]? = some .done := by
  have hon : .cursorClosed c ∈ w.session.history ↔ .cursorClosed c ∈ w.session.on c := by
    simp [Session.on, Event.cursor?]
  obtain ⟨-, -, hlt, -⟩ := h.taken i c hc
  have hreader : w.readers[i]? = some w.readers[i] := List.getElem?_eq_getElem hlt
  obtain ⟨query, -, hpast⟩ := h.past i _ hreader
  rw [hc] at hpast
  rw [hon, hreader, hpast.closed_iff, Option.some_inj]

/-- **What every run does with the readers of a store.** A reader that is opened sends nothing. When its
first item is asked for, a cursor is opened for it and its command is sent there, unless the store can
get no connection. Whatever is done in between, the reader then gives the rows of its command in its
shape, one by one and in their order, until there are no more, it is closed, or an error comes up; then
its cursor is closed, and nothing more is done for it. -/
theorem readers_served (hheld : Engine.KeepsRows held) {s : Session σ} (hs : s.Sound)
    {requests : List Request} (hclose : .close ∉ requests) : Served held s requests where
  toTold := run_told hheld hs hclose
  opening _ he _ hr := opensReader he hr
  atEnd _ he _ hi := leavesAtEnd he hi
  steady := by
    rintro start ⟨rest, rfl⟩ i c hc
    rw [Site.journal_append, Site.cursorOf, List.findSome?_append]
    exact Option.or_eq_some_iff.2 (.inl hc)
  closed _ _ hc := (run_told hheld hs hclose).closed_iff hc

/-- A reader of a collection, from its first document on. -/
def Opening.all : Opening := .filterDocs (.str "animals") (.node .any) {}

/-- A row with a document of one member. -/
def Scripted.Row.named (name : String) : Row :=
  .row (.mapping [(.str docColumn, .mapping [(.str "name", .str name)])])

/-- A store on an engine with the rows of three commands. -/
def Session.stocked : Session Scripted :=
  .withConnection ⟨"t_", "TEXT", true, false, 100, "log"⟩ {}
    { results := [[.named "a", .named "b"], [], [.named "c", .named "d"]] }

/-- Two readers are gone through in turn, with a question in between; one of them is closed. -/
def Request.interleaved : List Request :=
  [.opening .all, .opening .all, .next 0, .question .listCollections, .next 1, .next 0, .finish 1,
    .next 0, .next 1]

theorem readers_served_interleaved :
    Engine.KeepsRows Scripted.rowsOf ∧ Session.stocked.Sound ∧ .close ∉ Request.interleaved ∧
      Served Scripted.rowsOf Session.stocked Request.interleaved ∧
      Site.answersOf 0 (Site.journal ⟨Session.stocked, []⟩ Request.interleaved) =
        given [.mapping [(.str "name", .str "a")], .mapping [(.str "name", .str "b")]] ++
          [.ok (.item none)] ∧
      Site.answersOf 1 (Site.journal ⟨Session.stocked, []⟩ Request.interleaved) =
        given [.mapping [(.str "name", .str "c")]] ++ nothingMore 1 := by
  have hsound : Session.stocked.Sound := Session.sound_withConnection _ _ _
  have hclose : .close ∉ Request.interleaved := by simp [Request.interleaved]
  exact ⟨Scripted.keepsRows, hsound, hclose, readers_served Scripted.keepsRows hsound hclose, rfl, rfl⟩

/-- A store without a connection, on an engine that refuses one. -/
def Session.unreachable : Session Scripted :=
  .withoutConnection ⟨"t_", "TEXT", true, false, 100, "log"⟩ {}
    { connectError := some ⟨.operational, "no route"⟩ }

/-- A reader that was opened, and whose first item is asked for: no cursor is opened for it, and nothing
is sent. -/
theorem first_next_unreachable :
    Opening.all.WellFormed Session.unreachable.options ∧
      (Site.run ⟨Session.unreachable, []⟩ [.opening .all]).readers.length = 1 ∧
      (Site.run ⟨Session.unreachable, []⟩ [.opening .all, .next 0]).session.named = [] ∧
      ∀ c command, Event.executed c command ∉
        (Site.run ⟨Session.unreachable, []⟩ [.opening .all, .next 0]).session.history := by
  refine ⟨Opening.query_ok_iff.1 ⟨_, rfl⟩, rfl, rfl, fun c command h => ?_⟩
  have hhistory : ∃ text target e,
      (Site.run ⟨Session.unreachable, []⟩ [.opening .all, .next 0]).session.history =
        [.logged .debug text, .notConnected target e] := ⟨_, _, _, rfl⟩
  obtain ⟨text, target, e, hhistory⟩ := hhistory
  rw [hhistory] at h
  simp at h

end Docbase
