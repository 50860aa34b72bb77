import Docbase.Proofs.Store.Steps
import Mathlib.Data.List.Forall2

/-!
# The past of a reader

What a journal tells of a reader: how it began, which of its rows it has given, and how it ended.

* `Site.cursorOf`, `Site.answersOf`: the cursor of a reader, and what was given for its items.
* `Launch`, `Asked`, `Ending`: how a reader begins, goes on and ends.
* `Past`: how far a reader has come, one case for each state it may be in.
* `Past.mono`: what is done elsewhere does not change that.
* `Past.step`: **a call about a reader takes it further**.
-/

namespace Docbase

open Sql Store

variable {σ : Type}

/-! ## Journals -/

namespace Site

namespace Entry

/-- The cursors that were opened for readers in the course of a call. -/
def opened (e : Entry σ) : List CursorId :=
  e.after.session.named.drop e.before.session.named.length

/-- The cursor that was opened for a reader when its next item was asked for. -/
def opens (i : Nat) (e : Entry σ) : Option CursorId :=
  match e.request with
  | .next k => if k = i then e.opened.head? else none
  | _ => none

/-- What was given when the next item of a reader was asked for. -/
def gives (i : Nat) (e : Entry σ) : Option (Except Error Answer) :=
  match e.request with
  | .next k => if k = i ∧ i < e.before.readers.length then some e.outcome else none
  | _ => none

variable {e : Entry σ} {i : Nat}

theorem opened_eq {cs : List CursorId}
    (h : e.after.session.named = e.before.session.named ++ cs) : e.opened = cs := by
  rw [opened, h, List.drop_left]

theorem opens_none (h : e.after.session.named = e.before.session.named) : e.opens i = none := by
  have hopened : e.opened = [] := opened_eq (by rw [h, List.append_nil])
  unfold opens
  split
  · rw [hopened, List.head?_nil, ite_self]
  · rfl

theorem opens_some {c : CursorId} (hr : e.request = .next i)
    (h : e.after.session.named = e.before.session.named ++ [c]) : e.opens i = some c := by
  unfold opens
  rw [hr, opened_eq h]
  exact if_pos rfl

theorem gives_next (hr : e.request = .next i) (hi : i < e.before.readers.length) :
    e.gives i = some e.outcome := by
  unfold gives
  rw [hr]
  exact if_pos ⟨rfl, hi⟩

/-- Nothing was given for a reader that was not there. -/
theorem gives_none (hi : e.before.readers.length ≤ i) : e.gives i = none := by
  unfold gives
  split
  · exact if_neg fun h => absurd h.2 (Nat.not_lt_of_le hi)
  · rfl

theorem gives_finish (hr : e.request = .finish i) : e.gives i = none := by
  unfold gives
  rw [hr]

/-- A call that is not about a reader opens no cursor for it. -/
theorem opens_other (h : e.request.reader? ≠ some i) : e.opens i = none := by
  unfold opens
  split
  · rename_i k hk
    rw [hk] at h
    exact if_neg fun hki => h (congrArg some hki)
  · rfl

theorem gives_other (h : e.request.reader? ≠ some i) : e.gives i = none := by
  unfold gives
  split
  · rename_i k hk
    rw [hk] at h
    exact if_neg fun hki => h (congrArg some hki.1)
  · rfl

end Entry

/-- The cursor that was opened for a reader. -/
def cursorOf (i : Nat) (j : List (Entry σ)) : Option CursorId := j.findSome? (Entry.opens i)

/-- What was given for the items of a reader. -/
def answersOf (i : Nat) (j : List (Entry σ)) : List (Except Error Answer) := j.filterMap (Entry.gives i)

theorem cursorOf_snoc (i : Nat) (j : List (Entry σ)) (e : Entry σ) :
    cursorOf i (j ++ [e]) = (cursorOf i j).or (e.opens i) := by
  rw [cursorOf, List.findSome?_append]
  cases h : e.opens i <;> simp [cursorOf, h]

theorem answersOf_snoc (i : Nat) (j : List (Entry σ)) (e : Entry σ) :
    answersOf i (j ++ [e]) = answersOf i j ++ (e.gives i).toList := by
  rw [answersOf, List.filterMap_append]
  cases h : e.gives i <;> simp [answersOf, h]

end Site

/-! ## The past of a reader -/

variable [Engine σ]

/-- A call of a journal finds a reader in some state. -/
structure Finds (j : List (Site.Entry σ)) (r : Request) (i : Nat) (reader : Reader)
    (e : Site.Entry σ) : Prop where
  mem : e ∈ j
  request : e.request = r
  reader : e.before.readers[i]? = some reader

/-- The first item of a reader was asked for: a cursor was opened for it and its command was sent there,
with the engine `f` behind that. -/
def Launch (j : List (Site.Entry σ)) (i : Nat) (query : Query) (connection : ConnectionId)
    (c : CursorId) (answer : Except EngineError Int) (f : σ) : Prop :=
  ∃ e u, Finds j (.next i) i (.pending query) e ∧ e.opened = [c] ∧
    runFrom e.before.session (Reader.reach query) = (.ok connection, u) ∧ u.nextCursor = c ∧
      u.answer connection query.command = (answer, f)

/-- The engine when a row is asked for: the one behind the command, or the one that a later request
finds. -/
inductive Asked (j : List (Site.Entry σ)) (i : Nat) (c : CursorId) (shape : Shape) (f : σ) : σ → Prop
  | first : Asked j i c shape f f
  | later {e : Site.Entry σ} : Finds j (.next i) i (.open c shape) e →
      Asked j i c shape f e.before.session.engine

/-- How a reader ends that has taken some of the rows of its command, and what is given last. -/
inductive Ending (held : CursorId → σ → List Value) (resolver : Resolver) (j : List (Site.Entry σ))
    (i : Nat) (c : CursorId) (shape : Shape) (f : σ) (taken : List Value) :
    List (Except Error Answer) → Prop
  /-- All rows are taken. -/
  | exhausted : held c f = taken → Ending held resolver j i c shape f taken [.ok (.item none)]
  /-- The reader is ended. -/
  | closed {e : Site.Entry σ} : Finds j (.finish i) i (.open c shape) e →
      held c f = taken ++ held c e.before.session.engine →
        Ending held resolver j i c shape f taken []
  /-- The engine does not give the next row. -/
  | broken {e : σ} {x : EngineError} : Asked j i c shape f e → held c f = taken ++ held c e →
      (Engine.fetchNext c e).1 = .error x →
        Ending held resolver j i c shape f taken [.error (.engine x)]
  /-- The next row cannot be read. -/
  | unreadable {row : Value} {rest : List Value} {x : Error} : held c f = taken ++ row :: rest →
      shape.read resolver row = .error x → Ending held resolver j i c shape f taken [.error x]

/-- What was given for items. -/
def given (items : List Value) : List (Except Error Answer) := items.map fun v => .ok (.item (some v))

/-- Nothing is given, time after time. -/
def nothingMore (n : Nat) : List (Except Error Answer) := List.replicate n (.ok (.item none))

/-- How far a reader has come, given its cursor and what was given for its items. -/
inductive Past (held : CursorId → σ → List Value) (o : Options) (j : List (Site.Entry σ))
    (s : Session σ) (i : Nat) (query : Query) :
    Option CursorId → List (Except Error Answer) → Reader → Prop
  /-- Nothing was asked for yet. -/
  | waiting : Past held o j s i query none [] (.pending query)
  /-- It was ended before anything was asked for. -/
  | dropped {e : Site.Entry σ} {n : Nat} : Finds j (.finish i) i (.pending query) e →
      Past held o j s i query none (nothingMore n) .done
  /-- There was no connection for it, and nothing was executed. -/
  | unreached {e : Site.Entry σ} {x : Error} {n : Nat} : Finds j (.next i) i (.pending query) e →
      e.before.session.connection = none →
      (runFrom e.before.session (Reader.reach query)).1 = .error x →
      (∀ c command, .executed c command ∉ e.happened) →
        Past held o j s i query none (.error x :: nothingMore n) .done
  /-- Its command failed. -/
  | failed {connection : ConnectionId} {c : CursorId} {x : EngineError} {f : σ} {n : Nat} :
      Launch j i query connection c (.error x) f →
      s.on c = [.opened c connection (some o.batch), .executed c query.command, .cursorClosed c] →
        Past held o j s i query (some c) (.error (.engine x) :: nothingMore n) .done
  /-- It has taken some of its rows; the cursor holds the others. -/
  | reading {connection : ConnectionId} {c : CursorId} {count : Int} {f : σ}
      {taken items : List Value} : Launch j i query connection c (.ok count) f →
      held c f = taken ++ held c s.engine →
      List.Forall₂ (fun row item => query.shape.read o.resolver row = .ok item) taken items →
      s.on c = [.opened c connection (some o.batch), .executed c query.command] →
        Past held o j s i query (some c) (given items) (.open c query.shape)
  /-- It has taken some of its rows, and has ended. -/
  | ended {connection : ConnectionId} {c : CursorId} {count : Int} {f : σ} {taken items : List Value}
      {last : List (Except Error Answer)} {n : Nat} : Launch j i query connection c (.ok count) f →
      List.Forall₂ (fun row item => query.shape.read o.resolver row = .ok item) taken items →
      Ending held o.resolver j i c query.shape f taken last →
      s.on c = [.opened c connection (some o.batch), .executed c query.command, .cursorClosed c] →
        Past held o j s i query (some c) (given items ++ last ++ nothingMore n) .done

variable {held : CursorId → σ → List Value} {o : Options} {j k : List (Site.Entry σ)}
  {s t : Session σ} {i : Nat} {query : Query} {cursor : Option CursorId}
  {answers : List (Except Error Answer)} {reader : Reader}

omit [Engine σ] in
theorem Finds.mono {r : Request} {e : Site.Entry σ} (h : Finds j r i reader e)
    (hjk : ∀ e ∈ j, e ∈ k) : Finds k r i reader e :=
  ⟨hjk e h.mem, h.request, h.reader⟩

omit [Engine σ] in
theorem Asked.mono {c : CursorId} {shape : Shape} {e f : σ} (h : Asked j i c shape f e)
    (hjk : ∀ e ∈ j, e ∈ k) : Asked k i c shape f e := by
  cases h with
  | first => exact .first
  | later hfinds => exact .later (hfinds.mono hjk)

theorem Launch.mono {connection : ConnectionId} {c : CursorId} {answer : Except EngineError Int}
    {f : σ} (h : Launch j i query connection c answer f) (hjk : ∀ e ∈ j, e ∈ k) :
    Launch k i query connection c answer f := by
  obtain ⟨e, u, hfinds, hlaunch⟩ := h
  exact ⟨e, u, hfinds.mono hjk, hlaunch⟩

theorem Ending.mono {r : Resolver} {c : CursorId} {shape : Shape} {f : σ} {taken : List Value}
    {last : List (Except Error Answer)} (h : Ending held r j i c shape f taken last)
    (hjk : ∀ e ∈ j, e ∈ k) : Ending held r k i c shape f taken last := by
  cases h with
  | exhausted hrows => exact .exhausted hrows
  | closed hfinds hrows => exact .closed (hfinds.mono hjk) hrows
  | broken hasked hrows hfetch => exact .broken (hasked.mono hjk) hrows hfetch
  | unreadable hrows hread => exact .unreadable hrows hread

namespace Past

/-- What is done elsewhere does not change how far a reader has come. -/
theorem mono (h : Past held o j s i query cursor answers reader) (hjk : ∀ e ∈ j, e ∈ k)
    (hcursor : ∀ c, cursor = some c → t.on c = s.on c ∧ held c t.engine = held c s.engine) :
    Past held o k t i query cursor answers reader := by
  cases h with
  | waiting => exact .waiting
  | dropped hfinds => exact .dropped (hfinds.mono hjk)
  | unreached hfinds hnone hreach hunsent =>
    exact .unreached (hfinds.mono hjk) hnone hreach hunsent
  | failed hlaunch hon =>
    obtain ⟨hsame, -⟩ := hcursor _ rfl
    exact .failed (hlaunch.mono hjk) (hsame.trans hon)
  | reading hlaunch hrows hitems hon =>
    obtain ⟨hsame, hheld⟩ := hcursor _ rfl
    exact .reading (hlaunch.mono hjk) (by rw [hheld]; exact hrows) hitems (hsame.trans hon)
  | ended hlaunch hitems hending hon =>
    obtain ⟨hsame, -⟩ := hcursor _ rfl
    exact .ended (hlaunch.mono hjk) hitems (hending.mono hjk) (hsame.trans hon)

theorem nothingMore_snoc (n : Nat) : nothingMore n ++ [.ok (.item none)] = nothingMore (n + 1) :=
  List.replicate_succ'.symm

/-- A reader at its end gives nothing. -/
theorem again (h : Past held o j s i query cursor answers .done) :
    Past held o j s i query cursor (answers ++ [.ok (.item none)]) .done := by
  cases h with
  | dropped hfinds => rw [nothingMore_snoc]; exact .dropped hfinds
  | unreached hfinds hnone hreach hunsent =>
    rw [List.cons_append, nothingMore_snoc]
    exact .unreached hfinds hnone hreach hunsent
  | failed hlaunch hon =>
    rw [List.cons_append, nothingMore_snoc]
    exact .failed hlaunch hon
  | ended hlaunch hitems hending hon =>
    rw [List.append_assoc, nothingMore_snoc]
    exact .ended hlaunch hitems hending hon

/-- A reader that reads holds its cursor. -/
theorem of_open {c : CursorId} {shape : Shape}
    (h : Past held o j s i query cursor answers (.open c shape)) : cursor = some c := by
  cases h
  rfl

/-- A reader that has sent nothing yet has no cursor. -/
theorem of_pending {q : Query} (h : Past held o j s i query cursor answers (.pending q)) :
    cursor = none := by
  cases h
  rfl

/-- The cursor of a reader is closed exactly if the reader is at its end. -/
theorem closed_iff {c : CursorId} (h : Past held o j s i query (some c) answers reader) :
    .cursorClosed c ∈ s.on c ↔ reader = .done := by
  cases h with
  | failed _ hon => simp [hon]
  | reading _ _ _ hon => simp [hon]
  | ended _ _ _ hon => simp [hon]

/-- A reader that advances has come one row further, or has ended. -/
theorem advance {connection : ConnectionId} {c : CursorId} {count : Int} {f : σ}
    {taken items : List Value} {x : Except Error (Option Value)}
    (hlaunch : Launch j i query connection c (.ok count) f) (ho : s.options = o)
    (hasked : Asked j i c query.shape f s.engine) (hrows : held c f = taken ++ held c s.engine)
    (hitems : List.Forall₂ (fun row item => query.shape.read o.resolver row = .ok item) taken items)
    (hon : s.on c = [.opened c connection (some o.batch), .executed c query.command])
    (h : Advance held c query.shape s t x reader) :
    Past held o j t i query (some c) (given items ++ [x.map .item]) reader := by
  have hended : ∀ {last : List (Except Error Answer)},
      Ending held o.resolver j i c query.shape f taken last →
      t.on c = s.on c ++ [.cursorClosed c] →
        Past held o j t i query (some c) (given items ++ last) .done := by
    intro last hending hclosed
    rw [hon] at hclosed
    have hpast := Past.ended (n := 0) hlaunch hitems hending hclosed
    rwa [nothingMore, List.replicate_zero, List.append_nil] at hpast
  cases h with
  | @item row v hheld hread hsame =>
    rw [ho] at hread
    have hgiven : given items ++ [.ok (.item (some v))] = given (items ++ [v]) := by
      simp [given]
    rw [show (Except.ok (some v)).map Answer.item = (.ok (.item (some v)) : Except Error Answer)
      from rfl, hgiven]
    have hrows' : held c f = taken ++ [row] ++ held c t.engine := by
      rw [hrows, hheld, List.append_assoc, List.singleton_append]
    exact .reading hlaunch hrows' (List.rel_append hitems (.cons hread .nil)) (hsame.trans hon)
  | finished hheld hclosed =>
    rw [hheld, List.append_nil] at hrows
    exact hended (.exhausted hrows) hclosed
  | unreadable hheld hread hclosed =>
    rw [hheld] at hrows
    rw [ho] at hread
    exact hended (.unreadable hrows hread) hclosed
  | broken hfetch hclosed => exact hended (.broken hasked hrows hfetch) hclosed

end Past

/-- **A call about a reader takes it further**, as far as its own rows go. -/
theorem Past.step {w w' : Site σ} {r : Request} {x : Except Error Answer} {e : Site.Entry σ}
    (he : e = ⟨w, r, x, w'⟩) (h : Site.Step held w r x w') (hr : r.reader? = some i)
    (hi : w.readers[i]? = some reader) (ho : w.session.options = o) (hsound : w.session.Sound)
    (hpast : Past held o j w.session i query cursor answers reader) :
    ∃ reader', w'.readers[i]? = some reader' ∧
      Past held o (j ++ [e]) w'.session i query (cursor.or (e.opens i))
        (answers ++ (e.gives i).toList) reader' := by
  have hlt : i < w.readers.length := (List.getElem?_eq_some_iff.1 hi).1
  have hset : ∀ other, (w.readers.set i other)[i]? = some other :=
    fun other => List.getElem?_set_self hlt
  have hsub : ∀ e' ∈ j, e' ∈ j ++ [e] := fun _ he' => List.mem_append_left _ he'
  -- the call itself is in the journal behind it
  have hfinds : Finds (j ++ [e]) r i reader e := ⟨by simp, by rw [he], by rw [he]; exact hi⟩
  have hsame : ∀ {n : Nat} {other : Reader}, r.reader? = some n → w.readers[n]? = some other →
      n = i ∧ other = reader := by
    intro n other hn hother
    rw [hr] at hn
    cases hn
    rw [hi] at hother
    cases hother
    exact ⟨rfl, rfl⟩
  subst he
  cases h with
  | call hcall =>
    rw [Request.reader?_call hcall] at hr
    cases hr
  | opened | refused => cases hr
  | absent hk hnone =>
    rw [hr] at hk
    cases hk
    rw [hi] at hnone
    cases hnone
  | atEnd hend =>
    obtain ⟨rfl, rfl⟩ := hsame rfl hend
    refine ⟨.done, hi, ?_⟩
    rw [Site.Entry.opens_none rfl, Site.Entry.gives_next rfl hlt, Option.or_none]
    exact hpast.again.mono hsub fun _ _ => ⟨rfl, rfl⟩
  | atEndFinish hend =>
    obtain ⟨rfl, rfl⟩ := hsame rfl hend
    refine ⟨.done, hi, ?_⟩
    rw [Site.Entry.opens_none rfl, Site.Entry.gives_finish rfl, Option.or_none, Option.toList_none,
      List.append_nil]
    exact hpast.mono hsub fun _ _ => ⟨rfl, rfl⟩
  | dropped hpending =>
    obtain ⟨rfl, rfl⟩ := hsame rfl hpending
    refine ⟨.done, hset _, ?_⟩
    rw [Site.Entry.opens_none rfl, Site.Entry.gives_finish rfl]
    cases hpast
    exact .dropped (n := 0) hfinds
  | @closed _ c shape hopen hframe =>
    obtain ⟨rfl, rfl⟩ := hsame rfl hopen
    refine ⟨.done, hset _, ?_⟩
    rw [Site.Entry.opens_none hframe.named, Site.Entry.gives_finish rfl, Option.or_none]
    cases hpast with
    | reading hlaunch hrows hitems hon =>
      have hclosed := on_closed c w.session
      rw [hon] at hclosed
      have hended := Past.ended (n := 0) (hlaunch.mono hsub) hitems (.closed hfinds hrows) hclosed
      rwa [List.append_nil] at hended
  | unreached hpending hreach hframe =>
    obtain ⟨rfl, rfl⟩ := hsame rfl hpending
    refine ⟨.done, hset _, ?_⟩
    rw [Site.Entry.opens_none hframe.named, Site.Entry.gives_next rfl hlt]
    cases hpast
    refine .unreached (n := 0) hfinds (reach_error hreach) (congrArg Prod.fst hreach) ?_
    -- all that happened came of the attempt to connect
    have hgrows : Grows (fun e => e.connects = true) w.session
        (runFrom w.session (Reader.reach query)).2 := grows_reach
    rw [hreach] at hgrows
    obtain ⟨-, trace, hhistory, hconnects⟩ := hgrows
    intro c command hmem
    rw [Site.Entry.happened_eq hhistory] at hmem
    cases hconnects _ hmem
  | @started n _ connection u t answer f y _ hpending hreach hanswer hfirst hreached hstarted hframe =>
    obtain ⟨rfl, rfl⟩ := hsame rfl hpending
    have hnamed : t.named = w.session.named ++ [u.nextCursor] := by
      rw [hframe.named, named_started, hreached.named]
    refine ⟨_, hset _, ?_⟩
    rw [Site.Entry.opens_some rfl hnamed, Site.Entry.gives_next rfl hlt]
    cases hpast
    have hlaunch : Launch (j ++ [_]) n query connection u.nextCursor answer f :=
      ⟨_, u, hfinds, Site.Entry.opened_eq hnamed, hreach, rfl, hanswer⟩
    have hu : u.options = o := hreached.options.trans ho
    have hon := on_started (hreached.sound hsound) connection query.command f
    rw [hu] at hon
    have hstartedOptions : (u.started connection query.command f).options = o := hu
    cases hfirst with
    | refused hclosed =>
      rw [hon] at hclosed
      exact .failed (n := 0) hlaunch hclosed
    | answered hadvance =>
      have hitems : List.Forall₂ (fun row item => query.shape.read o.resolver row = .ok item) [] [] :=
        .nil
      exact .advance hlaunch hstartedOptions .first rfl hitems hon hadvance
  | @advanced _ c shape t y _ hopen hadvance hframe =>
    obtain ⟨rfl, rfl⟩ := hsame rfl hopen
    refine ⟨_, hset _, ?_⟩
    rw [Site.Entry.opens_none hframe.named, Site.Entry.gives_next rfl hlt, Option.or_none]
    cases hpast with
    | reading hlaunch hrows hitems hon =>
      exact .advance (hlaunch.mono hsub) ho (.later hfinds) hrows hitems hon hadvance

end Docbase
