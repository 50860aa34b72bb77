import Docbase.Engine.Scripted
import Docbase.Proofs.Store.Refused
import Docbase.Proofs.Store.Transaction

/-!
# What is refused is refused first

A change that cannot be carried out as it is given has to leave no trace: no command is sent before
all of it was looked at, and no transaction is ended for it, since that one may hold work of others.

* `Store.Fails`: whatever an action fails with has a property, with a rule for every way to build
  actions; `run_fails`: once a plan is there, only the database can get into the way.
* `OnlySent`: some commands were sent and no transaction ended; `getDoc_sent`: asking for a document
  sends one.
* `carryOut_rejected`, `Change.runFrom_refused`, `upsertDoc_rejected`: what comes of a change that is
  refused.
* `refused_first`: **a change is refused exactly if something of it is, wherever that stands, and
  then nothing has happened**.
-/

namespace Docbase

open Sql Store

variable {σ α β : Type}

namespace Store

/-! ## What actions fail with -/

/-- Whatever an action fails with has a property. -/
def Fails (P : Error → Prop) (a : Action σ α) : Prop :=
  ∀ s x, (runFrom s a).1 = .error x → P x

namespace Fails

variable {P : Error → Prop}

/-- The action always gives a result. -/
theorem never {a : Action σ α} (h : ∀ s, ∃ x, (runFrom s a).1 = .ok x) : Fails P a := by
  intro s e he
  obtain ⟨x, hx⟩ := h s
  rw [hx] at he
  cases he

theorem pure (x : α) : Fails P (pure x : Action σ α) := never fun _ => ⟨x, rfl⟩

theorem throw {e : Error} (h : P e) : Fails P (throw e : Action σ α) := by
  intro s x hx
  cases hx
  exact h

theorem given {x : Except Error α} (h : FailsWith P x) : Fails P (given x : Action σ α) := by
  intro s e he
  rw [runFrom_given] at he
  exact h e he

theorem bind {a : Action σ α} {f : α → Action σ β} (ha : Fails P a) (hf : ∀ x, Fails P (f x)) :
    Fails P (a >>= f) := by
  intro s e he
  have hs := ha s e
  rw [runFrom_bind] at he
  cases hrun : runFrom s a with
  | mk x t =>
    rw [hrun] at he hs
    cases x with
    | error e' =>
      cases he
      exact hs rfl
    | ok x => exact hf x t e he

/-- A handler knows what it handles. -/
theorem tryCatch {a : Action σ α} {f : Error → Action σ α} (ha : Fails P a)
    (hf : ∀ e, P e → Fails P (f e)) : Fails P (tryCatch a f) := by
  intro s e he
  have hs := ha s
  rw [runFrom_tryCatch] at he
  cases hrun : runFrom s a with
  | mk x t =>
    rw [hrun] at he hs
    cases x with
    | error e' => exact hf e' (hs e' rfl) t e he
    | ok x => cases he

end Fails

/-- The action only fails for the database. -/
abbrev FailsOutside (a : Action σ α) : Prop := Fails (fun e => e.isRejection = false) a

theorem note_fails (e : Event) : FailsOutside (note e : Action σ Unit) :=
  .never fun _ => ⟨(), rfl⟩

theorem log_fails (level : Log.Level) (text : String) :
    FailsOutside (log level text : Action σ Unit) :=
  note_fails _

theorem attempt_fails (f : σ → Except EngineError α × σ) : FailsOutside (attempt f) := by
  refine Fails.bind (.never fun s => ⟨_, rfl⟩) fun x => ?_
  cases x with
  | error e => exact .throw rfl
  | ok a => exact .pure a

theorem announce_fails (text : String) : FailsOutside (announce text : Action σ Unit) :=
  Fails.bind (.never fun s => ⟨s, rfl⟩) fun _ => log_fails _ _

variable [Engine σ]

/-- A connection is not opened because the settings do not say where, or because of the database. -/
theorem connect_fails : FailsOutside (connect : Action σ ConnectionId) := by
  refine Fails.bind (.never fun s => ⟨s, rfl⟩) fun s => ?_
  refine Fails.bind (.given (FailsWith.refuse fun c hc => ?_)) fun t => ?_
  · unfold target at hc
    split at hc
    · cases hc
      rfl
    · cases hc
  refine Fails.bind (.never fun s => ⟨_, rfl⟩) fun x => ?_
  cases x with
  | error e =>
    refine (note_fails _).bind fun _ => .throw ?_
    unfold connectError
    split
    · rfl
    · rfl
  | ok u =>
    exact (note_fails _).bind fun _ => Fails.bind (.never fun s => ⟨_, rfl⟩) fun _ =>
      (announce_fails _).bind fun _ => .pure _

theorem client_fails : FailsOutside (client : Action σ ConnectionId) := by
  refine Fails.bind (.never fun s => ⟨s, rfl⟩) fun s => ?_
  split
  · exact .pure _
  · exact connect_fails

theorem cursor_fails : FailsOutside (cursor : Action σ CursorId) := by
  refine Fails.bind (.never fun s => ⟨s, rfl⟩) fun s => ?_
  split
  · exact .pure _
  · refine client_fails.bind fun k => ?_
    refine Fails.bind (.never fun s => ⟨_, rfl⟩) fun id => ?_
    exact Fails.bind (.never fun s => ⟨_, rfl⟩) fun _ => .pure id

theorem execute_fails (c : Command) : FailsOutside (execute c : Action σ Int) :=
  (log_fails _ _).bind fun _ => cursor_fails.bind fun _ =>
    (note_fails _).bind fun _ => attempt_fails _

theorem executeAll_fails (commands : List Command) :
    FailsOutside (executeAll commands : Action σ Int) := by
  induction commands with
  | nil => exact .pure 0
  | cons c cs ih =>
    cases cs with
    | nil => exact execute_fails c
    | cons d ds => exact (execute_fails c).bind fun _ => ih

theorem rollback_fails : FailsOutside (rollback : Action σ Unit) :=
  client_fails.bind fun _ => Fails.bind (.never fun _ => ⟨(), rfl⟩) fun _ => note_fails _

theorem commit_fails : FailsOutside (commit : Action σ Unit) := by
  refine client_fails.bind fun k => Fails.bind (.never fun s => ⟨_, rfl⟩) fun x => ?_
  cases x with
  | error e => exact (note_fails _).bind fun _ => .throw rfl
  | ok u => exact note_fails _

theorem recover_fails (e : Error) : FailsOutside (recover e : Action σ Unit) := by
  refine Fails.bind (.never fun s => ⟨s, rfl⟩) fun s => ?_
  split
  · exact rollback_fails
  · exact .pure _

/-- An error of the body is passed on, or that of taking changes back takes its place. -/
theorem transaction_fails {body : Action σ α} (h : FailsOutside body) :
    FailsOutside (transaction body) := by
  refine Fails.bind (.never fun s => ⟨s, rfl⟩) fun s => ?_
  split
  · refine Fails.bind (Fails.tryCatch h fun e he => ?_) fun a => commit_fails.bind fun _ => .pure a
    exact (log_fails _ _).bind fun _ => rollback_fails.bind fun _ => .throw he
  · exact h

/-- **Once a plan is there, only the database can get into the way.** -/
theorem run_fails (p : Plan) : FailsOutside (run p : Action σ Unit) :=
  (transaction_fails (executeAll_fails p.commands)).bind fun _ => announce_fails _

theorem fetchAll_fails (c : Command) : FailsOutside (fetchAll c : Action σ (List Value)) := by
  refine Fails.tryCatch ?_ fun e he => (recover_fails e).bind fun _ => .throw he
  exact (execute_fails c).bind fun _ => cursor_fails.bind fun _ => attempt_fails _

omit [Engine σ] in
/-- What comes first in an action that gives a result gives one. -/
theorem runFrom_bind_ok {a : Action σ α} {f : α → Action σ β} {s u : Session σ} {y : β}
    (h : runFrom s (a >>= f) = (.ok y, u)) :
    ∃ x t, runFrom s a = (.ok x, t) ∧ runFrom t (f x) = (.ok y, u) := by
  rw [runFrom_bind] at h
  cases hrun : runFrom s a with
  | mk x t =>
    rw [hrun] at h
    cases x with
    | error e => cases h
    | ok x => exact ⟨x, t, rfl, h⟩

end Store

/-! ## What was sent -/

/-- Between two sessions some commands were sent and no transaction ended. -/
structure OnlySent (commands : List Command) (s t : Session σ) : Prop where
  options : t.options = s.options
  history : ∃ trace, t.history = s.history ++ trace ∧
    trace.filterMap Event.command? = commands ∧ trace.filter Event.settles = []

/-- The event is neither the sending of a command nor the end of a transaction. -/
def Event.Silent (e : Event) : Prop := e.settles = false ∧ e.command? = none

namespace OnlySent

variable {s t u : Session σ} {commands more : List Command}

theorem trans (h : OnlySent commands s t) (k : OnlySent more t u) :
    OnlySent (commands ++ more) s u where
  options := k.options.trans h.options
  history := by
    obtain ⟨trace, hh, hc, hs⟩ := h.history
    obtain ⟨trace', hh', hc', hs'⟩ := k.history
    refine ⟨trace ++ trace', by rw [hh', hh, List.append_assoc], ?_, ?_⟩
    · rw [List.filterMap_append, hc, hc']
    · rw [List.filter_append, hs, hs', List.append_nil]

theorem of_grows (h : Grows Event.Silent s t) : OnlySent [] s t where
  options := h.options
  history := by
    obtain ⟨trace, hh, hsilent⟩ := h.history
    refine ⟨trace, hh, List.filterMap_eq_nil_iff.2 fun e he => (hsilent e he).2, ?_⟩
    exact List.filter_eq_nil_iff.2 fun e he => by simp [(hsilent e he).1]

theorem sent (id : CursorId) (c : Command) (s : Session σ) :
    OnlySent [c] s { s with history := s.history ++ [.executed id c] } where
  options := rfl
  history := ⟨[.executed id c], rfl, rfl, rfl⟩

end OnlySent

variable {o : Options}

/-- What sends no command and ends no transaction is silent. -/
theorem silent_steps : AllowsSteps o (fun _ => False) (Grows Event.Silent (σ := σ)) := by
  refine Grows.steps fun e hsettles hwithin => ⟨hsettles, ?_⟩
  cases e with
  | executed id c => exact (hwithin id c rfl).elim
  | _ => rfl

section Sent

variable {s t : Session σ} {c : Command}

/-- Steps that are silent send nothing. -/
theorem moves_sent {a : Action σ α} {x : α} (ha : Moves s.options (Grows Event.Silent) a)
    (h : runFrom s a = (.ok x, t)) : OnlySent [] s t := by
  have hgrows := ha s rfl
  rw [h] at hgrows
  exact .of_grows hgrows

variable [Engine σ]

/-- A command that was answered was sent once. -/
theorem execute_sent {n : Int} (h : runFrom s (execute c) = (.ok n, t)) : OnlySent [c] s t := by
  obtain ⟨_, s₁, hlog, h⟩ := runFrom_bind_ok h
  obtain ⟨id, s₂, hcursor, h⟩ := runFrom_bind_ok h
  obtain ⟨_, s₃, hnote, h⟩ := runFrom_bind_ok h
  cases hnote
  have hlogged := moves_sent (silent_steps.log _ _) hlog
  have hheld := moves_sent silent_steps.cursorOf hcursor
  have hanswered := moves_sent (silent_steps.attempt _) h
  exact ((hlogged.trans hheld).trans (.sent id c s₂)).trans hanswered

/-- A question that was answered was sent once. -/
theorem fetchAll_sent {rows : List Value} (h : runFrom s (fetchAll c) = (.ok rows, t)) :
    OnlySent [c] s t := by
  rw [fetchAll, runFrom_tryCatch] at h
  split at h
  case h_1 rows' t' hbody =>
    cases h
    obtain ⟨n, s₁, hsent, h⟩ := runFrom_bind_ok hbody
    obtain ⟨id, s₂, hcursor, h⟩ := runFrom_bind_ok h
    have hheld := moves_sent silent_steps.cursorOf hcursor
    have hread := moves_sent (silent_steps.attempt _) h
    exact ((execute_sent hsent).trans hheld).trans hread
  case h_2 =>
    -- the handler passes the error on
    obtain ⟨_, _, _, h⟩ := runFrom_bind_ok h
    cases h

/-- A document that was asked for, in one command, and was found, is missing, or is none. -/
theorem getDoc_sent {collection id : Value} {x : Except Error Value}
    (hc : s.options.byIdCommand docColumn collection id = .ok c)
    (h : runFrom s (getDoc collection id) = (x, t))
    (hx : FailsWith (fun e => e.isRejection = true) x) : OnlySent [c] s t := by
  have hask : runFrom s (ask fun o => o.byIdCommand docColumn collection id) =
      runFrom s (fetchAll c) := by
    rw [ask, runFrom_bind, runFrom_get]
    simp only [runFrom_bind, runFrom_given, hc]
  rw [getDoc, runFrom_bind, hask] at h
  cases hrun : runFrom s (fetchAll c) with
  | mk y u =>
    rw [hrun] at h
    cases y with
    | error e =>
      -- the engine has failed, and that is no rejection
      cases h
      have houtside : e.isRejection = false := fetchAll_fails c s e (by rw [hrun])
      rw [hx e rfl] at houtside
      cases houtside
    | ok rows =>
      -- the row is only read
      have htu : t = u := by
        cases rows with
        | nil =>
          cases h
          rfl
        | cons row rows =>
          simp only [runFrom_given] at h
          exact (congrArg Prod.snd h).symm
      rw [htu]
      exact fetchAll_sent hrun

end Sent

/-! ## Refused changes -/

section Refused

variable [Engine σ] {s t : Session σ} {plan : Options → Except Error Plan} {x : Error}

/-- **What fails for an argument has no plan**, and so it does nothing. -/
theorem carryOut_rejected (h : runFrom s (carryOut plan) = (.error x, t))
    (hx : x.isRejection = true) : plan s.options = .error x ∧ t = s := by
  rw [runFrom_carryOut] at h
  cases hp : plan s.options with
  | error y =>
    rw [hp] at h
    cases h
    exact ⟨rfl, rfl⟩
  | ok p =>
    rw [hp] at h
    have houtside : x.isRejection = false := run_fails p s x (congrArg Prod.fst h)
    rw [hx] at houtside
    cases houtside

/-- **A change that is refused does nothing.** -/
theorem Change.runFrom_refused {m : Change} (hm : ∃ name, m.collection = .str name)
    (hrefused : m.Refused s.options) :
    ∃ x : Error, x.isRejection = true ∧ runFrom s m.act = (.error x, s) := by
  obtain ⟨x, hx⟩ := (Change.plan_error_iff hm).2 hrefused
  exact ⟨x, Change.plan_rejects _ m x hx, Change.act_refused hm hx⟩

/-- And only such a change fails for an argument. -/
theorem Change.refused_of_rejected {m : Change} (hm : ∃ name, m.collection = .str name)
    (h : (runFrom s m.act).1 = .error x) (hx : x.isRejection = true) : m.Refused s.options := by
  rw [Change.act_named hm] at h
  obtain ⟨hp, -⟩ := carryOut_rejected (t := (runFrom s _).2) (Prod.ext h rfl) hx
  exact (Change.plan_error_iff hm).1 ⟨x, hp⟩

/-- The command that asks for the document of an id. -/
def documentCommand (table : String) (id : Value) : Command :=
  .bound (.select docColumn table .byId [] false false) [("id", id)]

variable {name : String} {id document : Value}

/-- **A merge that fails for an argument has only asked for the stored document.** -/
theorem upsertDoc_rejected (h : runFrom s (upsertDoc (.str name) id document) = (.error x, t))
    (hx : x.isRejection = true) : ∃ table, OnlySent [documentCommand table id] s t := by
  obtain ⟨table, hc⟩ : ∃ table, s.options.byIdCommand docColumn (.str name) id =
      .ok (documentCommand table id) := ⟨_, rfl⟩
  refine ⟨table, ?_⟩
  rw [upsertDoc, runFrom_bind] at h
  cases hrun : runFrom s (getDoc (.str name) id) with
  | mk y u =>
    rw [hrun] at h
    cases y with
    | error e =>
      cases h
      exact getDoc_sent hc hrun (.error hx)
    | ok stored =>
      -- the document is added or merged into the stored one, whichever it is
      have htu : t = u := by
        simp only at h
        split at h
        · exact (carryOut_rejected h hx).2
        · exact (carryOut_rejected h hx).2
      rw [htu]
      exact getDoc_sent hc hrun (.ok stored)

/-- A merge of what is refused as a document fails. -/
theorem upsertDoc_refused (hrefused : Document.Refused s.options.promote document) :
    ∃ x, (runFrom s (upsertDoc (.str name) id document)).1 = .error x := by
  have hoptions : (runFrom s (getDoc (.str name) id)).2.options = s.options :=
    ((Grows.allows (P := fun _ => True) fun _ _ => trivial).carries.getDoc
      (fun _ _ => trivial) s rfl).options
  rw [upsertDoc, runFrom_bind]
  cases hrun : runFrom s (getDoc (.str name) id) with
  | mk y u =>
    rw [hrun] at hoptions
    have hu : Document.Refused u.options.promote document := by
      rw [show u.options = s.options from hoptions]
      exact hrefused
    cases y with
    | error e => exact ⟨e, rfl⟩
    | ok stored =>
      simp only
      split
      · obtain ⟨x, -, hx⟩ := Change.runFrom_refused (s := u)
          (m := .addDoc (.str name) id document) ⟨name, rfl⟩ hu
        exact ⟨x, congrArg Prod.fst hx⟩
      · obtain ⟨x, -, hx⟩ := Change.runFrom_refused (s := u)
          (m := .updateDoc (.str name) id document) ⟨name, rfl⟩ hu
        exact ⟨x, congrArg Prod.fst hx⟩

end Refused

/-! ## Runs -/

/-- A call without an answer of its own passes the error of its action on. -/
theorem Site.act_outcome {w : Site σ} {a : Action σ Unit} {x : Error} :
    (w.act (do a; pure .nothing)).1 = .error x ↔ (runFrom w.session a).1 = .error x := by
  show (runFrom w.session (do a; pure Answer.nothing)).1 = _ ↔ _
  rw [runFrom_bind]
  cases runFrom w.session a with
  | mk y t => cases y <;> simp

theorem Site.act_after (w : Site σ) (a : Action σ Unit) :
    (w.act (do a; pure .nothing)).2 = ⟨(runFrom w.session a).2, w.readers⟩ := by
  show (⟨(runFrom w.session (do a; pure Answer.nothing)).2, w.readers⟩ : Site σ) = _
  rw [runFrom_bind]
  cases runFrom w.session a with
  | mk y t => cases y <;> rfl

/-- **A change of a named collection fails for an argument exactly if something of it is refused,
wherever that stands in it, and then nothing has happened at all.** A merge fails too if its
document is refused, and what fails for an argument has only asked for the stored document: no
transaction has ended. -/
theorem refused_first [Engine σ] (w : Site σ) (requests : List Request) :
    ∀ entry ∈ w.journal requests,
      (∀ m name, entry.request = .change m → m.collection = .str name →
        ((∃ x, entry.outcome = .error x ∧ x.isRejection = true) ↔ m.Refused w.session.options) ∧
        (m.Refused w.session.options → entry.after = entry.before)) ∧
      (∀ name id document, entry.request = .upsertDoc (.str name) id document →
        (Document.Refused w.session.options.promote document → ∃ x, entry.outcome = .error x) ∧
        ∀ x, entry.outcome = .error x → x.isRejection = true →
          ∃ table,
            OnlySent [documentCommand table id] entry.before.session entry.after.session) := by
  intro entry hentry
  obtain ⟨past, rest, -, hbefore, hstep⟩ := Site.mem_journal hentry
  have hoptions : entry.before.session.options = w.session.options :=
    hbefore ▸ w.run_options past
  have hafter : entry.after = (entry.before.step entry.request).2 := by rw [hstep]
  have houtcome : entry.outcome = (entry.before.step entry.request).1 := by rw [hstep]
  rw [hafter, houtcome, ← hoptions]
  refine ⟨?_, ?_⟩
  · intro m name hm hname
    -- the site behind a refused change is the very site before it
    rw [hm]
    refine ⟨⟨?_, fun hrefused => ?_⟩, fun hrefused => ?_⟩
    · rintro ⟨x, h, hx⟩
      exact Change.refused_of_rejected ⟨name, hname⟩ (Site.act_outcome.1 h) hx
    · obtain ⟨x, hx, hrun⟩ := Change.runFrom_refused ⟨name, hname⟩ hrefused
      exact ⟨x, Site.act_outcome.2 (congrArg Prod.fst hrun), hx⟩
    · obtain ⟨x, hx, hrun⟩ := Change.runFrom_refused ⟨name, hname⟩ hrefused
      show (entry.before.act _).2 = entry.before
      rw [Site.act_after, hrun]
  · intro name id document hupsert
    rw [hupsert]
    refine ⟨fun hrefused => ?_, fun x h hx => ?_⟩
    · obtain ⟨x, hx⟩ := upsertDoc_refused hrefused
      exact ⟨x, Site.act_outcome.2 hx⟩
    · show ∃ table, OnlySent _ _ (entry.before.act _).2.session
      rw [Site.act_after]
      exact upsertDoc_rejected (Prod.ext (Site.act_outcome.1 h) rfl) hx

/-- Calls with one thing in them that is refused: the last of some indexes, a leaf deep in a filter,
the last of some metadata. -/
def Request.refusedLate : List Request :=
  [.change (.addCollection (.str "c")
      [.node (.plain (.field ⟨"a", .asc, false, none⟩)), .node (.plain (.unknown "Index"))]),
    .change (.deleteMany (.str "c")
      (.node (.both (.id "1") (.either (.id "2") (.negate (.unknown "Filter")))))),
    .upsertDoc (.str "c") (.str "1")
      (.mapping [(.str "metadata", .mapping [(.str "a", .int 1), (.str "no name", .int 2)])])]

theorem refused_first_late :
    (∀ entry ∈ (Site.mk Session.promoting []).journal Request.refusedLate,
      (∀ m, entry.request = .change m → entry.after = entry.before) ∧
      ∃ x, entry.outcome = .error x) ∧
    ((Site.mk Session.promoting []).run Request.refusedLate).session.history.filterMap
        Event.command? = [documentCommand "t_c" (.str "1")] := by
  refine ⟨fun entry he => ?_, by rfl⟩
  obtain ⟨hchange, hupsert⟩ := refused_first ⟨Session.promoting, []⟩ Request.refusedLate entry he
  obtain ⟨past, rest, hrequests, -⟩ := Site.mem_journal he
  have hmem : entry.request ∈ Request.refusedLate := by simp [hrequests]
  have hnamed : ∀ m, entry.request = .change m → m.collection = .str "c" →
      m.Refused Session.promoting.options →
        (∀ m, entry.request = .change m → entry.after = entry.before) ∧
          ∃ x, entry.outcome = .error x := by
    intro m hm hname hrefused
    obtain ⟨hiff, hsame⟩ := hchange m "c" hm hname
    obtain ⟨x, hx, -⟩ := hiff.2 hrefused
    exact ⟨fun _ _ => hsame hrefused, x, hx⟩
  simp only [Request.refusedLate, List.mem_cons, List.not_mem_nil, or_false] at hmem
  rcases hmem with hm | hm | hm
  · exact hnamed _ hm rfl ⟨.node (.plain (.unknown "Index")), by simp, .unknown "Index"⟩
  · refine hnamed _ hm rfl ⟨by simp, .bothRight (.eitherRight ?_)⟩
    exact .negatedLeaf (.unknown "Filter")
  · have hunfit : (Key.str "no name").Unfit := by
      rintro s hs
      cases hs
      decide
    refine ⟨fun m h => ?_, (hupsert "c" _ _ hm).1 ?_⟩
    · rw [hm] at h
      cases h
    · have hlast : (Key.str "no name", Value.int 2) ∈
          [(Key.str "a", Value.int 1), (Key.str "no name", Value.int 2)] := by simp
      exact .name rfl hlast hunfit

end Docbase
