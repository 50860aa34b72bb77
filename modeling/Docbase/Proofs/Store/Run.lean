import Docbase.Proofs.Outcome
import Docbase.Proofs.Store.Allowed

/-!
# Runs of a store

A store in use: one call after the other, with any number of readers that are gone through in
between.

* `Change`: a change of collections, indexes or documents; `Change.plan` is what it works out before
  it sends a command.
* `Request`: any call of a store; `Site.step` carries it out.
* `Site.journal`: all calls of a run, each with the sites before and behind it.
* `mem_journal`: an entry of the journal is a step from the site that the calls before it lead to.
* `Request.Sends`: the commands that a call may send.
* `Site.step_call`: a relation that holds over what calls are made of holds over every call.
* `Site.step_moves`, `Site.run_moves`: **a relation between sessions that allows what a store does
  holds over every call and over every run**, if the commands of the calls are among the allowed ones.
-/

namespace Docbase

open Sql

/-- The plan of dropping a collection. -/
def Options.dropCollectionPlan (o : Options) (collection : Value) : Except Error Plan := do
  let table ← o.table collection
  pure {
    commands := [.plain (.dropTable table)]
    report := fun _ => "Collection '" ++ collection.text ++ "' dropped." }

/-- A change of a store. -/
inductive Change
  | addCollection (collection : Value) (indexes : List (Given Index))
  | dropCollection (collection : Value)
  | addIndex (collection : Value) (index : Given Index)
  | dropIndex (collection : Value) (index : Given Index)
  | addDoc (collection id document : Value)
  | updateDoc (collection id document : Value)
  | replaceDoc (collection id document : Value)
  | updateMany (collection : Value) (filter : Given Filter) (document : Value)
  | replaceMany (collection : Value) (filter : Given Filter) (document : Value)
  | deleteDoc (collection id : Value)
  | deleteMany (collection : Value) (filter : Given Filter)

/-- A question to a store. -/
inductive Question
  | listCollections
  | collectionsFrom (start : Value)
  | hasCollection (collection : Value)
  | hasIndex (collection index : Value)
  | getDoc (collection id : Value)
  | getPartialDoc (collection : Value) (select : Given Selection) (id : Value)
  | filterDocIds (collection : Value) (filter : Given Filter)
  | countDocs (collection : Value) (filter : Given Filter)

/-- What a reader is opened for. -/
inductive Opening
  | filterDocs (collection : Value) (filter : Given Filter) (paging : Paging)
  | findDocs (collection : Value) (filter : Given Filter) (paging : Paging)
  | findPartialDocs (collection : Value) (select : Given Selection) (filter : Given Filter)
    (paging : Paging)

/-- A call of a store, or of one of its readers. -/
inductive Request
  | change (change : Change)
  | upsertDoc (collection id document : Value)
  | question (question : Question)
  /-- Opens a reader. -/
  | opening (opening : Opening)
  /-- The next item of the reader of that number. -/
  | next (reader : Nat)
  /-- Ends the reader of that number. -/
  | finish (reader : Nat)
  | client
  | cursor
  | close

/-- What a call gives. -/
inductive Answer
  | nothing
  | truth (b : Bool)
  | number (n : Int)
  | value (v : Value)
  | values (vs : List Value)
  | reader (number : Nat)
  | item (v : Option Value)
  | handle (id : Nat)

/-- A store at work, with the readers that it opened. -/
structure Site (σ : Type) where
  session : Session σ
  readers : List Reader := []

variable {σ : Type}

namespace Change

/-- The collection that is changed. -/
def collection : Change → Value
  | addCollection collection _ | dropCollection collection | addIndex collection _
  | dropIndex collection _ | addDoc collection _ _ | updateDoc collection _ _
  | replaceDoc collection _ _ | updateMany collection _ _ | replaceMany collection _ _
  | deleteDoc collection _ | deleteMany collection _ => collection

/-- What is worked out before a command is sent. -/
def plan (o : Options) : Change → Except Error Plan
  | addCollection collection indexes => o.addCollectionPlan collection indexes
  | dropCollection collection => o.dropCollectionPlan collection
  | addIndex collection index => o.addIndexPlan collection index
  | dropIndex collection index => o.dropIndexPlan collection index
  | addDoc collection id document => o.addDocPlan collection id document
  | updateDoc collection id document => o.changeDocPlan true collection id document
  | replaceDoc collection id document => o.changeDocPlan false collection id document
  | updateMany collection filter document => o.changeManyPlan true collection filter document
  | replaceMany collection filter document => o.changeManyPlan false collection filter document
  | deleteDoc collection id => o.deleteDocPlan collection id
  | deleteMany collection filter => o.deleteManyPlan collection filter

variable [Engine σ]

/-- The call of the store. -/
def act : Change → Action σ Unit
  | addCollection collection indexes => Store.addCollection collection indexes
  | dropCollection collection => Store.dropCollection collection
  | addIndex collection index => Store.addIndex collection index
  | dropIndex collection index => Store.dropIndex collection index
  | addDoc collection id document => Store.addDoc collection id document
  | updateDoc collection id document => Store.updateDoc collection id document
  | replaceDoc collection id document => Store.replaceDoc collection id document
  | updateMany collection filter document => Store.updateMany collection filter document
  | replaceMany collection filter document => Store.replaceMany collection filter document
  | deleteDoc collection id => Store.deleteDoc collection id
  | deleteMany collection filter => Store.deleteMany collection filter

/-- Most changes are worked out before the transaction. -/
theorem act_eq_carryOut {m : Change} (h : ∀ collection, m ≠ .dropCollection collection) :
    (m.act : Action σ Unit) = Store.carryOut fun o => m.plan o := by
  cases m with
  | dropCollection collection => exact absurd rfl (h collection)
  | _ => rfl

end Change

/-- The command of a question. -/
def Question.command (o : Options) : Question → Except Error Command
  | listCollections => .ok o.allTablesQuery
  | collectionsFrom start => o.tablesFromQuery start
  | hasCollection collection => o.hasCollectionQuery collection
  | hasIndex collection index => o.hasIndexQuery collection index
  | getDoc collection id => o.byIdCommand docColumn collection id
  | getPartialDoc collection select id => do
    let (_, items) ← o.selectionItems select
    o.byIdCommand items collection id
  | filterDocIds collection filter => o.allCommand idColumn collection filter
  | countDocs collection filter => o.allCommand "COUNT(*) AS count" collection filter

/-- What the reader is to go through. -/
def Opening.query (o : Options) : Opening → Except Error Query
  | filterDocs collection filter paging => o.docsQuery collection filter paging
  | findDocs collection filter paging => o.pairsQuery collection filter paging
  | findPartialDocs collection select filter paging =>
    o.partialPairsQuery collection select filter paging

/-- The change may send the command. -/
def Change.Sends (o : Options) (c : Command) (m : Change) : Prop :=
  ∃ p, m.plan o = .ok p ∧ c ∈ p.commands

/-- The request may send the command, at once or through the reader that it opens. -/
def Request.Sends (o : Options) (c : Command) : Request → Prop
  | .change m => m.Sends o c
  | .upsertDoc collection id document =>
    (Question.getDoc collection id).command o = .ok c ∨
      (Change.addDoc collection id document).Sends o c ∨
        (Change.updateDoc collection id document).Sends o c
  | .question q => q.command o = .ok c
  | .opening q => ∃ query, q.query o = .ok query ∧ query.command = c
  | .next _ | .finish _ | .client | .cursor | .close => False

/-- The request is a call of the store itself, and not the last one. -/
def Request.isCall : Request → Bool
  | .change _ | .upsertDoc .. | .question _ | .client | .cursor => true
  | .opening _ | .next _ | .finish _ | .close => false

variable [Engine σ]

/-- The call of the store. -/
def Question.act : Question → Action σ Answer
  | listCollections => do pure (.values (← Store.listCollections))
  | collectionsFrom start => do pure (.values (← Store.collectionsFrom start))
  | hasCollection collection => do pure (.truth (← Store.hasCollection collection))
  | hasIndex collection index => do pure (.truth (← Store.hasIndex collection index))
  | getDoc collection id => do pure (.value (← Store.getDoc collection id))
  | getPartialDoc collection select id => do
    pure (.value (← Store.getPartialDoc collection select id))
  | filterDocIds collection filter => do pure (.values (← Store.filterDocIds collection filter))
  | countDocs collection filter => do pure (.number (← Store.countDocs collection filter))

/-- The call of the store. -/
def Opening.act : Opening → Action σ Reader
  | filterDocs collection filter paging => Store.filterDocs collection filter paging
  | findDocs collection filter paging => Store.findDocs collection filter paging
  | findPartialDocs collection select filter paging =>
    Store.findPartialDocs collection select filter paging

omit [Engine σ] in
theorem Opening.act_eq_reader (q : Opening) :
    (q.act : Action σ Reader) = Store.reader fun o => q.query o := by
  cases q <;> rfl

namespace Site

/-- A step that leaves the readers alone. -/
def act (w : Site σ) (a : Action σ Answer) : Except Error Answer × Site σ :=
  let (x, s) := Store.runFrom w.session a
  (x, { w with session := s })

/-- Carries a call out. -/
def step (w : Site σ) : Request → Except Error Answer × Site σ
  | .change m => w.act do m.act; pure .nothing
  | .upsertDoc collection id document => w.act do
    Store.upsertDoc collection id document
    pure .nothing
  | .question q => w.act q.act
  | .opening o =>
    match Store.runFrom w.session o.act with
    | (.ok r, s) => (.ok (.reader w.readers.length), ⟨s, w.readers ++ [r]⟩)
    | (.error e, s) => (.error e, { w with session := s })
  | .next i =>
    match w.readers[i]? with
    | none => (.ok .nothing, w)
    | some r =>
      let ((x, r), s) := r.next w.session
      (x.map .item, ⟨s, w.readers.set i r⟩)
  | .finish i =>
    match w.readers[i]? with
    | none => (.ok .nothing, w)
    | some r =>
      match Store.runFrom w.session r.close with
      | (.ok r, s) => (.ok .nothing, ⟨s, w.readers.set i r⟩)
      | (.error e, s) => (.error e, { w with session := s })
  | .client => w.act do pure (.handle (← Store.client))
  | .cursor => w.act do pure (.handle (← Store.cursor))
  | .close => w.act do Store.close; pure .nothing

/-- The site behind some calls. -/
def run (w : Site σ) : List Request → Site σ
  | [] => w
  | c :: cs => (w.step c).2.run cs

/-- A call in a run. -/
structure Entry (σ : Type) where
  before : Site σ
  request : Request
  outcome : Except Error Answer
  after : Site σ

namespace Entry

/-- What happened in a call. -/
def happened (e : Entry σ) : List Event :=
  e.after.session.history.drop e.before.session.history.length

omit [Engine σ] in
theorem happened_eq {e : Entry σ} {trace : List Event}
    (h : e.after.session.history = e.before.session.history ++ trace) : e.happened = trace := by
  rw [happened, h, List.drop_left]

end Entry

/-- The calls of a run in their order. -/
def journal (w : Site σ) : List Request → List (Entry σ)
  | [] => []
  | c :: cs => ⟨w, c, (w.step c).1, (w.step c).2⟩ :: (w.step c).2.journal cs

theorem run_append (w : Site σ) (rs qs : List Request) : w.run (rs ++ qs) = (w.run rs).run qs := by
  induction rs generalizing w with
  | nil => rfl
  | cons r rs ih => exact ih _

theorem journal_append (w : Site σ) (rs qs : List Request) :
    w.journal (rs ++ qs) = w.journal rs ++ (w.run rs).journal qs := by
  induction rs generalizing w with
  | nil => rfl
  | cons r rs ih => exact congrArg _ (ih _)

/-- **Every entry of the journal is a step** from the site that the calls before it lead to. -/
theorem mem_journal {w : Site σ} {requests : List Request} {e : Entry σ}
    (h : e ∈ w.journal requests) :
    ∃ past rest, requests = past ++ e.request :: rest ∧ e.before = w.run past ∧
      e.before.step e.request = (e.outcome, e.after) := by
  induction requests generalizing w with
  | nil => cases h
  | cons c cs ih =>
    rcases List.mem_cons.1 h with rfl | h
    · exact ⟨[], cs, rfl, rfl, rfl⟩
    · obtain ⟨past, rest, rfl, hb, hs⟩ := ih h
      exact ⟨c :: past, rest, rfl, hb, hs⟩

end Site

/-! ## What all requests have in common -/

open Store

variable {o : Options} {allowed : Command → Prop} {R : Session σ → Session σ → Prop}

namespace Carries

open Allows

theorem changeAct (hR : Carries o allowed R) {m : Change} (h : ∀ c, m.Sends o c → allowed c) :
    Moves o R (m.act : Action σ Unit) := by
  have hplan : Plans o allowed fun o => m.plan o := fun p hp c hc => h c ⟨p, hp, hc⟩
  cases m with
  | dropCollection collection =>
    refine Moves.ofSession fun s ho => ?_
    subst ho
    refine ((hR.transaction ?_).bind hR.toStepwise fun _ => hR.announce _) s rfl
    refine Moves.given_bind hR.toStepwise fun table ht => hR.execute ?_
    have hp : s.options.dropCollectionPlan collection = .ok _ := bind_eq_ok.2 ⟨table, ht, rfl⟩
    exact h _ ⟨_, hp, List.mem_singleton_self _⟩
  | _ => rw [Change.act_eq_carryOut (by simp)]; exact hR.carryOut hplan

theorem questionAct (hR : Carries o allowed R) {q : Question}
    (h : ∀ c, q.command o = .ok c → allowed c) : Moves o R (q.act : Action σ Answer) := by
  have hq : Asks o allowed fun o => q.command o := h
  cases q with
  | listCollections | collectionsFrom => exact hR.result (hR.namesOf hq) _
  | hasCollection | hasIndex =>
    exact hR.result ((hR.ask hq).bind hR.toStepwise fun _ => .pure hR.toStepwise _) _
  | getDoc collection id => exact hR.result (hR.getDoc hq) _
  | getPartialDoc collection select id =>
    refine hR.result ?_ _
    refine Moves.ofSession fun s ho => ?_
    subst ho
    refine Moves.given_bind hR.toStepwise (fun p hp => ?_) s rfl
    have hask : Asks s.options allowed fun o => o.byIdCommand p.2 collection id :=
      fun c hc => h c (bind_eq_ok.2 ⟨p, hp, hc⟩)
    refine (hR.ask hask).bind hR.toStepwise fun rows => ?_
    cases rows with
    | nil => exact .pure hR.toStepwise _
    | cons row rows => exact .given hR.toStepwise _
  | filterDocIds collection filter =>
    exact hR.result ((hR.ask hq).bind hR.toStepwise fun _ => .given hR.toStepwise _) _
  | countDocs collection filter =>
    refine hR.result ((hR.ask hq).bind hR.toStepwise fun rows => ?_) _
    cases rows with
    | nil => exact .pure hR.toStepwise _
    | cons row rows => exact .given hR.toStepwise _

end Carries

omit [Engine σ] in
/-- A reader that was opened takes its query from the options of the store, and sends nothing. -/
theorem runFrom_opening (s : Session σ) (q : Opening) :
    runFrom s (q.act : Action σ Reader) = ((q.query s.options).map .pending, s) := by
  rw [Opening.act_eq_reader, reader, runFrom_bind, runFrom_get]
  simp only [runFrom_bind, runFrom_given]
  cases q.query s.options <;> rfl

/-- A reader that was asked for an item has sent its command. -/
theorem Reader.step_sent (r : Reader) :
    Gives (fun p => ∀ query, p.2 ≠ .pending query) (r.step : Action σ (Option Value × Reader)) := by
  have hadvance : ∀ id shape, Gives (fun p => ∀ query, p.2 ≠ .pending query)
      (Reader.advance id shape : Action σ (Option Value × Reader)) := by
    intro id shape
    refine Gives.bind fun s => Gives.bind fun row => ?_
    cases row with
    | none => exact Gives.bind fun _ => Gives.pure (by simp)
    | some row => exact Gives.bind fun _ => Gives.pure (by simp)
  have hguarded : ∀ id {body : Action σ (Option Value × Reader)},
      Gives (fun p => ∀ query, p.2 ≠ .pending query) body →
        Gives (fun p => ∀ query, p.2 ≠ .pending query) (Reader.guarded id body) :=
    fun id _ h => Gives.tryCatch h fun e => Gives.bind fun _ => Gives.bind fun _ => Gives.throw e
  cases r with
  | done => exact Gives.pure (by simp)
  | «open» id shape => exact hguarded id (hadvance id shape)
  | pending query =>
    refine Gives.bind fun _ => Gives.bind fun _ => Gives.bind fun _ => Gives.bind fun id => ?_
    exact hguarded id (Gives.bind fun _ => hadvance id query.shape)

theorem Reader.close_sent (r : Reader) :
    Gives (fun r => ∀ query, r ≠ .pending query) (r.close : Action σ Reader) := by
  cases r with
  | «open» id shape => exact Gives.bind fun _ => Gives.pure (by simp)
  | pending | done => exact Gives.pure (by simp)

namespace Site

/-- The readers that have sent nothing yet will send allowed commands. -/
def Holds (allowed : Command → Prop) (w : Site σ) : Prop :=
  ∀ query, .pending query ∈ w.readers → allowed query.command

/-- What a store may do at a site: the commands that the call may send, and those of the readers, are
allowed, and closing the store is too if the call asks for that. -/
structure Permits (w : Site σ) (o : Options) (allowed : Command → Prop)
    (R : Session σ → Session σ → Prop) (r : Request) : Prop where
  options : w.session.options = o
  holds : w.Holds allowed
  sends : ∀ c, r.Sends o c → allowed c
  close : r = .close → Moves o R (Store.close : Action σ Unit)

variable {w : Site σ} {r : Request}

/-- What the calls of a store are made of carries a relation over each of them. -/
theorem step_call (hR : Carries o allowed R) (ho : w.session.options = o)
    (hsends : ∀ c, r.Sends o c → allowed c) (hr : r.isCall = true) :
    R w.session (w.step r).2.session := by
  have hunit : ∀ {a : Action σ Unit} {x : Answer}, Moves o R a → Moves o R (do a; pure x) :=
    fun ha => ha.bind hR.toStepwise fun _ => .pure hR.toStepwise _
  cases r with
  | change m => exact hunit (hR.changeAct hsends) w.session ho
  | upsertDoc collection id document =>
    refine hunit (hR.upsertDoc ?_ ?_ ?_) w.session ho
    · exact fun c hc => hsends c (.inl hc)
    · exact fun p hp c hc => hsends c (.inr (.inl ⟨p, hp, hc⟩))
    · exact fun p hp c hc => hsends c (.inr (.inr ⟨p, hp, hc⟩))
  | question q => exact hR.questionAct hsends w.session ho
  | client => exact hR.result hR.client _ w.session ho
  | cursor => exact hR.result hR.cursorOf _ w.session ho
  | _ => cases hr

/-- **What the parts of a store allow holds over every request.** -/
theorem step_moves (hR : Allows o allowed R) (h : w.Permits o allowed R r) :
    R w.session (w.step r).2.session := by
  cases r with
  | change | upsertDoc | question | client | cursor =>
    exact step_call hR.carries h.options h.sends rfl
  | close =>
    have hclose : Moves o R (do Store.close; pure .nothing : Action σ Answer) :=
      (h.close rfl).bind hR.toStepwise fun _ => .pure hR.toStepwise _
    exact hclose w.session h.options
  | opening q =>
    -- nothing is sent before the first item is asked for
    simp only [step, runFrom_opening]
    cases q.query w.session.options <;> exact hR.refl _
  | next i =>
    simp only [step]
    cases hi : w.readers[i]? with
    | none => exact hR.refl _
    | some reader =>
      -- the command of a reader was worked out when it was opened
      have hreader : ∀ query, reader = .pending query → allowed query.command :=
        fun query hq => h.holds query (hq ▸ List.mem_of_getElem? hi)
      have hmoves := hR.readerStep hreader w.session h.options
      unfold runFrom at hmoves
      simp only [Reader.next]
      cases hrun : (reader.step.run.run w.session : Except Error _ × Session σ) with
      | mk x s => rw [hrun] at hmoves; cases x <;> exact hmoves
  | finish i =>
    simp only [step]
    cases hi : w.readers[i]? with
    | none => exact hR.refl _
    | some reader =>
      have hmoves := hR.readerClose reader w.session h.options
      simp only
      cases hrun : runFrom w.session reader.close with
      | mk x s => rw [hrun] at hmoves; cases x <;> exact hmoves

/-- No other commands are left to the readers behind a request. -/
theorem step_holds (h : w.Permits o allowed R r) : (w.step r).2.Holds allowed := by
  -- a reader that was asked or closed is put in its own place again, and has no command to send
  have hset : ∀ {i : Nat} {reader : Reader} {s : Session σ}, (∀ query, reader ≠ .pending query) →
      Holds allowed ⟨s, w.readers.set i reader⟩ := by
    intro i reader s hreader query hq
    rcases List.mem_or_eq_of_mem_set hq with hq | hq
    · exact h.holds query hq
    · exact absurd hq.symm (hreader query)
  cases r with
  | change | upsertDoc | question | client | cursor | close => exact h.holds
  | opening q =>
    simp only [step, runFrom_opening, h.options]
    cases hq : q.query o with
    | error e => exact h.holds
    | ok query =>
      intro other hother
      rcases List.mem_append.1 hother with hother | hother
      · exact h.holds other hother
      · cases List.mem_singleton.1 hother
        exact h.sends _ ⟨query, hq, rfl⟩
  | next i =>
    simp only [step]
    cases hi : w.readers[i]? with
    | none => exact h.holds
    | some reader =>
      have hsent := reader.step_sent w.session
      unfold runFrom at hsent
      simp only [Reader.next]
      cases hrun : (reader.step.run.run w.session : Except Error _ × Session σ) with
      | mk x s =>
        rw [hrun] at hsent
        cases x with
        | error e => exact hset (by simp)
        | ok p => exact hset (hsent p rfl)
  | finish i =>
    simp only [step]
    cases hi : w.readers[i]? with
    | none => exact h.holds
    | some reader =>
      have hsent := reader.close_sent w.session
      simp only
      cases hrun : runFrom w.session reader.close with
      | mk x s =>
        rw [hrun] at hsent
        cases x with
        | error e => exact h.holds
        | ok r => exact hset (hsent r rfl)

/-- **And over every run.** -/
theorem run_moves (hR : Allows o allowed R) {requests : List Request}
    (ho : w.session.options = o) (hw : w.Holds allowed)
    (hsends : ∀ r ∈ requests, ∀ c, r.Sends o c → allowed c)
    (hclose : .close ∈ requests → Moves o R (Store.close : Action σ Unit)) :
    R w.session (w.run requests).session := by
  induction requests generalizing w with
  | nil => exact hR.refl _
  | cons r rs ih =>
    have h : w.Permits o allowed R r := {
      options := ho
      holds := hw
      sends := hsends r List.mem_cons_self
      close := fun hr => hclose (hr ▸ List.mem_cons_self) }
    have hstep := step_moves hR h
    refine hR.trans hstep (ih ((hR.options hstep).trans ho) (step_holds h) ?_ ?_)
    · exact fun r hr => hsends r (List.mem_cons_of_mem _ hr)
    · exact fun hr => hclose (List.mem_cons_of_mem _ hr)

end Site

/-- No request changes the options. -/
theorem Site.run_options (w : Site σ) (requests : List Request) :
    (w.run requests).session.options = w.session.options := by
  have hgrows : Grows (fun _ => True) w.session (w.run requests).session :=
    run_moves (Grows.allows fun _ _ => trivial) rfl (fun _ _ => trivial) (fun _ _ _ _ => trivial)
      fun _ => Grows.close fun _ _ _ => trivial
  exact hgrows.options

/-- **No commands are sent but those of the requests.** -/
theorem Site.run_sends (s : Session σ) (requests : List Request) :
    Grows (Event.Within fun c => ∃ r ∈ requests, r.Sends s.options c) s
      (run ⟨s, []⟩ requests).session := by
  refine run_moves (w := ⟨s, []⟩) (Grows.allows fun _ h => h) rfl ?_ ?_ fun _ => ?_
  · exact fun query h => absurd h List.not_mem_nil
  · exact fun r hr c hc => ⟨r, hr, hc⟩
  · exact Grows.close fun e _ h id c he => (h id c he).elim

end Docbase
