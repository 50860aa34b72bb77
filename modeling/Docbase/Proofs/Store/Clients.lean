import Docbase.Proofs.Store.Rows

/-!
# Clients that put documents under ids

To put a document under an id a store first looks whether there is one, and then adds it or merges it
into the one that is there. Between the two other clients may do the same. Each client has a store
and a connection of its own; reading, and writing with its commit, are steps that nobody comes into.

* `Store.upsertDoc_eq`: the two halves of the call; `World.step_step`: with nobody in between they are
  the call.
* `World`, `World.step`, `World.run`: clients on one database, in any order of their steps.
* `World.Sound`: nothing is left open between two steps, and a document that was found is still there.
* `World.step_passes`: a step leaves the world sound, and merges a document or changes nothing: it is a
  look, or comes late, or the store refuses the document.
-/

namespace Docbase

open Sql Store

/-! ## The two halves of a call -/

/-- A call that puts a document under an id. -/
structure Upsert where
  collection : String
  id : String
  document : Value

/-- The table that the call is about. -/
def Upsert.table (u : Upsert) (o : Options) : String := Collection.tableName u.collection o.tableStart

namespace Store

variable {σ : Type} [Engine σ]

/-- Looks whether there is a document. -/
def lookUp (u : Upsert) : Action σ Value := getDoc (.str u.collection) (.str u.id)

/-- Writes, given what was found. -/
def write (u : Upsert) : Value → Action σ Unit
  | .null => addDoc (.str u.collection) (.str u.id) u.document
  | _ => updateDoc (.str u.collection) (.str u.id) u.document

theorem upsertDoc_eq (u : Upsert) :
    (upsertDoc (.str u.collection) (.str u.id) u.document : Action σ Unit)
      = lookUp u >>= write u := by
  have hwrite : (write u : Value → Action σ Unit) = fun found =>
      match found with
      | .null => addDoc (.str u.collection) (.str u.id) u.document
      | _ => updateDoc (.str u.collection) (.str u.id) u.document := by
    funext found
    cases found <;> rfl
  rw [hwrite]
  rfl

/-- What is written depends only on whether a document was found. -/
theorem write_found (u : Upsert) {found : Value} (h : found ≠ .null) :
    (write u found : Action σ Unit)
      = (Mode.merge.change (.str u.collection) (.str u.id) u.document).act := by
  cases found with
  | null => exact absurd rfl h
  | _ => rfl

end Store

/-! ## Clients on one database -/

/-- A client: its store, the call that has looked and not written yet, with what it found, and the
calls that are still to come. -/
structure Client (σ : Type) where
  session : Session σ
  underway : Option (Upsert × Value)
  todo : List Upsert

/-- A call that has come to its end. -/
structure Finished (ι : Type) where
  client : ι
  call : Upsert
  table : String
  outcome : Except Error Unit

/-- The call has succeeded. -/
def Finished.succeeded {ι : Type} (f : Finished ι) : Bool := f.outcome.isOk

/-- Clients on one database, and the calls that have come to their ends. -/
structure World (ι σ : Type) where
  engine : σ
  clients : ι → Client σ
  log : List (Finished ι)

namespace World

variable {ι σ : Type} [DecidableEq ι] [Engine σ]

/-- The session of a client, with the engine that all of them share. -/
def session (w : World ι σ) (i : ι) : Session σ :=
  { (w.clients i).session with engine := w.engine }

/-- A client has come to another state, and some calls to their ends. -/
def put (w : World ι σ) (i : ι) (client : Client σ) (entries : List (Finished ι)) : World ι σ where
  engine := client.session.engine
  clients := Function.update w.clients i client
  log := w.log ++ entries

/-- The next half of a call of a client. A call that cannot look does not write. -/
def step (w : World ι σ) (i : ι) : World ι σ :=
  let s := w.session i
  match (w.clients i).underway, (w.clients i).todo with
  | some (u, found), todo =>
    let (outcome, t) := runFrom s (Store.write u found)
    w.put i ⟨t, none, todo⟩ [⟨i, u, u.table s.options, outcome⟩]
  | none, u :: todo =>
    match runFrom s (lookUp u) with
    | (.ok found, t) => w.put i ⟨t, some (u, found), todo⟩ []
    | (.error e, t) => w.put i ⟨t, none, todo⟩ [⟨i, u, u.table s.options, .error e⟩]
  | none, [] => w

/-- The steps of clients in some order. -/
def run (w : World ι σ) (order : List ι) : World ι σ := order.foldl step w

variable {w : World ι σ} {i : ι} {u : Upsert} {found : Value} {todo : List Upsert} {t : Session σ}

omit [Engine σ] in
theorem session_put_self {client : Client σ} {entries : List (Finished ι)} :
    (w.put i client entries).session i = client.session := by
  simp [session, put]

omit [Engine σ] in
theorem session_put_of_ne {client : Client σ} {entries : List (Finished ι)} {j : ι} (h : j ≠ i) :
    (w.put i client entries).session j = { w.session j with engine := client.session.engine } := by
  simp [session, put, h]

omit [Engine σ] in
/-- Where a client's session is as it was, all are. -/
theorem session_put_same (todo : List Upsert) (entries : List (Finished ι)) (j : ι) :
    (w.put i ⟨w.session i, none, todo⟩ entries).session j = w.session j := by
  by_cases hj : j = i
  · rw [hj, session_put_self]
  · rw [session_put_of_ne hj]
    rfl

omit [Engine σ] in
theorem clients_put_self {client : Client σ} {entries : List (Finished ι)} :
    (w.put i client entries).clients i = client := Function.update_self _ _ _

omit [Engine σ] in
theorem clients_put_of_ne {client : Client σ} {entries : List (Finished ι)} {j : ι} (h : j ≠ i) :
    (w.put i client entries).clients j = w.clients j := Function.update_of_ne h _ _

theorem step_write (hunderway : (w.clients i).underway = some (u, found)) {outcome : Except Error Unit}
    (hrun : runFrom (w.session i) (Store.write u found) = (outcome, t)) :
    w.step i = w.put i ⟨t, none, (w.clients i).todo⟩
      [⟨i, u, u.table (w.session i).options, outcome⟩] := by
  unfold step
  simp only [hunderway, hrun]

theorem step_read (hunderway : (w.clients i).underway = none) (htodo : (w.clients i).todo = u :: todo)
    (hrun : runFrom (w.session i) (lookUp u) = (.ok found, t)) :
    w.step i = w.put i ⟨t, some (u, found), todo⟩ [] := by
  unfold step
  simp only [hunderway, htodo, hrun]

/-- **With nobody in between, the two steps are the call.** -/
theorem step_step (hunderway : (w.clients i).underway = none)
    (htodo : (w.clients i).todo = u :: todo)
    (hrun : runFrom (w.session i) (lookUp u) = (.ok found, t)) :
    let call := runFrom (w.session i)
      (upsertDoc (.str u.collection) (.str u.id) u.document : Action σ Unit)
    (w.step i).step i = w.put i ⟨call.2, none, todo⟩ [⟨i, u, u.table t.options, call.1⟩] := by
  have hcall : runFrom (w.session i)
      (upsertDoc (.str u.collection) (.str u.id) u.document : Action σ Unit)
        = runFrom t (Store.write u found) := by
    rw [upsertDoc_eq, runFrom_bind, hrun]
  have hsession : (w.put i ⟨t, some (u, found), todo⟩ []).session i = t := session_put_self
  have hlooked : ((w.put i ⟨t, some (u, found), todo⟩ []).clients i).underway = some (u, found) := by
    rw [clients_put_self]
  rw [step_read hunderway htodo hrun, hcall, step_write hlooked (by rw [hsession]), hsession]
  simp [put]

end World

/-! ## Documents that are taken -/

variable {β γ δ : Type} {db : Schema β γ}

/-- The members of two documents; where both have one of a name, that of the second counts. -/
def union (old new : String → Option δ) : String → Option δ := fun n => (new n).or (old n)

/-- What the database reads of a document that is stored as a whole. -/
def Schema.patch? (db : Schema β γ) (d : Value) : Option β :=
  match Record.ofDocument false d with
  | .ok r => db.reads r.body
  | .error _ => none

/-- A store that promotes nothing stores documents as a whole. -/
theorem Record.columns_unpromoted {d : Value} {r : Record} (h : Record.ofDocument false d = .ok r) :
    r.columns = [] := by
  obtain ⟨members, -, h⟩ := bind_eq_ok.1 h
  obtain ⟨⟨kept, promoted⟩, hsplit, h⟩ := bind_eq_ok.1 h
  obtain ⟨body, -, h⟩ := bind_eq_ok.1 h
  obtain ⟨columns, hcolumns, h⟩ := bind_eq_ok.1 h
  rw [refuse_eq_ok] at hsplit
  cases hsplit
  cases hcolumns
  cases h
  rfl

/-- The call is in order: whatever the store writes of its document, the database reads, and it has a
table for it. The store need not take the document. -/
structure Upsert.InOrder (db : Schema β γ) (o : Options) (u : Upsert) : Prop where
  reads : ∀ r, Record.ofDocument false u.document = .ok r → ∃ p, db.reads r.body = some p
  admits : db.admits (u.table o) u.id

/-- A document that the store takes is accepted by the database. -/
theorem Upsert.InOrder.accepts {o : Options} {u : Upsert} (hu : u.InOrder db o) {r : Record}
    (hr : Record.ofDocument false u.document = .ok r) : ∃ p, db.patch? u.document = some p ∧
      ∀ table, db.Accepts false table u.document r p fun _ => none := by
  obtain ⟨p, hp⟩ := hu.reads r hr
  have hpatch : db.patch? u.document = some p := by rw [Schema.patch?, hr, ← hp]
  refine ⟨p, hpatch, fun table => ⟨hr, hp, ?_⟩⟩
  rw [Record.columns_unpromoted hr]
  rfl

/-- A document that the store refuses is not written, and nothing happens. -/
theorem Store.write_refused {σ : Type} [Engine σ] {u : Upsert} {s : Session σ} {x : Error}
    (hp : s.options.promote = false) (h : Record.ofDocument false u.document = .error x)
    (found : Value) : runFrom s (write u found) = (.error x, s) := by
  rw [← hp] at h
  by_cases hfound : found = .null
  · subst hfound
    exact Change.act_refused (m := .addDoc (.str u.collection) (.str u.id) u.document)
      ⟨_, rfl⟩ (bind_error h)
  · rw [write_found u hfound]
    exact Change.act_refused (m := .updateDoc (.str u.collection) (.str u.id) u.document)
      ⟨_, rfl⟩ (bind_error h)

namespace World

variable {ι σ : Type} [DecidableEq ι] [Engine σ] {server : σ → Server β γ} {k : ι → ConnectionId}
  {members : β → String → Option δ} {w w' : World ι σ} {i : ι}

/-! ## What holds between two steps -/

/-- Every client holds a connection and a cursor of its own, no transaction is open, and what a call
has found is still there. -/
structure Sound (db : Schema β γ) (server : σ → Server β γ) (k : ι → ConnectionId) (w : World ι σ) :
    Prop where
  connection : ∀ i, (w.session i).connection = some (k i)
  cursor : ∀ i c, (w.session i).cursor = some c → (server w.engine).cursors c = some (k i)
  apart : ∀ i j, i ≠ j → (w.session i).cursorId ≠ (w.session j).cursorId
  transactional : ∀ i, (w.session i).options.transactional = true
  promote : ∀ i, (w.session i).options.promote = false
  quiet : (server w.engine).Quiet
  intact : ∀ i, (server w.engine).failed (k i) = false
  todo : ∀ i, ∀ u ∈ (w.clients i).todo, u.InOrder db (w.session i).options
  underway : ∀ i u found, (w.clients i).underway = some (u, found) →
    u.InOrder db (w.session i).options ∧
      (found ≠ .null → (server w.engine).lasting (u.table (w.session i).options) u.id ≠ none)

/-- The database with the cursor of a client open. -/
def reached (server : σ → Server β γ) (k : ι → ConnectionId) (w : World ι σ) (i : ι) : Server β γ :=
  (server w.engine).open (k i) (w.session i).cursorId

omit [DecidableEq ι] in
/-- A client finds every row: no other connection has a hand on it. -/
theorem Sound.finds (hdb : Engine.Realizes db server) (hw : w.Sound db server k) (i : ι)
    (table id : String) : (w.session i).Finds server (k i) table id (w.reached server k i) where
  reaches := by
    cases hcursor : (w.session i).cursor with
    | some c =>
      have hid : (w.session i).cursorId = c := by
        unfold Session.cursorId
        rw [hcursor]
        rfl
      refine .ready (hw.connection i) hcursor ?_
      rw [reached, hid, Server.open_self (hw.cursor i c hcursor)]
      rfl
    | none =>
      have hid : (w.session i).cursorId = (w.session i).nextCursor := by
        unfold Session.cursorId
        rw [hcursor]
        rfl
      refine .held (hw.connection i) hcursor ?_
      rw [reached, hid, hdb.openCursor]
      rfl
  takes := Server.takes_open (hw.intact i) _
  clear := fun j _ => hw.quiet j table id

omit [DecidableEq ι] [Engine σ] in
/-- A client sees what lasts. -/
theorem Sound.seen_reached (hw : w.Sound db server k) (i : ι) :
    (w.reached server k i).seen (k i) = (server w.engine).lasting := by
  have hquiet : (w.reached server k i).Quiet := hw.quiet
  rw [hquiet.seen]
  rfl

section Put

variable {client : Client σ} {entries : List (Finished ι)}

omit [Engine σ] in
theorem options_put (h : (w.session i).Leads (k i) client.session) (j : ι) :
    ((w.put i client entries).session j).options = (w.session j).options := by
  by_cases hj : j = i
  · rw [hj, session_put_self, h.options]
  · rw [session_put_of_ne hj]

omit [Engine σ] in
theorem cursorId_put (h : (w.session i).Leads (k i) client.session) (j : ι) :
    ((w.put i client entries).session j).cursorId = (w.session j).cursorId := by
  by_cases hj : j = i
  · rw [hj, session_put_self, h.cursorId]
  · rw [session_put_of_ne hj]
    rfl

omit [Engine σ] in
/-- The cursor of the client that moved is open now, and those of the others are other ones, which stay
open. -/
theorem Sound.cursors_put (hw : w.Sound db server k)
    (hleads : (w.session i).Leads (k i) client.session)
    (hsettled : (w.reached server k i).Settled (server client.session.engine)) {j : ι} {c : CursorId}
    (hc : ((w.put i client entries).session j).cursor = some c) :
    (server client.session.engine).cursors c = some (k j) := by
  rw [hsettled.cursors]
  by_cases hj : j = i
  · subst hj
    rw [session_put_self, hleads.cursor] at hc
    cases hc
    exact (Server.takes_open (hw.intact j) _).cursor
  · rw [session_put_of_ne hj] at hc
    have hcursor : (w.session j).cursor = some c := hc
    have hne : c ≠ (w.session i).cursorId := by
      have hapart := hw.apart j i hj
      unfold Session.cursorId at hapart ⊢
      rw [hcursor] at hapart
      exact hapart
    simpa [reached, Server.open, Function.update_of_ne hne] using hw.cursor j c hcursor

omit [Engine σ] in
/-- The calls that are still to come are in order, whoever has moved. -/
theorem Sound.todo_put (hw : w.Sound db server k)
    (hoptions : ∀ j, ((w.put i client entries).session j).options = (w.session j).options)
    (htodo : ∀ u ∈ client.todo, u.InOrder db (w.session i).options) (j : ι) (u : Upsert)
    (hu : u ∈ ((w.put i client entries).clients j).todo) :
    u.InOrder db ((w.put i client entries).session j).options := by
  rw [hoptions]
  by_cases hj : j = i
  · subst hj
    rw [clients_put_self] at hu
    exact htodo u hu
  · rw [clients_put_of_ne hj] at hu
    exact hw.todo j u hu

omit [Engine σ] in
/-- What calls have found is still there if no row is gone. -/
theorem Sound.underway_put (hw : w.Sound db server k)
    (hoptions : ∀ j, ((w.put i client entries).session j).options = (w.session j).options)
    (hkept : ∀ table id, (server w.engine).lasting table id ≠ none →
      (server client.session.engine).lasting table id ≠ none)
    (hunderway : ∀ u found, client.underway = some (u, found) →
      u.InOrder db (w.session i).options ∧
        (found ≠ .null → (server client.session.engine).lasting (u.table (w.session i).options) u.id
          ≠ none)) (j : ι) (u : Upsert) (found : Value)
    (hfound : ((w.put i client entries).clients j).underway = some (u, found)) :
    u.InOrder db ((w.put i client entries).session j).options ∧
      (found ≠ .null → (server client.session.engine).lasting
        (u.table ((w.put i client entries).session j).options) u.id ≠ none) := by
  rw [hoptions]
  by_cases hj : j = i
  · subst hj
    rw [clients_put_self] at hfound
    exact hunderway u found hfound
  · -- another client has found its document in a row that is kept
    rw [clients_put_of_ne hj] at hfound
    obtain ⟨horder, hthere⟩ := hw.underway j u found hfound
    exact ⟨horder, fun hne => hkept _ _ (hthere hne)⟩

omit [Engine σ] in
/-- A step that settles the database leaves the world sound. -/
theorem Sound.put (hw : w.Sound db server k) (entries : List (Finished ι))
    (hleads : (w.session i).Leads (k i) client.session)
    (hsettled : (w.reached server k i).Settled (server client.session.engine))
    (htodo : ∀ u ∈ client.todo, u.InOrder db (w.session i).options)
    (hunderway : ∀ u found, client.underway = some (u, found) →
      u.InOrder db (w.session i).options ∧
        (found ≠ .null → (server client.session.engine).lasting (u.table (w.session i).options) u.id
          ≠ none)) :
    (w.put i client entries).Sound db server k where
  connection j := by
    by_cases hj : j = i
    · rw [hj, session_put_self, hleads.connection]
    · rw [session_put_of_ne hj]
      exact hw.connection j
  cursor _ _ := hw.cursors_put hleads hsettled
  apart j l hjl := by
    rw [cursorId_put hleads, cursorId_put hleads]
    exact hw.apart j l hjl
  transactional j := by
    rw [options_put hleads]
    exact hw.transactional j
  promote j := by
    rw [options_put hleads]
    exact hw.promote j
  quiet := hsettled.quiet
  intact j := hsettled.intact (k j) (hw.intact j)
  todo := hw.todo_put (options_put hleads) htodo
  underway := hw.underway_put (options_put hleads) hsettled.kept hunderway

end Put

omit [Engine σ] in
/-- A call that has done nothing leaves the world sound. -/
theorem Sound.put_same (hw : w.Sound db server k) (entries : List (Finished ι)) :
    (w.put i ⟨w.session i, none, (w.clients i).todo⟩ entries).Sound db server k where
  connection j := by
    rw [session_put_same]
    exact hw.connection j
  cursor j c hc := by
    rw [session_put_same] at hc
    exact hw.cursor j c hc
  apart j l hjl := by
    rw [session_put_same, session_put_same]
    exact hw.apart j l hjl
  transactional j := by
    rw [session_put_same]
    exact hw.transactional j
  promote j := by
    rw [session_put_same]
    exact hw.promote j
  quiet := hw.quiet
  intact := hw.intact
  todo := hw.todo_put (fun _ => by rw [session_put_same]) (hw.todo i)
  underway := hw.underway_put (fun _ => by rw [session_put_same]) (fun _ _ h => h)
    fun _ _ h => by cases h

/-! ## What a step does -/

/-- The documents that last, by table and id. -/
def documents (members : β → String → Option δ) (server : σ → Server β γ) (w : World ι σ) :
    String → String → Option (String → Option δ) :=
  fun t i => ((server w.engine).lasting t i).map fun row => members row.doc

/-- What becomes of the log and of the documents in a step. -/
inductive Passes (db : Schema β γ) (members : β → String → Option δ) (server : σ → Server β γ)
    (w w' : World ι σ) : Prop
  /-- No call comes to its end. -/
  | silent (log : w'.log = w.log) (lasting : (server w'.engine).lasting = (server w.engine).lasting)
  /-- A call has merged its document into the one of its id. -/
  | merged {f : Finished ι} {p : β} (log : w'.log = w.log ++ [f]) (outcome : f.outcome = .ok ())
      (patch : db.patch? f.call.document = some p)
      (documents : ∀ t i, w'.documents members server t i
        = if t = f.table ∧ i = f.call.id then
            some (union ((w.documents members server t i).getD fun _ => none) (members p))
          else w.documents members server t i)
  /-- A call has found no document, and now there is one. -/
  | late {f : Finished ι} {r : Record} {e : EngineError} (log : w'.log = w.log ++ [f])
      (taken : Record.ofDocument false f.call.document = .ok r)
      (outcome : f.outcome = .error (.engine e)) (kind : e.kind = .integrity)
      (lasting : (server w'.engine).lasting = (server w.engine).lasting)
      (there : (server w.engine).lasting f.table f.call.id ≠ none)
  /-- The store has refused the document of a call. -/
  | refused {f : Finished ι} {x : Error} (log : w'.log = w.log ++ [f])
      (refused : Record.ofDocument false f.call.document = .error x)
      (outcome : f.outcome = .error x)
      (lasting : (server w'.engine).lasting = (server w.engine).lasting)

variable {u : Upsert} {found : Value} {t : Session σ}

/-- A call that has written leaves its row behind. -/
theorem Sound.merged (hw : w.Sound db server k)
    (hunderway : (w.clients i).underway = some (u, found))
    (hrun : runFrom (w.session i) (Store.write u found) = (.ok (), t))
    (hleads : (w.session i).Leads (k i) t) {row : Stored β γ}
    (hserver : server t.engine = ((w.reached server k i).change (k i) (u.table (w.session i).options)
      u.id (some row)).ended (w.session i).options.transactional (k i))
    {p : β} (hpatch : db.patch? u.document = some p)
    (hrow : members row.doc = union ((w.documents members server
      (u.table (w.session i).options) u.id).getD fun _ => none) (members p)) :
    (w.step i).Sound db server k ∧ w.Passes db members server (w.step i) := by
  have hquiet : (w.reached server k i).Quiet := hw.quiet
  obtain ⟨hsettled, hlasting⟩ :=
    hquiet.committed (k i) (u.table (w.session i).options) u.id row
  rw [hw.transactional i] at hserver
  have hcommit : server t.engine = ((w.reached server k i).change (k i)
    (u.table (w.session i).options) u.id (some row)).commit (k i) := hserver
  rw [← hcommit] at hsettled hlasting
  rw [step_write hunderway hrun]
  refine ⟨hw.put _ hleads hsettled (hw.todo i) (fun _ _ h => by cases h), ?_⟩
  refine .merged rfl rfl hpatch fun t' i' => ?_
  have hdocuments : (w.put i ⟨t, none, (w.clients i).todo⟩ [⟨i, u, u.table (w.session i).options,
      .ok ()⟩]).documents members server t' i'
        = ((server t.engine).lasting t' i').map fun row => members row.doc := rfl
  rw [hdocuments, hlasting, Contents.set]
  split
  · rename_i h
    rw [h.1, h.2, ← hrow]
    rfl
  · rfl

/-- A call that looks leaves the rows alone, and finds out whether its document is there. -/
theorem Sound.looks (hdb : Engine.Realizes db server) (hw : w.Sound db server k)
    (hunderway : (w.clients i).underway = none) {todo : List Upsert}
    (htodo : (w.clients i).todo = u :: todo) :
    ∃ found t, runFrom (w.session i) (lookUp u) = (.ok found, t) ∧
      w.step i = w.put i ⟨t, some (u, found), todo⟩ [] ∧ (w.step i).Sound db server k ∧
      t.options = (w.session i).options ∧
      (server t.engine).lasting = (server w.engine).lasting ∧
      (found = .null ↔
        (server w.engine).lasting (u.table (w.session i).options) u.id = none) := by
  have hquiet : (w.reached server k i).Quiet := hw.quiet
  have horder := hw.todo i
  rw [htodo] at horder
  obtain ⟨found, t, hrun, hleads, hserver, hnull⟩ :=
    (hw.finds hdb i (u.table (w.session i).options) u.id).getDoc hdb rfl
      (horder u List.mem_cons_self).admits
  rw [hw.seen_reached] at hnull
  have hsettled : (w.reached server k i).Settled (server t.engine) := by
    rw [hserver]
    exact hquiet.settled
  have hlasting : (server t.engine).lasting = (server w.engine).lasting := by
    rw [hserver]
    rfl
  have hstep := step_read hunderway htodo hrun
  refine ⟨found, t, hrun, hstep, ?_, hleads.options, hlasting, hnull⟩
  rw [hstep]
  refine hw.put _ hleads hsettled (fun v hv => horder v (List.mem_cons_of_mem _ hv)) ?_
  rintro v found' ⟨⟩
  refine ⟨horder u List.mem_cons_self, fun hfound => ?_⟩
  show (server t.engine).lasting _ _ ≠ none
  rw [hlasting]
  exact fun hnone => hfound (hnull.2 hnone)

omit [DecidableEq ι] [Engine σ] in
/-- A document that the store takes is accepted for a call that has looked. -/
theorem Sound.accepts (hw : w.Sound db server k)
    (hunderway : (w.clients i).underway = some (u, found)) {r : Record}
    (hr : Record.ofDocument false u.document = .ok r) :
    ∃ p, db.patch? u.document = some p ∧ db.admits (u.table (w.session i).options) u.id ∧
      db.Accepts (w.session i).options.promote (u.table (w.session i).options) u.document r p
        fun _ => none := by
  obtain ⟨horder, -⟩ := hw.underway i u found hunderway
  obtain ⟨p, hpatch, haccepts⟩ := horder.accepts hr
  rw [hw.promote i]
  exact ⟨p, hpatch, horder.admits, haccepts _⟩

/-- A call whose document the store refuses ends with the refusal, and changes nothing. -/
theorem Sound.refuses (hw : w.Sound db server k)
    (hunderway : (w.clients i).underway = some (u, found)) {x : Error}
    (hx : Record.ofDocument false u.document = .error x) :
    w.step i = w.put i ⟨w.session i, none, (w.clients i).todo⟩
        [⟨i, u, u.table (w.session i).options, .error x⟩] ∧ (w.step i).Sound db server k := by
  have hstep := step_write hunderway (write_refused (hw.promote i) hx found)
  rw [hstep]
  exact ⟨rfl, hw.put_same _⟩

variable (members) in
/-- Where there is still no document the one of the call is added. -/
theorem Sound.adds (hdb : Engine.Realizes db server) (hw : w.Sound db server k)
    (hunderway : (w.clients i).underway = some (u, found)) {r : Record}
    (hr : Record.ofDocument false u.document = .ok r)
    (hrow : (server w.engine).lasting (u.table (w.session i).options) u.id = none) :
    (∃ t, w.step i = w.put i ⟨t, none, (w.clients i).todo⟩
        [⟨i, u, u.table (w.session i).options, .ok ()⟩]) ∧
      (w.step i).Sound db server k ∧ w.Passes db members server (w.step i) := by
  obtain ⟨p, hpatch, hadmits, haccepts⟩ := hw.accepts hunderway hr
  -- a document that was found would still be there
  have hnull : found = .null := by
    by_contra hfound
    exact (hw.underway i u found hunderway).2 hfound hrow
  subst hnull
  have hon : db.on (.store .insert (p, fun _ => none)) ((w.reached server k i).seen (k i)
      (u.table (w.session i).options) u.id) = some (some ((db.bare p).written p fun _ => none)) := by
    rw [hw.seen_reached, hrow]
    rfl
  obtain ⟨t, hrun, hleads, hserver⟩ :=
    (hw.finds hdb i _ u.id).stores hdb rfl hadmits haccepts .insert hon
  refine ⟨⟨t, step_write hunderway hrun⟩, ?_⟩
  refine hw.merged hunderway hrun hleads hserver hpatch ?_
  rw [documents, hrow]
  funext n
  simp [Stored.written, union]

/-- A document that is there was merged into if the call has found it. -/
theorem Sound.merges (hdb : Engine.Realizes db server)
    (hunion : ∀ old new, members (db.merged old new) = union (members old) (members new))
    (hw : w.Sound db server k) (hunderway : (w.clients i).underway = some (u, found))
    {r : Record} (hr : Record.ofDocument false u.document = .ok r) (hfound : found ≠ .null) :
    (w.step i).Sound db server k ∧ w.Passes db members server (w.step i) := by
  obtain ⟨p, hpatch, hadmits, haccepts⟩ := hw.accepts hunderway hr
  obtain ⟨row, hrow⟩ :=
    Option.ne_none_iff_exists'.1 ((hw.underway i u found hunderway).2 hfound)
  have hon : db.on (.store .merge (p, fun _ => none)) ((w.reached server k i).seen (k i)
      (u.table (w.session i).options) u.id)
        = some (some (row.written (db.merged row.doc p) fun _ => none)) := by
    rw [hw.seen_reached, hrow]
    rfl
  obtain ⟨t, hrun, hleads, hserver⟩ :=
    (hw.finds hdb i _ u.id).stores hdb rfl hadmits haccepts .merge hon
  rw [← write_found u hfound] at hrun
  refine hw.merged hunderway hrun hleads hserver hpatch ?_
  rw [documents, hrow, Stored.written, hunion]
  rfl

/-- **A call that comes too late is refused**: it has found nothing, but somebody has added a document
since. Nothing is changed then. -/
theorem Sound.late (hdb : Engine.Realizes db server) (hw : w.Sound db server k)
    (hunderway : (w.clients i).underway = some (u, .null)) {r : Record}
    (hr : Record.ofDocument false u.document = .ok r)
    (hrow : (server w.engine).lasting (u.table (w.session i).options) u.id ≠ none) :
    ∃ e t, w.step i = w.put i ⟨t, none, (w.clients i).todo⟩
        [⟨i, u, u.table (w.session i).options, .error (.engine e)⟩] ∧
      e.kind = .integrity ∧ (w.step i).Sound db server k ∧
      (server t.engine).lasting = (server w.engine).lasting := by
  obtain ⟨p, hpatch, hadmits, haccepts⟩ := hw.accepts hunderway hr
  obtain ⟨row, hrow⟩ := Option.ne_none_iff_exists'.1 hrow
  have hquiet : (w.reached server k i).Quiet := hw.quiet
  have hon : db.on (.store .insert (p, fun _ => none)) ((w.reached server k i).seen (k i)
      (u.table (w.session i).options) u.id) = none := by
    rw [hw.seen_reached, hrow]
    rfl
  obtain ⟨e, t, hrun, hleads, hkind, hserver⟩ :=
    (hw.finds hdb i _ u.id).refuses hdb rfl hadmits haccepts .insert hon (hw.transactional i)
  have hsettled : (w.reached server k i).Settled (server t.engine) := by
    rw [hserver]
    exact hquiet.takenBack (k i)
  have hlasting : (server t.engine).lasting = (server w.engine).lasting := by
    rw [hserver]
    rfl
  have hstep := step_write hunderway hrun
  refine ⟨e, t, hstep, hkind, ?_, hlasting⟩
  rw [hstep]
  exact hw.put _ hleads hsettled (hw.todo i) fun _ _ h => by cases h

/-- **What a step does**: it leaves the world sound, and a call that comes to its end has merged its
document or changed nothing. -/
theorem step_passes (hdb : Engine.Realizes db server)
    (hunion : ∀ old new, members (db.merged old new) = union (members old) (members new))
    (hw : w.Sound db server k) (i : ι) :
    (w.step i).Sound db server k ∧ w.Passes db members server (w.step i) := by
  cases hunderway : (w.clients i).underway with
  | none =>
    cases htodo : (w.clients i).todo with
    | nil =>
      have hstep : w.step i = w := by
        unfold step
        simp only [hunderway, htodo]
      rw [hstep]
      exact ⟨hw, .silent rfl rfl⟩
    | cons u todo =>
      obtain ⟨found, t, -, hstep, hsound, -, hlasting, -⟩ := hw.looks hdb hunderway htodo
      refine ⟨hsound, ?_⟩
      rw [hstep]
      exact .silent (List.append_nil _) hlasting
  | some call =>
    obtain ⟨u, found⟩ := call
    cases hr : Record.ofDocument false u.document with
    | error x =>
      obtain ⟨hstep, hsound⟩ := hw.refuses hunderway hr
      refine ⟨hsound, ?_⟩
      rw [hstep]
      exact .refused rfl hr rfl rfl
    | ok r =>
      by_cases hrow : (server w.engine).lasting (u.table (w.session i).options) u.id = none
      · exact (hw.adds members hdb hunderway hr hrow).2
      by_cases hfound : found = .null
      · subst hfound
        obtain ⟨e, t, hstep, hkind, hsound, hlasting⟩ := hw.late hdb hunderway hr hrow
        refine ⟨hsound, ?_⟩
        rw [hstep]
        exact .late rfl hr rfl hkind hlasting hrow
      · exact hw.merges hdb hunion hunderway hr hfound

end World

end Docbase
