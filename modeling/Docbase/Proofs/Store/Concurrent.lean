import Docbase.Proofs.Engine.Ledger
import Docbase.Proofs.Store.Clients
import Docbase.Proofs.Store.Documents

/-!
# Several clients at once

Clients put documents under ids, and their steps come in any order.

* `World.Leads`, `World.run_leads`: from one world to another some calls have come to their ends.
* `World.calls_run`: no call of a client is left out, and none comes twice.
* `World.upserts_merged`: **no document is lost and none is merged twice**.
* `World.run_race`: of two calls that find nothing the second to write is refused.
* `World.lone_refused`: a document that is not written leaves nothing under its id.
-/

namespace Docbase

open Sql Store

namespace World

variable {β γ δ ι σ : Type} {db : Schema β γ} [DecidableEq ι] [Engine σ] {server : σ → Server β γ}
  {k : ι → ConnectionId} {members : β → String → Option δ} {w w' : World ι σ} {i : ι} {u : Upsert}

/-! ## What a run does -/

/-- The documents that the calls of an id have merged, in order. -/
def patches (db : Schema β γ) (members : β → String → Option δ) (log : List (Finished ι))
    (table id : String) : List (String → Option δ) :=
  log.filterMap fun f =>
    if f.table = table ∧ f.call.id = id ∧ f.succeeded = true then
      (db.patch? f.call.document).map members
    else none

/-- A document that others are merged into, one after the other; it begins empty if there is none. -/
def merging (stored : Option (String → Option δ)) (ps : List (String → Option δ)) :
    Option (String → Option δ) :=
  ps.foldl (fun m p => some (union (m.getD fun _ => none) p)) stored

theorem merging_ne_none {stored : Option (String → Option δ)} {ps : List (String → Option δ)}
    (h : stored ≠ none) : merging stored ps ≠ none := by
  induction ps generalizing stored with
  | nil => exact h
  | cons p ps ih => exact ih (Option.some_ne_none _)

/-- From one world to another some calls have come to their ends: those that succeeded have merged
their documents in order, and the others have found theirs there, or the store has refused them. -/
structure Leads (db : Schema β γ) (members : β → String → Option δ) (server : σ → Server β γ)
    (w w' : World ι σ) (ended : List (Finished ι)) : Prop where
  log : w'.log = w.log ++ ended
  documents : ∀ t i, w'.documents members server t i
    = merging (w.documents members server t i) (patches db members ended t i)
  refused : ∀ f ∈ ended, ∀ x, Record.ofDocument false f.call.document = .error x →
    f.outcome = .error x
  taken : ∀ f ∈ ended, ∀ r, Record.ofDocument false f.call.document = .ok r →
    (f.outcome = .ok () ∨ ∃ e, f.outcome = .error (.engine e) ∧ e.kind = .integrity) ∧
      w'.documents members server f.table f.call.id ≠ none

omit [DecidableEq ι] [Engine σ] in
theorem Leads.refl (w : World ι σ) : w.Leads db members server w [] where
  log := (List.append_nil _).symm
  documents := fun _ _ => rfl
  refused := fun _ h => absurd h List.not_mem_nil
  taken := fun _ h => absurd h List.not_mem_nil

omit [DecidableEq ι] [Engine σ] in
theorem Leads.trans {w'' : World ι σ} {first second : List (Finished ι)}
    (h : w.Leads db members server w' first) (h' : w'.Leads db members server w'' second) :
    w.Leads db members server w'' (first ++ second) where
  log := by rw [h'.log, h.log, List.append_assoc]
  documents t i := by
    rw [h'.documents, h.documents, merging, merging, merging, patches, patches, patches,
      List.filterMap_append, List.foldl_append]
  refused f hf := by
    rcases List.mem_append.1 hf with hf | hf
    · exact h.refused f hf
    · exact h'.refused f hf
  taken f hf r hr := by
    rcases List.mem_append.1 hf with hf | hf
    · obtain ⟨houtcome, hthere⟩ := h.taken f hf r hr
      -- a document that is there stays there
      rw [h'.documents]
      exact ⟨houtcome, merging_ne_none hthere⟩
    · exact h'.taken f hf r hr

omit [DecidableEq ι] [Engine σ] in
/-- A call that has not succeeded has changed nothing. -/
theorem Leads.of_failed {f : Finished ι} (hlog : w'.log = w.log ++ [f])
    (hlasting : (server w'.engine).lasting = (server w.engine).lasting) {x : Error}
    (houtcome : f.outcome = .error x)
    (hrefused : ∀ y, Record.ofDocument false f.call.document = .error y → x = y)
    (htaken : ∀ r, Record.ofDocument false f.call.document = .ok r →
      (∃ e, x = .engine e ∧ e.kind = .integrity) ∧
        (server w.engine).lasting f.table f.call.id ≠ none) :
    w.Leads db members server w' [f] where
  log := hlog
  documents t i := by
    have hfailed : ¬ f.succeeded = true := by
      unfold Finished.succeeded
      rw [houtcome]
      exact Bool.false_ne_true
    rw [World.documents, hlasting]
    simp [World.documents, patches, merging, hfailed]
  refused g hg y hy := by
    obtain rfl := List.mem_singleton.1 hg
    rw [houtcome, hrefused y hy]
  taken g hg r hr := by
    obtain rfl := List.mem_singleton.1 hg
    obtain ⟨⟨e, rfl, hkind⟩, hthere⟩ := htaken r hr
    refine ⟨.inr ⟨e, houtcome, hkind⟩, ?_⟩
    rw [World.documents, hlasting]
    simpa using hthere

omit [DecidableEq ι] [Engine σ] in
theorem Passes.leads (h : w.Passes db members server w') :
    ∃ ended, w.Leads db members server w' ended := by
  cases h with
  | silent log lasting =>
    refine ⟨[], by rw [log, List.append_nil], fun t i => ?_, ?_, ?_⟩
    · rw [documents, lasting]
      rfl
    · exact fun _ h => absurd h List.not_mem_nil
    · exact fun _ h => absurd h List.not_mem_nil
  | @merged f p log outcome patch documents =>
    have hsucceeded : f.succeeded = true := by
      unfold Finished.succeeded
      rw [outcome]
      rfl
    refine ⟨[f], log, fun t i => ?_, fun g hg x hx => ?_, fun g hg r hr => ?_⟩
    · rw [documents]
      by_cases h : t = f.table ∧ i = f.call.id
      · simp [patches, merging, h, hsucceeded, patch]
      · have hother : ¬ (f.table = t ∧ f.call.id = i ∧ f.succeeded = true) :=
          fun h' => h ⟨h'.1.symm, h'.2.1.symm⟩
        simp [patches, merging, h, hother]
    · -- a document that is read has been taken
      obtain rfl := List.mem_singleton.1 hg
      simp [Schema.patch?, hx] at patch
    · obtain rfl := List.mem_singleton.1 hg
      rw [documents, if_pos ⟨rfl, rfl⟩]
      exact ⟨.inl outcome, Option.some_ne_none _⟩
  | @late f r e log taken outcome kind lasting there =>
    refine ⟨[f], .of_failed log lasting outcome (fun y hy => ?_) fun _ _ => ⟨⟨e, rfl, kind⟩, there⟩⟩
    rw [taken] at hy
    cases hy
  | @refused f x log refused outcome lasting =>
    refine ⟨[f], .of_failed log lasting outcome (fun y hy => ?_) fun r hr => ?_⟩
    · exact Except.error.inj (refused.symm.trans hy)
    · rw [refused] at hr
      cases hr

/-- **What a run does**: it is sound, and leads from step to step. -/
theorem run_leads (hdb : Engine.Realizes db server)
    (hunion : ∀ old new, members (db.merged old new) = union (members old) (members new))
    (hw : w.Sound db server k) (order : List ι) :
    (w.run order).Sound db server k ∧ ∃ ended, w.Leads db members server (w.run order) ended := by
  induction order generalizing w with
  | nil => exact ⟨hw, [], Leads.refl w⟩
  | cons i order ih =>
    obtain ⟨hsound, hpasses⟩ := step_passes hdb hunion hw i
    obtain ⟨first, hfirst⟩ := hpasses.leads
    obtain ⟨hlast, second, hsecond⟩ := ih hsound
    exact ⟨hlast, first ++ second, hfirst.trans hsecond⟩

/-! ## The calls of a client -/

/-- The calls of a client: those that have come to their ends, the one under way and those that are
still to come. -/
def calls (w : World ι σ) (i : ι) : List Upsert :=
  (w.log.filter fun f => f.client = i).map (·.call)
    ++ ((w.clients i).underway.toList.map (·.1) ++ (w.clients i).todo)

omit [Engine σ] in
/-- A client goes on with the calls that it had. -/
theorem calls_put {client : Client σ} {entries : List (Finished ι)}
    (hclient : ∀ f ∈ entries, f.client = i)
    (hcalls : entries.map (·.call) ++ (client.underway.toList.map (·.1) ++ client.todo)
      = (w.clients i).underway.toList.map (·.1) ++ (w.clients i).todo) (j : ι) :
    (w.put i client entries).calls j = w.calls j := by
  by_cases hj : j = i
  · subst hj
    have hall : entries.filter (fun f => f.client = j) = entries :=
      List.filter_eq_self.2 fun f hf => decide_eq_true (hclient f hf)
    simp only [calls, put, Function.update_self, List.filter_append, hall, List.map_append,
      List.append_assoc]
    rw [← hcalls]
  · have hnone : entries.filter (fun f => f.client = j) = [] := by
      refine List.filter_eq_nil_iff.2 fun f hf => ?_
      rw [hclient f hf]
      simpa using Ne.symm hj
    simp only [calls, put, Function.update_of_ne hj, List.filter_append, hnone, List.append_nil]

/-- No call is left out, and none comes twice. -/
theorem calls_step (w : World ι σ) (i j : ι) : (w.step i).calls j = w.calls j := by
  unfold step
  split
  · rename_i u found todo hunderway
    refine calls_put (fun f hf => ?_) ?_ j
    · rw [List.mem_singleton.1 hf]
    · simp [hunderway]
  · rename_i u todo hunderway htodo
    dsimp only
    split
    · refine calls_put (fun f hf => absurd hf List.not_mem_nil) ?_ j
      simp [hunderway, htodo]
    · refine calls_put (fun f hf => ?_) ?_ j
      · rw [List.mem_singleton.1 hf]
      · simp [hunderway, htodo]
  · rfl

theorem calls_run (w : World ι σ) (order : List ι) (j : ι) : (w.run order).calls j = w.calls j := by
  induction order generalizing w with
  | nil => rfl
  | cons i order ih =>
    have hrun : w.run (i :: order) = (w.step i).run order := rfl
    rw [hrun, ih, calls_step]

/-- **No document is lost, and none is merged twice.** Clients that have looked up nothing yet put
documents under ids, in any order of their steps. A call looks and then writes, and where nobody comes
in between the two steps are the call. In the end the document of an id is what it was at first, or
empty, with those of the calls merged into it that succeeded, as they wrote one after the other. A
call whose document the store refuses ends with the refusal. Any other that did not succeed was
refused as a duplicate, and there is a document under its id. None that did not succeed has changed
anything, and each client has done its calls in order, each of them once. -/
theorem upserts_merged (hdb : Engine.Realizes db server)
    (hunion : ∀ old new, members (db.merged old new) = union (members old) (members new))
    (hw : w.Sound db server k) (hlog : w.log = [])
    (hfresh : ∀ i, (w.clients i).underway = none) (order : List ι) :
    (∀ u : Upsert, (upsertDoc (.str u.collection) (.str u.id) u.document : Action σ Unit)
      = lookUp u >>= Store.write u) ∧
    (∀ i u todo, ((w.run order).clients i).underway = none →
      ((w.run order).clients i).todo = u :: todo →
        let call := runFrom ((w.run order).session i)
          (upsertDoc (.str u.collection) (.str u.id) u.document : Action σ Unit)
        w.run (order ++ [i, i]) = (w.run order).put i ⟨call.2, none, todo⟩
          [⟨i, u, u.table ((w.run order).session i).options, call.1⟩]) ∧
    (∀ t i, (w.run order).documents members server t i
      = merging (w.documents members server t i) (patches db members (w.run order).log t i)) ∧
    (∀ f ∈ (w.run order).log, ∀ x, Record.ofDocument false f.call.document = .error x →
      f.outcome = .error x) ∧
    (∀ f ∈ (w.run order).log, ∀ r, Record.ofDocument false f.call.document = .ok r →
      (f.outcome = .ok () ∨ ∃ e, f.outcome = .error (.engine e) ∧ e.kind = .integrity) ∧
        (w.run order).documents members server f.table f.call.id ≠ none) ∧
    (∀ past i rest f, order = past ++ i :: rest →
      (w.run (past ++ [i])).log = (w.run past).log ++ [f] → f.outcome ≠ .ok () →
        (server (w.run (past ++ [i])).engine).lasting = (server (w.run past).engine).lasting) ∧
    (∀ i, ((w.run order).log.filter fun f => f.client = i).map (·.call)
      ++ (((w.run order).clients i).underway.toList.map (·.1) ++ ((w.run order).clients i).todo)
        = (w.clients i).todo) := by
  obtain ⟨hsound, ended, hleads⟩ := run_leads hdb hunion hw order
  have hended : (w.run order).log = ended := by rw [hleads.log, hlog, List.nil_append]
  refine ⟨upsertDoc_eq, ?_, ?_⟩
  · intro i u todo hunderway htodo
    obtain ⟨found, t, hrun, -, -, hoptions, -⟩ := hsound.looks hdb hunderway htodo
    -- the look comes back, so that the same client writes in its next step
    have hcall := step_step hunderway htodo hrun
    rw [hoptions] at hcall
    simpa [run] using hcall
  rw [hended]
  refine ⟨hleads.documents, hleads.refused, hleads.taken, ?_, ?_⟩
  · rintro past i rest f - hf houtcome
    obtain ⟨hpast, -⟩ := run_leads hdb hunion hw past
    have hrun : w.run (past ++ [i]) = (w.run past).step i := by simp [run]
    rw [hrun] at hf ⊢
    -- of the ways in which a call ends only merging changes what lasts, and that is a success
    cases (step_passes hdb hunion hpast i).2 with
    | silent log lasting => exact lasting
    | merged log outcome =>
      rw [log] at hf
      obtain rfl := List.singleton_inj.1 (List.append_cancel_left hf)
      exact absurd outcome houtcome
    | late log taken outcome kind lasting => exact lasting
    | refused log refused outcome lasting => exact lasting
  · intro i
    have hcalls := calls_run w order i
    unfold calls at hcalls
    rw [hended, hlog, hfresh i] at hcalls
    exact hcalls

/-- **Of two calls that find nothing the second to write is refused.** -/
theorem run_race (hdb : Engine.Realizes db server) (hw : w.Sound db server k) {j : ι} (hij : i ≠ j)
    {v : Upsert} {more others : List Upsert} {r r' : Record}
    (hu : Record.ofDocument false u.document = .ok r)
    (hv : Record.ofDocument false v.document = .ok r')
    (hi : (w.clients i).underway = none) (hitodo : (w.clients i).todo = u :: more)
    (hj : (w.clients j).underway = none) (hjtodo : (w.clients j).todo = v :: others)
    (htable : v.table (w.session j).options = u.table (w.session i).options) (hid : v.id = u.id)
    (hnone : (server w.engine).lasting (u.table (w.session i).options) u.id = none) :
    ∃ e, e.kind = .integrity ∧ (w.run [i, j, i, j]).log = w.log ++
      [⟨i, u, u.table (w.session i).options, .ok ()⟩,
        ⟨j, v, u.table (w.session i).options, .error (.engine e)⟩] := by
  -- both look, and find nothing
  obtain ⟨found, t, -, hstep₁, hw₁, hoptions₁, hlasting₁, hnull₁⟩ := hw.looks hdb hi hitodo
  obtain rfl : found = .null := hnull₁.2 hnone
  have hj₁ : (w.step i).clients j = w.clients j := by
    rw [hstep₁, clients_put_of_ne hij.symm]
  have hsession₁ : ((w.step i).session j).options = (w.session j).options := by
    rw [hstep₁, session_put_of_ne hij.symm]
  have hrow₁ : (server (w.step i).engine).lasting = (server w.engine).lasting := by
    rw [hstep₁]
    exact hlasting₁
  obtain ⟨found, t', -, hstep₂, hw₂, hoptions₂, hlasting₂, hnull₂⟩ :=
    hw₁.looks hdb (hj₁ ▸ hj) (hj₁ ▸ hjtodo)
  rw [hsession₁, htable, hid, hrow₁] at hnull₂
  obtain rfl : found = .null := hnull₂.2 hnone
  -- the first of them adds its document
  have hi₂ : (((w.step i).step j).clients i).underway = some (u, .null) := by
    rw [hstep₂, clients_put_of_ne hij, hstep₁, clients_put_self]
  have hsession₂ : (((w.step i).step j).session i).options = (w.session i).options := by
    rw [hstep₂, session_put_of_ne hij, hstep₁, session_put_self, hoptions₁]
  have hrow₂ : (server ((w.step i).step j).engine).lasting = (server w.engine).lasting := by
    rw [hstep₂]
    exact hlasting₂.trans hrow₁
  obtain ⟨⟨t, hstep₃⟩, hw₃, hpasses⟩ :=
    hw₂.adds (fun doc _ => some doc) hdb hi₂ hu (by rw [hsession₂, hrow₂, hnone])
  rw [hsession₂] at hstep₃
  have hthere : (server (((w.step i).step j).step i).engine).lasting
      (u.table (w.session i).options) u.id ≠ none := by
    obtain ⟨ended, hleads⟩ := hpasses.leads
    have hended : [⟨i, u, u.table (w.session i).options, .ok ()⟩] = ended := by
      have hlog := hleads.log
      rw [hstep₃] at hlog
      exact List.append_cancel_left hlog
    subst hended
    obtain ⟨-, hdocument⟩ := hleads.taken _ (List.mem_singleton_self _) r hu
    intro hgone
    rw [documents, hgone] at hdocument
    exact hdocument rfl
  -- so the second finds one there when it comes to write
  have hj₃ : ((((w.step i).step j).step i).clients j).underway = some (v, .null) := by
    rw [hstep₃, clients_put_of_ne hij.symm, hstep₂, clients_put_self]
  have hsession₃ : ((((w.step i).step j).step i).session j).options = (w.session j).options := by
    rw [hstep₃, session_put_of_ne hij.symm, hstep₂, session_put_self, hoptions₂, hsession₁]
  obtain ⟨e, t, hstep₄, hkind, -, -⟩ :=
    hw₃.late hdb hj₃ hv (by rw [hsession₃, htable, hid]; exact hthere)
  rw [hsession₃, htable] at hstep₄
  have hlog : ((w.step i).step j).log = w.log := by
    rw [hstep₂, put, hstep₁, put]
    simp
  have hrun : w.run [i, j, i, j] = (((w.step i).step j).step i).step j := rfl
  refine ⟨e, hkind, ?_⟩
  rw [hrun, hstep₄, put, hstep₃, put, hlog, List.append_assoc]
  rfl

/-! ## Clients on an empty ledger -/

/-- The store of a client with a connection of its own, on a ledger without rows. -/
def freshSession (connection : ConnectionId) : Session Ledger where
  options := { (default : Options) with tableStart := "em_ds_", transactional := true }
  settings := {}
  connection := some connection
  nextConnection := connection + 1
  nextCursor := connection
  engine :=
    { server := ⟨fun _ _ => none, fun _ _ _ => none, fun _ => false, fun _ => none⟩
      rows := fun _ => [] }

/-- Clients that are to do some calls there. -/
def fresh {ι : Type} (k : ι → ConnectionId) (calls : ι → List Upsert) : World ι Ledger where
  engine := (freshSession 0).engine
  clients i := ⟨freshSession (k i), none, calls i⟩
  log := []

theorem fresh_sound {ι : Type} {k : ι → ConnectionId} {calls : ι → List Upsert}
    (hk : Function.Injective k)
    (hcalls : ∀ i, ∀ u ∈ calls i, u.InOrder Ledger.schema (freshSession (k i)).options) :
    (fresh k calls).Sound Ledger.schema Ledger.server k where
  connection := fun _ => rfl
  cursor := fun _ _ h => by cases h
  apart := fun _ _ hij h => hij (hk h)
  transactional := fun _ => rfl
  promote := fun _ => rfl
  quiet := fun _ _ _ => rfl
  intact := fun _ => rfl
  todo := hcalls
  underway := fun _ _ _ h => by cases h

/-- The document that a client has for the id. -/
def rival (second : Bool) : Upsert where
  collection := "animals"
  id := "a"
  document := if second then .object [("age", .int 3)] else .object [("name", .str "rex")]

/-- Two clients that put a document each under the same id. -/
def rivals : World Bool Ledger := fresh Bool.toNat fun second => [rival second]

theorem rival_table (second : Bool) :
    (rival second).table (rivals.session second).options = "em_ds_animals" :=
  Shelf.tableName_animals

theorem rival_taken (second : Bool) : ∃ (r : Record) (sheet : Sheet),
    Record.ofDocument false (rival second).document = .ok r ∧
      Ledger.schema.reads r.body = some sheet ∧
      Value.datum? (rival second).document = some (.object sheet.object) := by
  have hobject : ∃ es o, (rival second).document = .mapping es ∧ Value.object? es = some o ∧
      Json.fits (.mapping es) = true := by
    cases second with
    | false => exact ⟨[(.str "name", .str "rex")], _, rfl, rfl, rfl⟩
    | true => exact ⟨[(.str "age", .int 3)], _, rfl, rfl, rfl⟩
  obtain ⟨es, o, hdocument, ho, hfits⟩ := hobject
  have hsplit : Record.splitMetadata false es = .ok (es, []) := rfl
  obtain ⟨text, hrecord, hdecode⟩ := Options.record_object ho hfits hsplit
  rw [hdocument]
  refine ⟨_, ⟨es, o, ho⟩, hrecord, Sheet.ofText?_eq hdecode ho, ?_⟩
  rw [Value.datum?, ho]
  rfl

theorem rivals_sound : rivals.Sound Ledger.schema Ledger.server Bool.toNat := by
  have hk : Function.Injective Bool.toNat := by
    intro i j h
    cases i <;> cases j <;> first | rfl | cases h
  refine fresh_sound hk fun i u hu => ?_
  obtain rfl := List.mem_singleton.1 hu
  refine ⟨fun r hr => ?_, trivial⟩
  obtain ⟨r', sheet, hr', hread, -⟩ := rival_taken i
  obtain rfl := Except.ok.inj (hr'.symm.trans hr)
  exact ⟨sheet, hread⟩

/-- Both look before one of them writes. What is there in the end is the document of the first. -/
theorem upserts_merged_rivals :
    ∃ e : EngineError, e.kind = .integrity ∧
      (rivals.run [false, true, false, true]).log.map (fun f => (f.client, f.outcome))
        = [(false, .ok ()), (true, .error (.engine e))] ∧
      (rivals.run [false, true, false, true]).documents Sheet.object Ledger.server
        "em_ds_animals" "a" = some (Object.empty.with "name" (.str "rex")) := by
  obtain ⟨r, sheet, hr, hread, hdatum⟩ := rival_taken false
  obtain ⟨r', -, hr', -⟩ := rival_taken true
  have htables := (rival_table true).trans (rival_table false).symm
  obtain ⟨e, hkind, hlog⟩ := run_race (i := false) (j := true) Ledger.realizes rivals_sound (by simp)
    hr hr' rfl rfl rfl rfl htables rfl rfl
  have hunion : ∀ old new, Sheet.object (Ledger.schema.merged old new)
      = union (Sheet.object old) (Sheet.object new) := fun _ _ => rfl
  obtain ⟨-, -, hdocuments, -⟩ := upserts_merged Ledger.realizes hunion rivals_sound rfl
    (fun _ => rfl) [false, true, false, true]
  refine ⟨e, hkind, by rw [hlog]; rfl, ?_⟩
  have hpatch : Ledger.schema.patch? (rival false).document = some sheet := by
    rw [Schema.patch?, hr, ← hread]
  have hobject : sheet.object = Object.empty.with "name" (.str "rex") := by
    have hdocument : Value.datum? (rival false).document
        = some (.object (Object.empty.with "name" (.str "rex"))) := rfl
    rw [hdocument] at hdatum
    exact (Datum.object.inj (Option.some.inj hdatum)).symm
  have htable := rival_table false
  have hpatches : patches Ledger.schema Sheet.object (rivals.run [false, true, false, true]).log
      "em_ds_animals" "a" = [sheet.object] := by
    rw [hlog, htable]
    have hid : (rival false).id = "a" := rfl
    simp [patches, rivals, fresh, Finished.succeeded, Except.isOk, Except.toBool, hpatch, hid]
  rw [hdocuments, hpatches, hobject]
  exact congrArg some (funext fun n => Option.or_none)

/-- A mapping that is not written, for a value in it is bytes. -/
def blob : Value := .mapping [(.str "tag", .bytes [1])]

/-- A client that puts it under an id. -/
def lone : World Unit Ledger :=
  fresh (fun _ => 0) fun _ => [{ collection := "animals", id := "a", document := blob }]

theorem blob_refused : Record.ofDocument false blob = .error (.misuse .wrongType) := rfl

theorem lone_sound : lone.Sound Ledger.schema Ledger.server fun _ => 0 := by
  refine fresh_sound (fun _ _ _ => rfl) fun i u hu => ?_
  obtain rfl := List.mem_singleton.1 hu
  refine ⟨fun r hr => ?_, trivial⟩
  rw [blob_refused] at hr
  cases hr

/-- Its call ends with another error than that of a duplicate, and there is no document then. -/
theorem lone_refused :
    lone.Sound Ledger.schema Ledger.server (fun _ => 0) ∧
      (lone.run [(), ()]).log.map (·.outcome) = [.error (.misuse .wrongType)] ∧
      (lone.run [(), ()]).documents Sheet.object Ledger.server "em_ds_animals" "a" = none := by
  obtain ⟨found, t, -, hlooked, hsound, -, hlasting, -⟩ :=
    lone_sound.looks (i := ()) Ledger.realizes rfl rfl
  have hunderway : ((lone.step ()).clients ()).underway
      = some (⟨"animals", "a", blob⟩, found) := by
    rw [hlooked, clients_put_self]
  obtain ⟨hrefused, -⟩ := hsound.refuses hunderway blob_refused
  have hrun : lone.run [(), ()] = (lone.step ()).step () := rfl
  refine ⟨lone_sound, ?_, ?_⟩
  · rw [hrun, hrefused, hlooked]
    rfl
  · have hengine : (lone.run [(), ()]).engine = t.engine := by
      rw [hrun, hrefused, hlooked]
      rfl
    rw [documents, hengine, hlasting]
    rfl

end World

end Docbase
