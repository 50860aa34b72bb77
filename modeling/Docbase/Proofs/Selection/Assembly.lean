import Docbase.Proofs.Field
import Docbase.Proofs.Selection.Labels

/-!
# Assembled documents

What the document holds that is put together from a row, entry by entry.

* `Reads`: the value of a column in a row.
* `assembleFrom_keeps`: what no later entry changes, stays.
* `Assembled`: what an assembled document holds.
* `assemble_assembled`: **a selection whose entries all fit a row gives such a document, and any other
  is refused for its first entry that does not fit**.
-/

namespace Docbase.Selection

open Entries

/-- The names on the way to the value of an entry. -/
def Entry.path (e : Entry) : List String := Text.split '.' e.aliasName

theorem Entry.path_ne_nil (e : Entry) : e.path ≠ [] := Text.split_ne_nil '.' e.aliasName

/-- The value of a column in a row: null if the row does not have the column, the stored value if the
field is a physical column, and else the JSON value that is stored, or whose text is. -/
inductive Reads (r : Resolver) (row : Entries) (c : Column) : Value → Prop
  | missing : get? row (.str c.label) = none → Reads r row c .null
  | physical {v : Value} : get? row (.str c.label) = some v → r.isPromoted c.entry.field = true →
      Reads r row c v
  | text {s : String} {v : Value} : get? row (.str c.label) = some (.str s) →
      r.isPromoted c.entry.field = false → decodeText s = .ok v → Reads r row c v
  | bytes {bs : List UInt8} {s : String} {v : Value} : get? row (.str c.label) = some (.bytes bs) →
      r.isPromoted c.entry.field = false → Input.utf8Text? bs = some s → decodeText s = .ok v →
      Reads r row c v
  | json {v : Value} : get? row (.str c.label) = some v → r.isPromoted c.entry.field = false →
      (∀ s, v ≠ .str s) → (∀ bs, v ≠ .bytes bs) → Reads r row c v

variable {r : Resolver} {row members doc : Entries} {c : Column} {cs : List Column} {v : Value}
  {x : Error}

theorem cell_eq_ok : cell r row c = .ok v ↔ Reads r row c v := by
  have hcell : cell r row c = readStored r c.entry.field (get? row (.str c.label)) := rfl
  rw [hcell, readStored]
  constructor
  · intro h
    cases hs : get? row (.str c.label) with
    | none =>
      rw [hs] at h
      split at h <;> cases h <;> exact .missing hs
    | some stored =>
      rw [hs, Option.getD_some] at h
      split at h
      · rename_i hp
        cases h
        exact .physical hs hp
      · rename_i hp
        rw [Bool.not_eq_true] at hp
        cases stored with
        | str s => exact .text hs hp h
        | bytes bs =>
          rw [decodeColumn] at h
          cases hb : Input.utf8Text? bs with
          | none => rw [hb] at h; cases h
          | some s => rw [hb] at h; exact .bytes hs hp hb h
        | _ => cases h; exact .json hs hp (by simp) (by simp)
  · intro h
    cases h with
    | missing hs => rw [hs]; split <;> rfl
    | physical hs hp => rw [hs, if_pos hp]; rfl
    | text hs hp hd => rw [hs, hp]; exact hd
    | bytes hs hp hb hd =>
      rw [hs, hp]
      simp only [Bool.false_eq_true, if_false, Option.getD_some, decodeColumn, hb, hd]
    | json hs hp hstr hbytes =>
      rw [hs, hp]
      cases v with
      | str s => exact absurd rfl (hstr s)
      | bytes bs => exact absurd rfl (hbytes bs)
      | _ => rfl

/-! ## One entry -/

/-- The value can be put where the entry wants it: what goes straight into the answer is an object or
null. -/
def Entry.Takes (e : Entry) (v : Value) : Prop :=
  e.isMerge = true → v = .null ∨ ∃ es, v = .mapping es

theorem place_eq_ok {after : Entries} : place members c v = .ok after ↔
    (c.entry.isMerge = false ∧ after = setPath members c.entry.path v) ∨
    (c.entry.isMerge = true ∧ v = .null ∧ after = members) ∨
    (c.entry.isMerge = true ∧ ∃ es, v = .mapping es ∧ after = Entries.merge members es) := by
  unfold place
  cases c.entry.isMerge with
  | false => simp [Entry.path, eq_comm]
  | true => cases v <;> simp [eq_comm]

theorem exists_place (h : c.entry.Takes v) (members : Entries) :
    ∃ after, place members c v = .ok after := by
  cases hm : c.entry.isMerge with
  | false => exact ⟨_, place_eq_ok.2 (.inl ⟨hm, rfl⟩)⟩
  | true =>
    rcases h hm with rfl | ⟨es, rfl⟩
    · exact ⟨_, place_eq_ok.2 (.inr (.inl ⟨hm, rfl, rfl⟩))⟩
    · exact ⟨_, place_eq_ok.2 (.inr (.inr ⟨hm, es, rfl, rfl⟩))⟩

theorem takes_of_place {after : Entries} (h : place members c v = .ok after) : c.entry.Takes v := by
  intro hm
  rcases place_eq_ok.1 h with ⟨hm', -⟩ | ⟨-, hnull, -⟩ | ⟨-, es, hes, -⟩
  · rw [hm] at hm'; cases hm'
  · exact .inl hnull
  · exact .inr ⟨es, hes⟩

theorem place_eq_error : place members c v = .error x ↔
    ¬ c.entry.Takes v ∧ x = .refused (.mergeNotObject c.entry.field v) := by
  unfold place Entry.Takes
  cases c.entry.isMerge with
  | false => simp
  | true => cases v <;> simp [eq_comm]

/-- The entry has a value in the row, and that can be put where it is wanted. -/
def Fits (r : Resolver) (row : Entries) (c : Column) : Prop :=
  ∃ v, Reads r row c v ∧ c.entry.Takes v

/-- The entry has no value in the row, or that cannot be put where it is wanted. -/
def Fails (r : Resolver) (row : Entries) (c : Column) (x : Error) : Prop :=
  (∃ m, cell r row c = .error m ∧ x = .misuse m) ∨
    ∃ v, Reads r row c v ∧ ¬ c.entry.Takes v ∧ x = .refused (.mergeNotObject c.entry.field v)

/-! ## All entries -/

theorem assembleFrom_cons (members : Entries) (c : Column) (cs : List Column) :
    assembleFrom r row members (c :: cs) = (cell r row c).mapError .misuse >>= fun v =>
      place members c v >>= fun after => assembleFrom r row after cs := rfl

theorem assembleFrom_cons_ok : assembleFrom r row members (c :: cs) = .ok doc ↔
    ∃ v after, Reads r row c v ∧ place members c v = .ok after ∧
      assembleFrom r row after cs = .ok doc := by
  rw [assembleFrom_cons]
  cases hcell : cell r row c with
  | error m =>
    simp only [← cell_eq_ok, hcell]
    simp [Except.mapError, bind, Except.bind]
  | ok v =>
    simp only [← cell_eq_ok, hcell, Except.ok.injEq]
    rw [show (Except.ok v : Except Misuse Value).mapError Error.misuse = .ok v from rfl]
    rw [show (Except.ok v : Except Error Value) >>= (fun v => place members c v >>=
      fun after => assembleFrom r row after cs) = (place members c v >>=
      fun after => assembleFrom r row after cs) from rfl, bind_eq_ok]
    simp

theorem assembleFrom_append (members : Entries) (front back : List Column) :
    assembleFrom r row members (front ++ back) =
      assembleFrom r row members front >>= fun ms => assembleFrom r row ms back := by
  induction front generalizing members with
  | nil => rfl
  | cons c front ih =>
    rw [List.cons_append, assembleFrom_cons, assembleFrom_cons]
    cases hcell : cell r row c with
    | error m => rfl
    | ok v =>
      cases hp : place members c v with
      | error x => simp [Except.mapError, bind, Except.bind, hp]
      | ok after => simpa [Except.mapError, bind, Except.bind, hp] using ih after

/-- What every entry keeps, holds in the end. -/
theorem assembleFrom_invariant {P : Entries → Prop} (hstart : P members)
    (hstep : ∀ c ∈ cs, ∀ v before after, Reads r row c v → place before c v = .ok after →
      P before → P after)
    (hrun : assembleFrom r row members cs = .ok doc) : P doc := by
  induction cs generalizing members with
  | nil => cases hrun; exact hstart
  | cons c cs ih =>
    obtain ⟨v, after, hv, hp, hrest⟩ := assembleFrom_cons_ok.1 hrun
    have hafter : P after := hstep c List.mem_cons_self v members after hv hp hstart
    exact ih hafter (fun d hd => hstep d (List.mem_cons_of_mem _ hd)) hrest

/-- An entry is put between those before it and those behind it. -/
theorem assembleFrom_split {before later : List Column}
    (hrun : assembleFrom r row members (before ++ c :: later) = .ok doc) :
    ∃ ms v after, assembleFrom r row members before = .ok ms ∧ Reads r row c v ∧
      place ms c v = .ok after ∧ assembleFrom r row after later = .ok doc := by
  rw [assembleFrom_append] at hrun
  obtain ⟨ms, hms, hrest⟩ := bind_eq_ok.1 hrun
  obtain ⟨v, after, hv, hp, hlater⟩ := assembleFrom_cons_ok.1 hrest
  exact ⟨ms, v, after, hms, hv, hp, hlater⟩

/-- All entries that are put together fit. -/
theorem fits_of_assembleFrom (hrun : assembleFrom r row members cs = .ok doc) :
    ∀ c ∈ cs, Fits r row c := by
  induction cs generalizing members with
  | nil => simp
  | cons c cs ih =>
    obtain ⟨v, after, hv, hp, hrest⟩ := assembleFrom_cons_ok.1 hrun
    intro d hd
    rcases List.mem_cons.1 hd with rfl | hd
    · exact ⟨v, hv, takes_of_place hp⟩
    · exact ih hrest d hd

/-- If all entries fit, they are put together. -/
theorem exists_assembleFrom (h : ∀ c ∈ cs, Fits r row c) (members : Entries) :
    ∃ doc, assembleFrom r row members cs = .ok doc := by
  induction cs generalizing members with
  | nil => exact ⟨members, rfl⟩
  | cons c cs ih =>
    obtain ⟨v, hv, ht⟩ := h c List.mem_cons_self
    obtain ⟨after, hp⟩ := exists_place ht members
    obtain ⟨doc, hdoc⟩ := ih (fun d hd => h d (List.mem_cons_of_mem _ hd)) after
    exact ⟨doc, assembleFrom_cons_ok.2 ⟨v, after, hv, hp, hdoc⟩⟩

/-- What fails is the first entry that does not fit. -/
theorem assembleFrom_eq_error : assembleFrom r row members cs = .error x ↔
    ∃ before c later, cs = before ++ c :: later ∧ (∀ d ∈ before, Fits r row d) ∧
      Fails r row c x := by
  constructor
  · intro h
    induction cs generalizing members with
    | nil => cases h
    | cons c cs ih =>
      rw [assembleFrom_cons] at h
      cases hcell : cell r row c with
      | error m =>
        rw [hcell] at h
        cases h
        exact ⟨[], c, cs, rfl, by simp, .inl ⟨m, hcell, rfl⟩⟩
      | ok v =>
        rw [hcell] at h
        cases hp : place members c v with
        | error y =>
          obtain ⟨hnot, rfl⟩ := place_eq_error.1 hp
          have hx : assembleFrom r row members (c :: cs) =
              .error (.refused (.mergeNotObject c.entry.field v)) := by
            rw [assembleFrom_cons, hcell]
            simp [Except.mapError, bind, Except.bind, hp]
          rw [assembleFrom_cons, hcell, h] at hx
          cases hx
          exact ⟨[], c, cs, rfl, by simp, .inr ⟨v, cell_eq_ok.1 hcell, hnot, rfl⟩⟩
        | ok after =>
          have hrest : assembleFrom r row after cs = .error x := by
            simpa [Except.mapError, bind, Except.bind, hp] using h
          obtain ⟨before, d, later, rfl, hbefore, hd⟩ := ih hrest
          have hc : Fits r row c := ⟨v, cell_eq_ok.1 hcell, takes_of_place hp⟩
          exact ⟨c :: before, d, later, rfl, by simpa using ⟨hc, hbefore⟩, hd⟩
  · rintro ⟨before, c, later, rfl, hbefore, hfails⟩
    obtain ⟨ms, hms⟩ := exists_assembleFrom hbefore members
    rw [assembleFrom_append, hms]
    rcases hfails with ⟨m, hm, rfl⟩ | ⟨v, hv, hnot, rfl⟩
    · simp [assembleFrom_cons, hm, Except.mapError, bind, Except.bind]
    · have hp : place ms c v = .error (.refused (.mergeNotObject c.entry.field v)) :=
        place_eq_error.2 ⟨hnot, rfl⟩
      simp [assembleFrom_cons, cell_eq_ok.2 hv, hp, Except.mapError, bind, Except.bind]

/-! ## What the document holds -/

/-- A name that the entry brings into the document: the first one on the way to its value, or one of
the object that it merges. -/
inductive Brings (r : Resolver) (row : Entries) (d : Column) : Key → Prop
  | first {name : String} : d.entry.isMerge = false → d.entry.path.head? = some name →
      Brings r row d (.str name)
  | member {es : Entries} {k : Key} : d.entry.isMerge = true → Reads r row d (.mapping es) →
      k ∈ names es → Brings r row d k

/-- The entry changes nothing at the path: the way to its own value parts from it, or the object that
it merges does not have its first name. -/
structure SparesPath (r : Resolver) (row : Entries) (path : List String) (d : Column) : Prop where
  parts : d.entry.isMerge = false → ¬ d.entry.path <+: path ∧ ¬ path <+: d.entry.path
  lacks : d.entry.isMerge = true → ∀ es, Reads r row d (.mapping es) →
    ∀ name, path.head? = some name → get? es (.str name) = none

/-- The entry leaves the member of that name: the way to its own value starts with another name, or
the object that it merges does not have the name. -/
structure SparesName (r : Resolver) (row : Entries) (k : Key) (d : Column) : Prop where
  starts : d.entry.isMerge = false → ∀ name, d.entry.path.head? = some name → k ≠ .str name
  lacks : d.entry.isMerge = true → ∀ es, Reads r row d (.mapping es) → get? es k = none

/-- All names of the objects that are merged are in the form they are kept in. -/
def MergesExact (r : Resolver) (row : Entries) (cs : List Column) : Prop :=
  ∀ d ∈ cs, ∀ es, d.entry.isMerge = true → Reads r row d (.mapping es) → ∀ n ∈ names es, n.Exact

/-- What the members of an assembled document are. -/
structure Assembled (r : Resolver) (row : Entries) (cs : List Column) (members : Entries) : Prop where
  /-- What an entry reads is at its path, unless a later entry changes something there. -/
  at_path : ∀ before c later, cs = before ++ c :: later → c.entry.isMerge = false →
    (∀ d ∈ later, SparesPath r row c.entry.path d) →
      ∃ v, Reads r row c v ∧ (Value.mapping members).at? c.entry.path = some v
  /-- What a merged object has under a name is there, unless a later entry changes it. -/
  merged : MergesExact r row cs → ∀ before c later, cs = before ++ c :: later →
    c.entry.isMerge = true → ∀ es, Reads r row c (.mapping es) →
      ∀ k v, k.same k = true → Last es k v → (∀ d ∈ later, SparesName r row k d) →
        get? members k = some v
  /-- There is no other member. -/
  brought : ∀ k ∈ names members, ∃ d ∈ cs, Brings r row d k

theorem at?_place {before after : Entries} {path : List String} (h : SparesPath r row path c)
    (hpath : path ≠ []) (hv : Reads r row c v) (hp : place before c v = .ok after) :
    (Value.mapping after).at? path = (Value.mapping before).at? path := by
  rcases place_eq_ok.1 hp with ⟨hm, rfl⟩ | ⟨hm, rfl, rfl⟩ | ⟨hm, es, rfl, rfl⟩
  · obtain ⟨hnot, hnot'⟩ := h.parts hm
    exact at?_setPath_of_diverge hnot hnot' before v
  · rfl
  · obtain ⟨name, rest, rfl⟩ := List.exists_cons_of_ne_nil hpath
    have hlacks : get? es (.str name) = none := h.lacks hm es hv name rfl
    rw [Value.at?_cons, Value.child?, get?_merge_absent (Key.firm_str name) (fun _ _ => trivial)
      (fun _ _ => trivial) hlacks]
    rfl

theorem names_place {before after : Entries} {k : Key} (hv : Reads r row c v)
    (hp : place before c v = .ok after) (hk : k ∈ names after) :
    k ∈ names before ∨ Brings r row c k := by
  rcases place_eq_ok.1 hp with ⟨hm, rfl⟩ | ⟨hm, rfl, rfl⟩ | ⟨hm, es, rfl, rfl⟩
  · obtain ⟨name, rest, hpath⟩ := List.exists_cons_of_ne_nil c.entry.path_ne_nil
    rw [hpath] at hk
    rcases mem_names_setPath hk with hk | rfl
    · exact .inl hk
    · exact .inr (.first hm (by rw [hpath]; rfl))
  · exact .inl hk
  · exact (mem_names_merge hk).imp_right (.member hm hv)

theorem names_assembleFrom {k : Key} (hrun : assembleFrom r row members cs = .ok doc)
    (hk : k ∈ names doc) : k ∈ names members ∨ ∃ d ∈ cs, Brings r row d k := by
  revert k
  refine assembleFrom_invariant (P := fun ms => ∀ {k}, k ∈ names ms →
    k ∈ names members ∨ ∃ d ∈ cs, Brings r row d k) .inl ?_ hrun
  intro c hc v before after hv hp ih k hk
  rcases names_place hv hp hk with hk | hk
  · exact ih hk
  · exact .inr ⟨c, hc, hk⟩

theorem Brings.exact {k : Key} (h : Brings r row c k) (hc : c ∈ cs) (hexact : MergesExact r row cs) :
    k.Exact := by
  cases h with
  | first => trivial
  | member hm hes hk => exact hexact c hc _ hm hes k hk

theorem exact_assembleFrom (hexact : MergesExact r row cs)
    (hrun : assembleFrom r row [] cs = .ok doc) : ∀ n ∈ names doc, n.Exact := by
  intro n hn
  rcases names_assembleFrom hrun hn with hn | ⟨d, hd, hbrings⟩
  · cases hn
  · exact hbrings.exact hd hexact

theorem get?_place {before after : Entries} {k : Key} (h : SparesName r row k c)
    (hk : k.Firm Key.Exact) (hbefore : ∀ n ∈ names before, n.Exact)
    (hexact : ∀ es, c.entry.isMerge = true → Reads r row c (.mapping es) → ∀ n ∈ names es, n.Exact)
    (hv : Reads r row c v) (hp : place before c v = .ok after) : get? after k = get? before k := by
  rcases place_eq_ok.1 hp with ⟨hm, rfl⟩ | ⟨hm, rfl, rfl⟩ | ⟨hm, es, rfl, rfl⟩
  · obtain ⟨name, rest, hpath⟩ := List.exists_cons_of_ne_nil c.entry.path_ne_nil
    have hne : k ≠ .str name := h.starts hm name (by rw [hpath]; rfl)
    have hsame : (Key.str name).same k = false := by
      rw [Bool.eq_false_iff, Ne, Key.str_same]
      exact hne
    rw [hpath]
    exact get?_setPath hk hbefore trivial hsame rest v
  · rfl
  · exact get?_merge_absent hk hbefore (hexact es hm hv) (h.lacks hm es hv)

/-- What is put together from all entries is an assembled document. -/
theorem assembled_of_assembleFrom (hrun : assembleFrom r row [] cs = .ok members) :
    Assembled r row cs members where
  at_path := by
    rintro before c later rfl hm hspares
    obtain ⟨ms, v, after, -, hv, hp, hlater⟩ := assembleFrom_split hrun
    refine ⟨v, hv, ?_⟩
    refine assembleFrom_invariant (P := fun ms => (Value.mapping ms).at? c.entry.path = some v)
      ?_ ?_ hlater
    · rcases place_eq_ok.1 hp with ⟨-, rfl⟩ | ⟨hm', -, -⟩ | ⟨hm', -⟩
      · exact at?_setPath c.entry.path_ne_nil ms v
      · rw [hm] at hm'; cases hm'
      · rw [hm] at hm'; cases hm'
    · intro d hd w before' after' hw hp' hheld
      rw [at?_place (hspares d hd) c.entry.path_ne_nil hw hp']
      exact hheld
  merged := by
    rintro hexact before c later rfl hm es hes k v hself hlast hspares
    obtain ⟨ms, v', after, hms, hv', hp, hlater⟩ := assembleFrom_split hrun
    have hnames : ∀ n ∈ names es, n.Exact := hexact c (by simp) es hm hes
    have hk : k.Exact := by
      obtain ⟨front, back, rfl, -⟩ := hlast
      exact hnames k (by simp [names])
    have hfirm : k.Firm Key.Exact := hk.firm hself
    have hbefore : ∀ n ∈ names ms, n.Exact :=
      exact_assembleFrom (fun d hd => hexact d (List.mem_append_left _ hd)) hms
    have hstart : (∀ n ∈ names after, n.Exact) ∧ get? after k = some v := by
      constructor
      · intro n hn
        rcases names_place hv' hp hn with hn | hn
        · exact hbefore n hn
        · exact hn.exact (by simp) hexact
      · obtain rfl : v' = .mapping es := by
          rw [← cell_eq_ok] at hv' hes
          rw [hv'] at hes
          exact Except.ok.inj hes
        rcases place_eq_ok.1 hp with ⟨hm', -⟩ | ⟨-, hnull, -⟩ | ⟨-, es', hes', rfl⟩
        · rw [hm] at hm'; cases hm'
        · cases hnull
        · cases hes'
          exact get?_merge_last hfirm hbefore hnames hlast
    refine (assembleFrom_invariant
      (P := fun ms => (∀ n ∈ names ms, n.Exact) ∧ get? ms k = some v) hstart ?_ hlater).2
    rintro d hd w before' after' hw hp' ⟨hexact', hheld⟩
    have hd' : d ∈ before ++ c :: later := by simp [hd]
    constructor
    · intro n hn
      rcases names_place hw hp' hn with hn | hn
      · exact hexact' n hn
      · exact hn.exact hd' hexact
    · rw [get?_place (hspares d hd) hfirm hexact' (hexact d hd') hw hp']
      exact hheld
  brought := by
    intro k hk
    rcases names_assembleFrom hrun hk with hk | hk
    · cases hk
    · exact hk

theorem assemble_of_free {s : Selection} (h : ∀ e ∈ s.entries, ¬ LooksLikeLabel e.aliasName) :
    s.assemble r (.mapping row) =
      (assembleFrom r row [] (labelled 0 s.entries)).map .mapping := by
  simp only [assemble, columns_of_free h]
  cases assembleFrom r row [] (labelled 0 s.entries) <;> rfl

theorem Fails.refused_iff {cause : Cause} : Fails r row c (.refused cause) ↔
    ∃ v, Reads r row c v ∧ ¬ c.entry.Takes v ∧ cause = .mergeNotObject c.entry.field v := by
  simp [Fails]

theorem Entry.not_takes {e : Entry} :
    ¬ e.Takes v ↔ e.isMerge = true ∧ v ≠ .null ∧ ∀ es, v ≠ .mapping es := by
  simp [Entry.Takes]

/-- **What a selection makes of a row.** If every entry has a value in the row that can be put where it
is wanted, the answer is a document that has the value of each entry at its path and the members of
what is merged, as far as no later entry changes them, and no other members. Else the answer is the
error of the first entry that has no such value. That is a refusal of a field exactly if the entry is
to be merged and its value is neither null nor an object. -/
theorem assemble_assembled (r : Resolver) {s : Selection}
    (hfree : ∀ e ∈ s.entries, ¬ LooksLikeLabel e.aliasName) (row : Entries) :
    (∀ doc, s.assemble r (.mapping row) = .ok doc → ∃ members, doc = .mapping members ∧
      Assembled r row (labelled 0 s.entries) members) ∧
    ((∃ doc, s.assemble r (.mapping row) = .ok doc) ↔
      ∀ c ∈ labelled 0 s.entries, Fits r row c) ∧
    (∀ x, s.assemble r (.mapping row) = .error x ↔ ∃ before c later,
      labelled 0 s.entries = before ++ c :: later ∧ (∀ d ∈ before, Fits r row d) ∧
        Fails r row c x) ∧
    ((∃ cause, s.assemble r (.mapping row) = .error (.refused cause) ∧
        cause.report.category = .invalidField) ↔ ∃ before c later v,
      labelled 0 s.entries = before ++ c :: later ∧ (∀ d ∈ before, Fits r row d) ∧
        c.entry.isMerge = true ∧ Reads r row c v ∧ v ≠ .null ∧ ∀ es, v ≠ .mapping es) := by
  have herror : ∀ x, s.assemble r (.mapping row) = .error x ↔
      assembleFrom r row [] (labelled 0 s.entries) = .error x := by
    intro x
    rw [assemble_of_free hfree]
    cases assembleFrom r row [] (labelled 0 s.entries) <;> simp [Except.map]
  refine ⟨?_, ?_, ?_, ?_⟩
  · intro doc h
    rw [assemble_of_free hfree, map_eq_ok] at h
    obtain ⟨members, hrun, rfl⟩ := h
    exact ⟨members, rfl, assembled_of_assembleFrom hrun⟩
  · constructor
    · rintro ⟨doc, h⟩
      rw [assemble_of_free hfree, map_eq_ok] at h
      obtain ⟨members, hrun, -⟩ := h
      exact fits_of_assembleFrom hrun
    · intro hfits
      obtain ⟨members, hrun⟩ := exists_assembleFrom hfits []
      exact ⟨.mapping members, by rw [assemble_of_free hfree, hrun]; rfl⟩
  · exact fun x => (herror x).trans assembleFrom_eq_error
  · constructor
    · rintro ⟨cause, h, -⟩
      obtain ⟨before, c, later, hcs, hbefore, hfails⟩ := assembleFrom_eq_error.1 ((herror _).1 h)
      obtain ⟨v, hv, hnot, -⟩ := Fails.refused_iff.1 hfails
      exact ⟨before, c, later, v, hcs, hbefore, (Entry.not_takes.1 hnot).1, hv,
        (Entry.not_takes.1 hnot).2⟩
    · rintro ⟨before, c, later, v, hcs, hbefore, hm, hv, hnull, hmapping⟩
      have hnot : ¬ c.entry.Takes v := Entry.not_takes.2 ⟨hm, hnull, hmapping⟩
      refine ⟨.mergeNotObject c.entry.field v, (herror _).2 (assembleFrom_eq_error.2 ?_), rfl⟩
      exact ⟨before, c, later, hcs, hbefore, .inr ⟨v, hv, hnot, rfl⟩⟩

/-- A selection of two values behind one name, of an object to merge and of a physical column, whose
last entry goes below the value of the first. -/
def nestedSample : Selection :=
  ⟨[⟨"a.b", "x"⟩, ⟨"a.c", "y"⟩, ⟨"$merge", "z"⟩, ⟨"kind", "metadata.kind"⟩, ⟨"a.b.d", "w"⟩]⟩

/-- A row for it. The merged object has the name of a value as well, and the last column is missing. -/
def nestedRow : Entries :=
  [(.str "__partial_sel_field__0", .int 1), (.str "__partial_sel_field__1", .bool true),
    (.str "__partial_sel_merge__2", .mapping [(.str "e", .int 5), (.str "kind", .null)]),
    (.str "__partial_sel_field__3", .str "7")]

/-- The document of that row: the value under `a.b` gave way to an object, that under `kind` to the
text of the physical column. -/
theorem assemble_assembled_nested :
    (∀ e ∈ nestedSample.entries, ¬ LooksLikeLabel e.aliasName) ∧
    Assembled { promote := true } nestedRow (labelled 0 nestedSample.entries)
      [(.str "a", .mapping [(.str "b", .mapping [(.str "d", .null)]), (.str "c", .bool true)]),
        (.str "e", .int 5), (.str "kind", .str "7")] := by
  have hfree : ∀ e ∈ nestedSample.entries, ¬ LooksLikeLabel e.aliasName := by decide
  refine ⟨hfree, ?_⟩
  obtain ⟨members, hmembers, hassembled⟩ :=
    (assemble_assembled { promote := true } hfree nestedRow).1 _ rfl
  cases hmembers
  exact hassembled

end Docbase.Selection
