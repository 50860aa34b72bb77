import Docbase.Proofs.Json.MemberNames
import Docbase.Proofs.Store.Storing
import Docbase.Proofs.Store.Transaction

/-!
# Names in stored documents

A change that stores a document binds one JSON text for it. In this text no object has a name twice,
unless two keys of a mapping in the document are written alike.

* `Change.binds_record`: the one command of a change that stores a document binds its text.
* `Change.names_apart_iff`: **a change that is not refused binds a text without repeated names exactly
  if no keys in what stays of the document are written alike.**
* `Change.names_apart_of_texts`: with texts as keys they never are.
-/

namespace Docbase

open Sql Store

/-- The text of a record is bound as the document, whatever the columns are. -/
theorem Record.get?_bind_doc (r : Record) (ps : Params) :
    (r.bind ps).get? "doc" = some (.str r.body) := by
  have hcolumns : "doc" ∉ Params.names (r.columns.map fun c => (columnParam c.1, c.2)) := by
    intro hmem
    obtain ⟨p, hp, hname⟩ := List.mem_map.1 hmem
    obtain ⟨c, -, rfl⟩ := List.mem_map.1 hp
    exact columnParam_ne_doc c.1 hname
  rw [Record.bind, Record.bindColumns_eq, Params.get?_merge_of_notMem hcolumns, Params.get?_put,
    if_pos rfl]

variable {m : Change} {document : Value} {o : Options} {p : Plan}

/-- The one command of the change binds the text of the document's record. -/
theorem Change.binds_record (hm : m.document? = some document) (hp : m.plan o = .ok p) :
    ∃ (r : Record) (c : Command), Record.ofDocument o.promote document = .ok r ∧ p.commands = [c] ∧
      c.value? "doc" = some (.str r.body) := by
  cases m with
  | addDoc collection id d | updateDoc collection id d | replaceDoc collection id d =>
    cases hm
    obtain ⟨r, hr, hp⟩ := bind_eq_ok.1 hp
    obtain ⟨table, -, hp⟩ := bind_eq_ok.1 hp
    cases hp
    exact ⟨r, _, hr, rfl, r.get?_bind_doc _⟩
  | updateMany collection filter d | replaceMany collection filter d =>
    cases hm
    obtain ⟨clause, -, hp⟩ := bind_eq_ok.1 hp
    obtain ⟨r, hr, hp⟩ := bind_eq_ok.1 hp
    obtain ⟨table, -, hp⟩ := bind_eq_ok.1 hp
    cases hp
    exact ⟨r, _, hr, rfl, r.get?_bind_doc _⟩
  | _ => cases hm

/-- A change that stores a document is worked out before anything is sent. -/
theorem Change.runFrom_storing {σ : Type} [Engine σ] (hm : m.document? = some document)
    (s : Session σ) : runFrom s m.act = match m.plan s.options with
      | .ok p => runFrom s (run p)
      | .error x => (.error x, s) := by
  have hcarried : ∀ collection, m ≠ .dropCollection collection := by
    rintro collection rfl
    cases hm
  rw [act_eq_carryOut hcarried]
  exact runFrom_carryOut s _

/-- **A change that stores a mapping is refused before anything happens, or it sends one command.**
The JSON text that this binds as the document has no object with a name twice exactly if no two keys
of a mapping in what stays of the document are written alike. -/
theorem Change.names_apart_iff {σ : Type} [Engine σ] {m : Change} {es : Entries} (s : Session σ)
    (hm : m.document? = some (.mapping es)) :
    (∃ x, m.plan s.options = .error x ∧ runFrom s m.act = (.error x, s)) ∨
      ∃ (p : Plan) (c : Command) (text : String), m.plan s.options = .ok p ∧
        runFrom s m.act = runFrom s (run p) ∧ p.commands = [c] ∧
        c.value? "doc" = some (.str text) ∧
        (Json.NamesApart text ↔ ¬ Json.Clashing (.mapping (Document.kept s.options.promote es))) := by
  rw [runFrom_storing hm]
  cases hp : m.plan s.options with
  | error x => exact .inl ⟨x, rfl, rfl⟩
  | ok p =>
    obtain ⟨r, c, hr, hc, hdoc⟩ := binds_record hm hp
    obtain ⟨-, hbody, -⟩ := Document.ofDocument_parts hr
    exact .inr ⟨p, c, r.body, rfl, rfl, hc, hdoc, Json.namesApart_iff hbody⟩

/-- A document with an object in a list. -/
def Document.toys : Entries :=
  [(.str "kind", .str "cat"), (.str "toys", .list [.mapping [(.str "kind", .str "ball")]])]

/-- The names in different objects may be the same. -/
theorem Change.names_apart_iff_toys :
    ∃ (p : Plan) (c : Command) (text : String),
      (Change.addDoc (.str "animals") (.str "1") (.mapping Document.toys)).plan
          Session.promoting.options = .ok p ∧
        p.commands = [c] ∧ c.value? "doc" = some (.str text) ∧ Json.NamesApart text := by
  have hplan : ∃ p, (Change.addDoc (.str "animals") (.str "1") (.mapping Document.toys)).plan
      Session.promoting.options = .ok p := ⟨_, rfl⟩
  have hkept : Document.kept Session.promoting.options.promote Document.toys = Document.toys := rfl
  have hapart : ¬ Json.Clashing (.mapping Document.toys) := by
    simp [Document.toys, Json.clashing_mapping, Json.clashing_list, Json.clashing_str, Json.KeysApart,
      Json.writtenName, Json.memberName, Except.toOption]
  rcases names_apart_iff Session.promoting (m := .addDoc (.str "animals") (.str "1") _) rfl with
    ⟨x, hx, -⟩ | ⟨p, c, text, hp, -, hc, hdoc, hiff⟩
  · obtain ⟨p, hp⟩ := hplan
    cases hp.symm.trans hx
  · rw [hkept] at hiff
    exact ⟨p, c, text, hp, hc, hdoc, hiff.2 hapart⟩

/-- Members with different keys that are written alike. -/
def Document.twins : Entries := [(.int 1, .str "a"), (.str "1", .str "b")]

/-- Their document is accepted, and its text has a name twice. -/
theorem Change.names_together :
    ∃ (p : Plan) (c : Command),
      (Change.addDoc (.str "animals") (.str "1") (.mapping Document.twins)).plan
          Session.promoting.options = .ok p ∧
        p.commands = [c] ∧
        c.value? "doc" = some (.str "\x7b\"1\": \"a\", \"1\": \"b\"\x7d") ∧
        ¬ Json.NamesApart "\x7b\"1\": \"a\", \"1\": \"b\"\x7d" := by
  have htext : Json.encode (.mapping Document.twins) =
      .ok "\x7b\"1\": \"a\", \"1\": \"b\"\x7d" := by decide +kernel
  have hclash : Json.Clashing (.mapping Document.twins) := ⟨Document.twins, .self _, by decide⟩
  obtain ⟨p, hp⟩ : ∃ p, (Change.addDoc (.str "animals") (.str "1") (.mapping Document.twins)).plan
      Session.promoting.options = .ok p := ⟨_, rfl⟩
  obtain ⟨r, c, hr, hc, hdoc⟩ := binds_record rfl hp
  obtain ⟨-, hbody, -⟩ := Document.ofDocument_parts hr
  have hkept : Document.kept Session.promoting.options.promote Document.twins = Document.twins := rfl
  rw [hkept, htext] at hbody
  rw [← Except.ok.inj hbody] at hdoc
  exact ⟨p, c, hp, hc, hdoc, fun hapart => (Json.namesApart_iff htext).1 hapart hclash⟩

/-- **With texts as keys no names come together**, in whatever way the document is stored. -/
theorem Change.names_apart_of_texts {es : Entries} (hm : m.document? = some (.mapping es))
    (htexts : ∀ inner, Json.Inside (.mapping inner) (.mapping (Document.kept o.promote es)) →
      (Entries.names inner).Nodup ∧ ∀ k ∈ Entries.names inner, Json.IsText k)
    (hp : m.plan o = .ok p) :
    ∃ (c : Command) (text : String), p.commands = [c] ∧ c.value? "doc" = some (.str text) ∧
      Json.NamesApart text := by
  obtain ⟨r, c, hr, hc, hdoc⟩ := binds_record hm hp
  obtain ⟨-, hbody, -⟩ := Document.ofDocument_parts hr
  exact ⟨c, r.body, hc, hdoc, (Json.namesApart_iff hbody).2 (Json.not_clashing_of_texts htexts)⟩

end Docbase
