import Docbase.Proofs.Filter.Flawed
import Docbase.Proofs.Store.Columns

/-!
# Changes that are refused

A change works everything out before it sends a command, and each of its arguments may stop it: a
filter, an index or one of many, or a document. These are the arguments that do.

* `Index.Uncreatable`, `Index.Undroppable`: what is refused where an index is due.
* `Document.Refused`: what is refused where a document is due.
* `Change.Refused`: what is refused of a change.
* `Change.plan_error_iff`: **a change of a named collection has no plan exactly if something of it is
  refused**; `Change.plan_rejects`: it is refused for what it is.
-/

namespace Docbase

open Sql Store

/-! ## Indexes -/

section Keys

variable {r : Resolver} {fs : List FieldIndex}

/-- Fields have no keys exactly if the path of one of them is refused. -/
theorem keyTexts_error_iff :
    (∃ c, keyTexts r fs = .error c) ↔ ∃ f ∈ fs, ¬ r.Accepts f.field := by
  constructor
  · rintro ⟨c, hc⟩
    by_contra hnone
    push Not at hnone
    obtain ⟨keys, -, hok⟩ := keyTexts_ok hnone
    rw [hok] at hc
    cases hc
  · rintro ⟨f, hf, hrefused⟩
    cases hkeys : keyTexts r fs with
    | error c => exact ⟨c, rfl⟩
    | ok texts => exact absurd (accepts_of_keyTexts hkeys f hf) hrefused

theorem keyTexts_rejects (r : Resolver) (fs : List FieldIndex) :
    FailsWith (fun c => c.isConnection = false) (keyTexts r fs) := by
  induction fs with
  | nil => exact .ok _
  | cons f fs ih =>
    have hkey : FailsWith (fun c => c.isConnection = false) (f.keyText r) := by
      rw [FieldIndex.keyText_eq]
      exact (r.operand_rejects f.field).map
    exact hkey.bind fun _ => ih.bind fun _ => .ok _

end Keys

namespace PlainIndex

variable {r : Resolver} {p : PlainIndex} {table : String}

/-- The index has no meaning, or it has a field whose path is refused. -/
inductive Flawed (r : Resolver) : PlainIndex → Prop
  | unknown (typeName : String) : Flawed r (.unknown typeName)
  | field {p : PlainIndex} {unique : Bool} {fields : List FieldIndex} {f : FieldIndex} :
      p.Covers unique fields → f ∈ fields → ¬ r.Accepts f.field → Flawed r p

theorem Covers.statements_error_iff {unique : Bool} {fields : List FieldIndex}
    (hcovers : p.Covers unique fields) :
    (∃ c, p.createStatements table r = .error c) ↔ ∃ f ∈ fields, ¬ r.Accepts f.field := by
  rw [hcovers.createStatements_eq, ← keyTexts_error_iff]
  cases keyTexts r fields with
  | error c => simp [Except.map]
  | ok texts => simp [Except.map]

/-- An index is not created exactly if something of it is refused. -/
theorem createStatements_error_iff :
    (∃ c, p.createStatements table r = .error c) ↔ p.Flawed r := by
  constructor
  · intro h
    cases p with
    | unknown typeName => exact .unknown typeName
    | raw i =>
      obtain ⟨c, hc⟩ := h
      cases hc
    | field i =>
      obtain ⟨f, hf, hrefused⟩ := (Covers.field i).statements_error_iff.1 h
      exact .field (.field i) hf hrefused
    | multi i =>
      obtain ⟨f, hf, hrefused⟩ := (Covers.multi i).statements_error_iff.1 h
      exact .field (.multi i) hf hrefused
  · intro h
    cases h with
    | unknown typeName => exact ⟨_, rfl⟩
    | field hcovers hf hrefused => exact hcovers.statements_error_iff.2 ⟨_, hf, hrefused⟩

theorem createStatements_rejects (table : String) (r : Resolver) (p : PlainIndex) :
    FailsWith (fun c => c.isConnection = false) (p.createStatements table r) := by
  cases p with
  | unknown typeName => exact .error rfl
  | raw i => exact .ok _
  | field i =>
    rw [(Covers.field i).createStatements_eq]
    exact (keyTexts_rejects r _).map
  | multi i =>
    rw [(Covers.multi i).createStatements_eq]
    exact (keyTexts_rejects r _).map

end PlainIndex

namespace Index

variable {r : Resolver} {table schema : String} {g : Given Index}

/-- What is given cannot be created as an index: it is none, or something of it is refused. -/
def Uncreatable (r : Resolver) : Given Index → Prop
  | .node i => i.inner.Flawed (i.resolver r)
  | .value _ => True

theorem createStatementsOf_error_iff :
    (∃ c, createStatementsOf table r g = .error c) ↔ Uncreatable r g := by
  cases g with
  | value v => exact ⟨fun _ => trivial, fun _ => ⟨_, rfl⟩⟩
  | node i =>
    cases i with
    | plain p => exact PlainIndex.createStatements_error_iff
    | promoted p =>
      show (∃ c, (p.inner.createStatements table { promote := true } >>= _) = .error c) ↔ _
      rw [map_isError, PlainIndex.createStatements_error_iff]
      rfl

theorem createStatementsOf_rejects (table : String) (r : Resolver) (g : Given Index) :
    FailsWith (fun c => c.isConnection = false) (createStatementsOf table r g) := by
  cases g with
  | value v => exact .error rfl
  | node i =>
    cases i with
    | plain p => exact p.createStatements_rejects table r
    | promoted p => exact (p.inner.createStatements_rejects table _).bind fun _ => .ok _

/-- What is given cannot be dropped as an index: it has no name, or is none itself. -/
inductive Undroppable : Given Index → Prop
  | unnamed {i : Index} : i.name = none → Undroppable (.node i)
  | value {v : Value} :
      (∀ s, v = .str s → isIdentifier s.toList = false) → Undroppable (.value v)

/-- A text names an index if it is an identifier. -/
theorem nameOf_text (s : String) :
    (∃ name, nameOf (.value (.str s)) = .ok (some name)) ↔ isIdentifier s.toList = true := by
  unfold nameOf Identifier.ofText
  by_cases h : isIdentifier s.toList = true
  · simp [h, Except.map]
  · simp [h, Except.map]

/-- What is given names an index unless it cannot be dropped. -/
theorem nameOf_isSome_iff : (∃ name, nameOf g = .ok (some name)) ↔ ¬ Undroppable g := by
  cases g with
  | node i =>
    cases hname : i.name with
    | none =>
      have hundroppable : Undroppable (.node i) := .unnamed hname
      simp [nameOf, hname, hundroppable]
    | some n =>
      refine ⟨fun _ h => ?_, fun _ => ⟨n.text, by simp [nameOf, hname]⟩⟩
      cases h with
      | unnamed hnone =>
        rw [hname] at hnone
        cases hnone
  | value v =>
    cases v with
    | str s =>
      rw [nameOf_text]
      constructor
      · intro hs h
        cases h with
        | value hbad =>
          rw [hbad s rfl] at hs
          cases hs
      · intro h
        by_contra hs
        refine h (.value ?_)
        rintro s' hs'
        cases hs'
        exact Bool.eq_false_iff.2 hs
    | _ =>
      refine ⟨?_, fun h => absurd (.value (by simp)) h⟩
      rintro ⟨name, hname⟩
      cases hname

theorem dropStatementsOf_error_iff :
    (∃ c, dropStatementsOf table schema g = .error c) ↔ Undroppable g := by
  rw [← not_iff_not, ← nameOf_isSome_iff]
  unfold dropStatementsOf
  cases hname : nameOf g with
  | error c => simp [bind, Except.bind]
  | ok name =>
    cases name with
    | none => simp [bind, Except.bind, throw, throwThe, MonadExceptOf.throw]
    | some name => simp [bind, Except.bind, pure, Except.pure]

theorem nameOf_rejects (g : Given Index) :
    FailsWith (fun c => c.isConnection = false) (nameOf g) := by
  cases g with
  | node i => exact .ok _
  | value v =>
    cases v with
    | str s =>
      exact (Identifier.ofText_rejects _ _).map
    | _ => exact .ok _

theorem dropStatementsOf_rejects (table schema : String) (g : Given Index) :
    FailsWith (fun c => c.isConnection = false) (dropStatementsOf table schema g) := by
  refine (nameOf_rejects g).bind fun name => ?_
  cases name with
  | none => exact .error rfl
  | some name => exact .ok _

end Index

namespace Options

variable {o : Options} {table : String} {indexes : List (Given Index)}

/-- Of many indexes one that is refused is enough, wherever it stands among them. -/
theorem indexStatements_error_iff :
    (∃ c, o.indexStatements table indexes = .error c) ↔
      ∃ g ∈ indexes, Index.Uncreatable o.resolver g := by
  induction indexes with
  | nil => simp [indexStatements]
  | cons g rest ih =>
    rw [indexStatements, bind_isError fun _ => map_isError, ih,
      Index.createStatementsOf_error_iff]
    simp

theorem indexStatements_rejects (o : Options) (table : String) (indexes : List (Given Index)) :
    FailsWith (fun c => c.isConnection = false) (o.indexStatements table indexes) := by
  induction indexes with
  | nil => exact .ok _
  | cons g rest ih =>
    exact (Index.createStatementsOf_rejects table o.resolver g).bind fun _ =>
      ih.bind fun _ => .ok _

end Options

/-! ## Documents -/

/-- A name for a member that is no name for a column: a text that is no identifier, or no text. -/
def Key.Unfit (name : Key) : Prop := ∀ s, name = .str s → isIdentifier s.toList = false

/-- What is given is refused as a document. -/
inductive Document.Refused (promote : Bool) : Value → Prop
  /-- It is no mapping. -/
  | notMapping {v : Value} : (∀ es, v ≠ .mapping es) → Refused promote v
  /-- Its metadata is to be promoted and is no mapping. -/
  | metadata {es : Entries} {v : Value} : promote = true →
      Entries.get? es (.str metadataKey) = some v → v ≠ .null → (∀ members, v ≠ .mapping members) →
      Refused promote (.mapping es)
  /-- Something that stays in it has no form in JSON. -/
  | unwritable {es kept promoted : Entries} :
      Record.splitMetadata promote es = .ok (kept, promoted) → Json.Unwritable (.mapping kept) →
      Refused promote (.mapping es)
  /-- A member that is promoted has no name for a column. -/
  | name {es kept promoted : Entries} {k : Key} {v : Value} :
      Record.splitMetadata promote es = .ok (kept, promoted) → (k, v) ∈ promoted → k.Unfit →
      Refused promote (.mapping es)

namespace Record

variable {promote : Bool} {es : Entries} {k : Key} {v : Value}

theorem splitMetadata_error_iff :
    (∃ c, splitMetadata promote es = .error c) ↔ promote = true ∧
      ∃ v, Entries.get? es (.str metadataKey) = some v ∧ v ≠ .null ∧
        ∀ members, v ≠ .mapping members := by
  unfold splitMetadata
  cases promote with
  | false => simp
  | true =>
    cases Entries.get? es (.str metadataKey) with
    | none => simp
    | some v => cases v <;> simp

theorem splitMetadata_rejects (promote : Bool) (es : Entries) :
    FailsWith (fun c => c.isConnection = false) (splitMetadata promote es) := by
  unfold splitMetadata
  split
  · exact .ok _
  · exact .ok _
  · exact .error rfl
  · exact .ok _

theorem bodyOf_error_iff :
    (∃ x, bodyOf es = .error x) ↔ Json.Unwritable (.mapping es) := by
  rw [← Json.encode_isError_iff]
  unfold bodyOf encodeText
  cases Json.encode (.mapping es) <;> simp [Except.mapError]

theorem columnOf_error_iff : (∃ x, columnOf k = .error x) ↔ k.Unfit := by
  cases k with
  | str s =>
    have hfit : (Key.str s).Unfit ↔ isIdentifier s.toList = false := by simp [Key.Unfit]
    rw [hfit, ← Identifier.ofText_error_iff [("kind", .str "metadata column")]]
    show (∃ x, refuse (Identifier.ofText s _) = .error x) ↔ _
    cases Identifier.ofText s [("kind", .str "metadata column")] <;> simp [refuse]
  | null | bool | int | float | bytes | uuid | tuple =>
    refine ⟨fun _ s hs => (by cases hs), fun _ => ?_⟩
    -- no value but a text is an identifier, whether it counts as empty or not
    unfold columnOf Identifier.ofValue
    simp only [Key.toValue]
    split
    · exact ⟨_, rfl⟩
    · exact ⟨_, rfl⟩

theorem columnOf_rejects (k : Key) : FailsWith (fun x => x.isRejection = true) (columnOf k) := by
  unfold columnOf Identifier.ofValue
  split
  · refine FailsWith.refuse fun c hc => ?_
    simp [Error.isRejection, Identifier.ofText_rejects _ _ c hc]
  · split
    · exact .error rfl
    · exact .error rfl

/-- Of many promoted members one without a name for a column is enough, wherever it stands. -/
theorem columnsOf_error_iff :
    (∃ x, columnsOf es = .error x) ↔ ∃ e ∈ es, e.1.Unfit := by
  induction es with
  | nil => simp [columnsOf]
  | cons e es ih =>
    obtain ⟨k, v⟩ := e
    rw [columnsOf, bind_isError fun _ => map_isError, ih, columnOf_error_iff]
    simp

theorem columnsOf_rejects (es : Entries) :
    FailsWith (fun x => x.isRejection = true) (columnsOf es) := by
  induction es with
  | nil => exact .ok _
  | cons e es ih => exact (columnOf_rejects e.1).bind fun _ => ih.bind fun _ => .ok _

/-- A mapping has no record exactly if something of it is refused. -/
theorem ofDocument_mapping_error_iff :
    (∃ x, ofDocument promote (.mapping es) = .error x) ↔
      (∃ c, splitMetadata promote es = .error c) ∨ ∃ p, splitMetadata promote es = .ok p ∧
        (Json.Unwritable (.mapping p.1) ∨ ∃ e ∈ p.2, e.1.Unfit) := by
  have hrecord : ofDocument promote (.mapping es) = (do
      let p ← refuse (splitMetadata promote es)
      let body ← bodyOf p.1
      let columns ← columnsOf p.2
      pure ⟨body, columns⟩) := rfl
  rw [hrecord]
  cases splitMetadata promote es with
  | error c => exact ⟨fun _ => .inl ⟨c, rfl⟩, fun _ => ⟨_, rfl⟩⟩
  | ok p =>
    have hbehind := bind_isError (x := bodyOf p.1) fun body =>
      map_isError (x := columnsOf p.2) (f := Record.mk body)
    rw [bodyOf_error_iff, columnsOf_error_iff] at hbehind
    exact hbehind.trans (by simp)

/-- **A document has no record exactly if something of it is refused.** -/
theorem ofDocument_error_iff {document : Value} :
    (∃ x, ofDocument promote document = .error x) ↔ Document.Refused promote document := by
  constructor
  · intro h
    by_cases hmapping : ∃ es, document = .mapping es
    · obtain ⟨es, rfl⟩ := hmapping
      rcases ofDocument_mapping_error_iff.1 h with hsplit | ⟨⟨kept, promoted⟩, hsplit, hbad⟩
      · obtain ⟨hp, v, hget, hnull, hmembers⟩ := splitMetadata_error_iff.1 hsplit
        exact .metadata hp hget hnull hmembers
      · rcases hbad with hbad | ⟨e, he, hunfit⟩
        · exact .unwritable hsplit hbad
        · exact .name hsplit he hunfit
    · exact .notMapping fun es hes => hmapping ⟨es, hes⟩
  · intro h
    cases h with
    | notMapping hv =>
      cases document with
      | mapping es => exact absurd rfl (hv es)
      | _ => exact ⟨_, rfl⟩
    | metadata hp hget hnull hmembers =>
      exact ofDocument_mapping_error_iff.2
        (.inl (splitMetadata_error_iff.2 ⟨hp, _, hget, hnull, hmembers⟩))
    | unwritable hsplit hbad => exact ofDocument_mapping_error_iff.2 (.inr ⟨_, hsplit, .inl hbad⟩)
    | name hsplit hmem hunfit =>
      exact ofDocument_mapping_error_iff.2 (.inr ⟨_, hsplit, .inr ⟨_, hmem, hunfit⟩⟩)

theorem ofDocument_rejects (promote : Bool) (document : Value) :
    FailsWith (fun x => x.isRejection = true) (ofDocument promote document) := by
  have hofValue : FailsWith (fun c => c.isConnection = false) (Document.ofValue document) := by
    cases document with
    | mapping es => exact .ok _
    | _ => exact .error rfl
  have hbody : ∀ kept, FailsWith (fun x => x.isRejection = true) (bodyOf kept) := by
    intro kept
    exact misuse_rejects _
  refine (FailsWith.refuse fun c hc => ?_).bind fun es => ?_
  · simp [Error.isRejection, hofValue c hc]
  refine (FailsWith.refuse fun c hc => ?_).bind fun p => ?_
  · simp [Error.isRejection, splitMetadata_rejects promote es c hc]
  · exact (hbody p.1).bind fun _ => (columnsOf_rejects p.2).bind fun _ => .ok _

end Record

/-! ## Changes -/

namespace Change

variable {o : Options} {m : Change}

/-- Something of the change is refused. -/
def Refused (o : Options) : Change → Prop
  | addCollection _ indexes => ∃ g ∈ indexes, Index.Uncreatable o.resolver g
  | addIndex _ g => Index.Uncreatable o.resolver g
  | dropIndex _ g => Index.Undroppable g
  | addDoc _ _ document | updateDoc _ _ document | replaceDoc _ _ document =>
    Document.Refused o.promote document
  | updateMany _ filter document | replaceMany _ filter document =>
    Filter.Refused o.resolver filter ∨ Document.Refused o.promote document
  | deleteMany _ filter => Filter.Refused o.resolver filter
  | dropCollection _ | deleteDoc .. => False

/-- **A change of a named collection has no plan exactly if something of it is refused.** -/
theorem plan_error_iff (hm : ∃ name, m.collection = .str name) :
    (∃ x, m.plan o = .error x) ↔ m.Refused o := by
  cases m with
  | addCollection collection indexes =>
    obtain ⟨name, rfl⟩ := hm
    exact (map_isError.trans refuse_isError).trans Options.indexStatements_error_iff
  | addIndex collection g =>
    obtain ⟨name, rfl⟩ := hm
    exact (map_isError.trans refuse_isError).trans Index.createStatementsOf_error_iff
  | dropIndex collection g =>
    obtain ⟨name, rfl⟩ := hm
    -- the name that is asked for behind the statements is the one that they were made with
    have hname : (∃ x, refuse (Index.nameOf g) = .error x) → Index.Undroppable g := by
      intro h
      obtain ⟨c, hc⟩ := refuse_isError.1 h
      by_contra hdroppable
      obtain ⟨n, hn⟩ := Index.nameOf_isSome_iff.2 hdroppable
      rw [hc] at hn
      cases hn
    refine (bind_isError fun _ => map_isError).trans ?_
    rw [refuse_isError, Index.dropStatementsOf_error_iff]
    exact or_iff_left_of_imp hname
  | addDoc collection id document | updateDoc collection id document
  | replaceDoc collection id document =>
    obtain ⟨name, rfl⟩ := hm
    exact map_isError.trans Record.ofDocument_error_iff
  | updateMany collection filter document | replaceMany collection filter document =>
    obtain ⟨name, rfl⟩ := hm
    refine (bind_isError fun _ => ?_).trans (or_congr_left Filter.clauseOf_error_iff)
    exact map_isError.trans Record.ofDocument_error_iff
  | deleteMany collection filter =>
    obtain ⟨name, rfl⟩ := hm
    exact map_isError.trans Filter.clauseOf_error_iff
  | dropCollection collection =>
    obtain ⟨name, rfl⟩ := hm
    exact ⟨fun ⟨_, h⟩ => (by cases h), False.elim⟩
  | deleteDoc collection id =>
    obtain ⟨name, rfl⟩ := hm
    exact ⟨fun ⟨_, h⟩ => (by cases h), False.elim⟩

/-- A refusal of its parts is a refusal of the change. -/
theorem refuse_rejects {α : Type} {x : Except Cause α}
    (h : FailsWith (fun c => c.isConnection = false) x) :
    FailsWith (fun e => e.isRejection = true) (refuse x) := by
  refine FailsWith.refuse fun c hc => ?_
  simp [Error.isRejection, h c hc]

/-- **A change that has no plan is refused for what it is**, and not for the database. -/
theorem plan_rejects (o : Options) (m : Change) :
    FailsWith (fun e => e.isRejection = true) (m.plan o) := by
  have htable : ∀ collection, FailsWith (fun e => e.isRejection = true) (o.table collection) :=
    fun _ => misuse_rejects _
  have hmany : ∀ merge collection filter document, FailsWith (fun e => e.isRejection = true)
      (o.changeManyPlan merge collection filter document) := fun _ collection filter document =>
    (Filter.clauseOf_rejects o.resolver filter).bind fun _ =>
      (Record.ofDocument_rejects o.promote document).bind fun _ =>
        (htable collection).bind fun _ => .ok _
  cases m with
  | addCollection collection indexes =>
    refine (htable collection).bind fun table => FailsWith.bind ?_ fun _ =>
      (refuse_rejects (o.indexStatements_rejects table indexes)).bind fun _ => .ok _
    unfold Options.schemaOf?
    split
    · exact .ok _
    · exact .ok _
  | dropCollection collection => exact (htable collection).bind fun _ => .ok _
  | addIndex collection g =>
    exact (htable collection).bind fun table =>
      (refuse_rejects (Index.createStatementsOf_rejects table o.resolver g)).bind fun _ => .ok _
  | dropIndex collection g =>
    exact (misuse_rejects _).bind fun schema => (htable collection).bind fun table =>
      (refuse_rejects (Index.dropStatementsOf_rejects table schema g)).bind fun _ =>
        (refuse_rejects (Index.nameOf_rejects g)).bind fun _ => .ok _
  | addDoc collection id document | updateDoc collection id document
  | replaceDoc collection id document =>
    exact (Record.ofDocument_rejects o.promote document).bind fun _ =>
      (htable collection).bind fun _ => .ok _
  | updateMany collection filter document => exact hmany true collection filter document
  | replaceMany collection filter document => exact hmany false collection filter document
  | deleteDoc collection id => exact (htable collection).bind fun _ => .ok _
  | deleteMany collection filter =>
    exact (Filter.clauseOf_rejects o.resolver filter).bind fun _ =>
      (htable collection).bind fun _ => .ok _

end Change

end Docbase
