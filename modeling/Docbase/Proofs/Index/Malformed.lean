import Docbase.Proofs.Index.Levels
import Mathlib.Logic.Relation

/-!
# Malformed index data

Index data is read from the front to the back, and reading ends at the first place where something is
wrong. That may be a missing key, a type that is unknown, a part that is refused, or a place where a
mapping or something with elements is due and something else stands. All but the last are reported.

* `Index.Spot`: the places of index data; `Index.Spot.Next`: the places that reading gets to from one.
* `Index.Spot.Faulty`: what may be wrong at a place itself.
* `Index.Spot.fails_iff`: **reading fails exactly with what is wrong at the first place that it gets
  to**.
* `Index.ofData_reported`: **malformed data is reported, unless a place that reading gets to is
  misshapen**.
-/

namespace Docbase

open Sql Input

/-! ## Refused parts -/

/-- The cause is a part that a declaration does not accept. -/
def Cause.isOfPart : Cause → Bool
  | .invalidIdentifier .. | .invalidDirection _ | .noIndexFields | .noColumns | .nestedPromotion
  | .invalidColumnType _ => true
  | _ => false

/-- The error is about parts of a declaration: they have faults, or one is refused. -/
def Error.isOfPart : Error → Bool
  | .invalid _ => true
  | .refused c => c.isOfPart
  | _ => false

namespace Checked

variable {α β : Type}

/-- What a part is refused for, it is refused for as a part. -/
def Refusing (x : Checked α) : Prop := FailsWith (fun e => e.isOfPart = true) x.toExcept

namespace Refusing

theorem ok (a : α) : Refusing (Checked.ok a) := FailsWith.ok a

theorem fault (kind : FaultKind) : Refusing (Checked.fault kind : Checked α) := FailsWith.error rfl

/-- A check that follows another one. -/
theorem andThen {x : Checked α} {f : α → Checked β} (hx : x.Refusing) (hf : ∀ a, (f a).Refusing) :
    (x.andThen f).Refusing := by
  cases x with
  | ok a => exact hf a
  | faulty fs => exact FailsWith.error rfl
  | refused e => exact FailsWith.error (hx e rfl)

theorem map {x : Checked α} (f : α → β) (h : x.Refusing) : (x.map f).Refusing := by
  cases x with
  | ok a => exact ok (f a)
  | faulty fs => exact FailsWith.error rfl
  | refused e => exact FailsWith.error (h e rfl)

theorem named {x : Checked α} (name : String) (h : x.Refusing) : (x.named name).Refusing := by
  cases x with
  | ok a => exact ok a
  | faulty fs => exact FailsWith.error rfl
  | refused e => exact FailsWith.error (h e rfl)

theorem both {x : Checked α} {y : Checked β} (hx : x.Refusing) (hy : y.Refusing) :
    (x.both y).Refusing := by
  cases x with
  | refused e => exact FailsWith.error (hx e rfl)
  | ok a =>
    cases y with
    | ok b => exact ok (a, b)
    | faulty fs => exact FailsWith.error rfl
    | refused e => exact FailsWith.error (hy e rfl)
  | faulty fs =>
    -- a refusal counts before any faults, on whichever side it is
    cases y with
    | refused e => exact FailsWith.error (hy e rfl)
    | _ => exact FailsWith.error rfl

/-- A test that refuses a part. -/
theorem ofExcept {x : Except Cause α} (h : FailsWith (fun c => c.isOfPart = true) x) :
    (Checked.ofExcept (x.mapError .refused)).Refusing := by
  cases x with
  | ok a => exact ok a
  | error c => exact FailsWith.error (h c rfl)

end Refusing

end Checked

open Checked

/-! ## Parts of declarations -/

theorem Identifier.ofText_refuses (s : String) (context : List (String × Value)) :
    FailsWith (fun c => c.isOfPart = true) (Identifier.ofText s context) := by
  unfold Identifier.ofText
  split
  · exact .ok _
  · exact .error rfl

theorem readText_refuses (v : Value) : (Input.readText v).Refusing := by
  unfold Input.readText
  split
  · exact .ok _
  · split
    · exact .ok _
    · exact .fault _
  · exact .fault _

theorem boolOfText_refuses (s : String) : (boolOfText s).Refusing := by
  unfold boolOfText
  dsimp only
  split
  · exact .ok _
  · split
    · exact .ok _
    · exact .fault _

theorem boolOfInt_refuses (i : Int) : (boolOfInt i).Refusing := by
  unfold boolOfInt
  split
  · exact .ok _
  · split
    · exact .ok _
    · exact .fault _

theorem readBool_refuses (v : Value) : (readBool v).Refusing := by
  unfold readBool
  split
  · exact .ok _
  · split
    · exact boolOfInt_refuses _
    · exact .fault _
  · split
    · exact boolOfInt_refuses _
    · exact .fault _
  · exact boolOfText_refuses _
  · split
    · exact boolOfText_refuses _
    · exact .fault _
  · exact .fault _

theorem readIndexName_refuses (v : Value) : (readIndexName v).Refusing := by
  have htext : (readText? v).Refusing := by
    unfold readText?
    split
    · exact .ok _
    · exact (readText_refuses v).map _
  refine htext.andThen fun s => ?_
  cases s with
  | none => exact .ok _
  | some s => exact .ofExcept ((Identifier.ofText_refuses s _).map)

theorem Direction.read_refuses (v : Value) : (Direction.read v).Refusing := by
  refine (readText_refuses v).andThen fun s => .ofExcept ?_
  unfold Direction.ofValue
  dsimp only
  split
  · exact .ok _
  · split
    · exact .ok _
    · exact .error rfl

theorem FieldIndex.of_refuses (field direction unique name : Value) :
    (FieldIndex.of field direction unique name).Refusing :=
  (((readText_refuses field).named "field").both
    ((Direction.read_refuses direction).named "sort")).both
      (((readBool_refuses unique).named "unique").both ((readIndexName_refuses name).named "name"))
    |>.map _

theorem RawIndex.of_refuses (sql name : Value) : (RawIndex.of sql name).Refusing :=
  (((readText_refuses sql).named "sql").both ((readIndexName_refuses name).named "name")).map _

theorem MultiFieldIndex.of_refuses (fields : List GivenField) (unique name : Value) :
    FailsWith (fun e => e.isOfPart = true) (MultiFieldIndex.of fields unique name) := by
  have hread : ∀ f ∈ fields, FailsWith (fun e => e.isOfPart = true) f.read := by
    intro f _
    cases f with
    | node i => exact .ok i
    | value v => exact FieldIndex.of_refuses v _ _ _
  refine (FailsWith.mapM hread).bind fun fs => ?_
  have hfields : (checkFields fs).Refusing := by
    unfold checkFields
    split
    · exact .ok _
    · exact FailsWith.error rfl
  exact (hfields.both (((readBool_refuses unique).named "unique").both
    ((readIndexName_refuses name).named "name"))).map _

theorem Column.of_refuses (name type : Value) : (Column.of name type).Refusing := by
  have hname : ((Input.readText name).andThen fun s => Checked.ofExcept ((Identifier.ofText s
      [("kind", .str "metadata column")]).mapError .refused)).Refusing :=
    (readText_refuses name).andThen fun s => .ofExcept (Identifier.ofText_refuses s _)
  have htype : ((Input.readText type).andThen fun s =>
      Checked.ofExcept ((ColumnType.ofText s).mapError .refused)).Refusing := by
    refine (readText_refuses type).andThen fun s => .ofExcept ?_
    unfold ColumnType.ofText
    split
    · exact .ok _
    · exact .error rfl
  exact ((hname.named "name").both (htype.named "sql_type")).map _

theorem PromotedIndex.of_refuses (inner : Index) (columns : List Column) :
    (PromotedIndex.of (.node inner) columns).Refusing := by
  have hinner : (((Given.node inner).read .blank).andThen checkInner).Refusing := by
    refine (Refusing.ok inner).andThen fun i => ?_
    cases i with
    | plain p => exact .ok p
    | promoted p => exact FailsWith.error rfl
  have hcolumns : (checkColumns columns).Refusing := by
    unfold checkColumns
    split
    · exact .ok _
    · exact FailsWith.error rfl
  exact ((hinner.named "index").both hcolumns).map _

namespace Index

/-! ## Places of index data -/

/-- A place of index data: what is due there, and what stands there. -/
inductive Spot
  /-- The data of an index. -/
  | index (data : Value)
  /-- The fields of an index. -/
  | fields (v : Value)
  /-- One of the fields. -/
  | field (part : Value)
  /-- The columns that are promoted for an index. -/
  | columns (v : Value)
  /-- The data of one of the columns. -/
  | column (data : Value)

namespace Spot

/-- Reading what stands at the place fails. -/
def Fails : Spot → Error → Prop
  | index data, e => ofData data = .error e
  | fields v, e => fieldsOfData v = .error e
  | field part, e => fieldOfData part = .error e
  | columns v, e => columnsOfData v = .error e
  | column data, e => columnOfData data = .error e

/-- At the place stands neither what is due there nor anything that can be read for it. -/
def Misshapen : Spot → Prop
  | index data | column data => ∀ es, data ≠ .mapping es
  | fields v | columns v => v.elements? = none
  | field part => (∀ s, part ≠ .str s) ∧ ∀ es, part ≠ .mapping es

/-- The mapping at the place, of some type, lacks a key, the first of those that it lacks. -/
inductive Lacks : Spot → String → Value → Prop
  | index {es : Entries} {key : String} (h : FirstMissing es (neededKeys es) key) :
      Lacks (.index (.mapping es)) key ((Entries.get? es (.str "type")).getD .null)
  | column {es : Entries} {key : String} (h : FirstMissing es columnKeys key) :
      Lacks (.column (.mapping es)) key ((Entries.get? es (.str "type")).getD .null)

/-- The mapping at the place names a type that no index has. -/
inductive Unknown : Spot → Value → Prop
  | intro {es : Entries} {type : Value} (htype : Entries.get? es (.str "type") = some type)
      (h : UnknownType type) : Unknown (.index (.mapping es)) type

/-- All that is needed stands at the place, and the declaration does not accept it. -/
inductive Refused : Spot → Error → Prop
  | field {es : Entries} {v : Value} {e : Error}
      (htype : Entries.get? es (.str "type") = some (.str "field"))
      (hv : Entries.get? es (.str "field") = some v)
      (h : (FieldIndex.of v (statedDirection es) (statedUnique es) (statedName es)).toExcept =
        .error e) : Refused (.index (.mapping es)) e
  | raw {es : Entries} {v : Value} {e : Error}
      (htype : Entries.get? es (.str "type") = some (.str "raw_sql"))
      (hv : Entries.get? es (.str "sql") = some v)
      (h : (RawIndex.of v (statedName es)).toExcept = .error e) : Refused (.index (.mapping es)) e
  | multi {es : Entries} {v : Value} {fields : List GivenField} {e : Error}
      (htype : Entries.get? es (.str "type") = some (.str "multi_field"))
      (hv : Entries.get? es (.str "fields") = some v) (hfields : fieldsOfData v = .ok fields)
      (h : MultiFieldIndex.of fields (statedUnique es) (statedName es) = .error e) :
      Refused (.index (.mapping es)) e
  | promoted {es : Entries} {sub v : Value} {columns : List Column} {inner : Index} {e : Error}
      (htype : Entries.get? es (.str "type") = some (.str "metadata_column"))
      (hsub : Entries.get? es (.str "index") = some sub)
      (hv : Entries.get? es (.str "columns") = some v) (hcolumns : columnsOfData v = .ok columns)
      (hinner : ofData sub = .ok inner)
      (h : (PromotedIndex.of (.node inner) columns).toExcept = .error e) :
      Refused (.index (.mapping es)) e
  | column {es : Entries} {name type : Value} {e : Error}
      (hname : Entries.get? es (.str "name") = some name)
      (htype : Entries.get? es (.str "sql_type") = some type)
      (h : (Column.of name type).toExcept = .error e) : Refused (.column (.mapping es)) e

/-- Something is wrong at the place itself. -/
inductive Faulty : Spot → Error → Prop
  | misshapen {s : Spot} {m : Misuse} (h : s.Misshapen) (hfails : s.Fails (.misuse m)) :
      Faulty s (.misuse m)
  | lacking {s : Spot} {key : String} {type : Value} (h : s.Lacks key type) :
      Faulty s (.refused (.missingIndexKey key type))
  | unknown {s : Spot} {type : Value} (h : s.Unknown type) :
      Faulty s (.refused (.unknownIndex type))
  | refused {s : Spot} {e : Error} (h : s.Refused e) : Faulty s e

/-- Reading what stands at the first place gets to the second one: all that is read before is read
without an error. -/
inductive Next : Spot → Spot → Prop
  | fields {es : Entries} {v : Value}
      (htype : Entries.get? es (.str "type") = some (.str "multi_field"))
      (hv : Entries.get? es (.str "fields") = some v) : Next (.index (.mapping es)) (.fields v)
  | field {v part : Value} {before after : List Value}
      (hparts : v.elements? = some (before ++ part :: after))
      (hbefore : ∀ p ∈ before, ∀ e, fieldOfData p ≠ .error e) : Next (.fields v) (.field part)
  | data {es : Entries} : Next (.field (.mapping es)) (.index (.mapping (fieldEntries es)))
  | columns {es : Entries} {sub v : Value}
      (htype : Entries.get? es (.str "type") = some (.str "metadata_column"))
      (hsub : Entries.get? es (.str "index") = some sub)
      (hv : Entries.get? es (.str "columns") = some v) : Next (.index (.mapping es)) (.columns v)
  | column {v data : Value} {before after : List Value}
      (hparts : v.elements? = some (before ++ data :: after))
      (hbefore : ∀ p ∈ before, ∀ e, columnOfData p ≠ .error e) : Next (.columns v) (.column data)
  | inner {es : Entries} {sub v : Value} {columns : List Column}
      (htype : Entries.get? es (.str "type") = some (.str "metadata_column"))
      (hsub : Entries.get? es (.str "index") = some sub)
      (hv : Entries.get? es (.str "columns") = some v) (hcolumns : columnsOfData v = .ok columns) :
      Next (.index (.mapping es)) (.index sub)

variable {s t : Spot} {e : Error}

section Elements

variable {α : Type} {v part : Value} {f : Value → Except Error α}

/-- Elements are read up to the first that cannot be read. -/
theorem elements_fail {before after : List Value}
    (hparts : v.elements? = some (before ++ part :: after))
    (hbefore : ∀ p ∈ before, ∀ e, f p ≠ .error e) (h : f part = .error e) :
    (do let parts ← elementsOf v; parts.mapM f) = .error e :=
  (bind_ok (elementsOf_eq_ok.2 hparts)).trans
    (FirstFailure.mapM_iff.2 ⟨before, part, after, rfl, hbefore, h⟩)

/-- If elements cannot be read, there are none, or one of them is the first that cannot be read. -/
theorem elements_cases (h : (do let parts ← elementsOf v; parts.mapM f) = .error e) :
    v.elements? = none ∨ ∃ before part after, v.elements? = some (before ++ part :: after) ∧
      (∀ p ∈ before, ∀ e, f p ≠ .error e) ∧ f part = .error e := by
  cases hv : v.elements? with
  | none => exact .inl rfl
  | some parts =>
    rw [bind_ok (elementsOf_eq_ok.2 hv)] at h
    obtain ⟨before, part, after, rfl, hbefore, hpart⟩ := FirstFailure.mapM_iff.1 h
    exact .inr ⟨before, part, after, rfl, hbefore, hpart⟩

end Elements

/-- Whatever stands at a misshapen place cannot be read. -/
theorem Misshapen.fails (h : s.Misshapen) : ∃ m, s.Fails (.misuse m) := by
  cases s with
  | index data =>
    obtain ⟨m, hm⟩ := ofDataWithin_notMapping h
    exact ⟨m, hm _⟩
  | fields v | columns v =>
    refine ⟨.wrongType, bind_error ?_⟩
    unfold elementsOf
    rw [show v.elements? = none from h]
  | field part =>
    cases part with
    | str s => exact absurd rfl (h.1 s)
    | mapping es => exact absurd rfl (h.2 es)
    | _ => exact ⟨.wrongType, rfl⟩
  | column data => exact columnOfData_notMapping h

/-- **What is wrong at a place is what reading it fails with.** -/
theorem Faulty.fails (h : s.Faulty e) : s.Fails e := by
  cases h with
  | misshapen h hfails => exact hfails
  | lacking h =>
    cases h with
    | index h => exact ofDataWithin_lacking h
    | column h => exact columnOfData_lacking h
  | unknown h =>
    obtain ⟨htype, h⟩ := h
    exact ofDataWithin_unknown htype h
  | refused h =>
    cases h with
    | field htype hv h => exact (ofDataWithin_ofField htype hv).trans (bind_error h)
    | raw htype hv h => exact (ofDataWithin_ofRaw htype hv).trans (bind_error h)
    | multi htype hv hfields h =>
      show ofData (.mapping _) = _
      rw [ofData_multi htype hv, bind_ok hfields, bind_error h]
    | promoted htype hsub hv hcolumns hinner h =>
      show ofData (.mapping _) = _
      rw [ofData_promoted htype hsub hv, bind_ok hcolumns, bind_ok hinner, bind_error h]
    | column hname htype h => exact (columnOfData_given hname htype).trans h

/-- **What a place fails with that reading gets to is what reading fails with before it.** -/
theorem Next.fails (h : s.Next t) (ht : t.Fails e) : s.Fails e := by
  cases h with
  | fields htype hv => exact (ofData_multi htype hv).trans (bind_error ht)
  | field hparts hbefore => exact elements_fail hparts hbefore ht
  | data => exact (fieldOfData_mapping _).trans (bind_error ht)
  | columns htype hsub hv => exact (ofData_promoted htype hsub hv).trans (bind_error ht)
  | column hparts hbefore => exact elements_fail hparts hbefore ht
  | inner htype hsub hv hcolumns =>
    show ofData (.mapping _) = _
    rw [ofData_promoted htype hsub hv, bind_ok hcolumns, bind_error ht]

theorem Fails.unique {e' : Error} (h : s.Fails e) (h' : s.Fails e') : e = e' := by
  cases s with
  | index | fields | field | columns | column => exact Except.error.inj (h.symm.trans h')

theorem Misshapen.faulty (h : s.Misshapen) (hfails : s.Fails e) : s.Faulty e := by
  obtain ⟨m, hm⟩ := h.fails
  obtain rfl := hfails.unique hm
  exact .misshapen h hm

/-- **Reading a place fails with what is wrong at it, or with what a place fails with that it gets
to.** -/
theorem Fails.cases (h : s.Fails e) : s.Faulty e ∨ ∃ t, s.Next t ∧ t.Fails e := by
  cases s with
  | index data =>
    by_cases hmapping : ∃ es, data = .mapping es
    · obtain ⟨es, rfl⟩ := hmapping
      have hdata : ofData (.mapping es) = .error e := h
      -- columns come before the index that they are promoted for, fields before their index
      cases form es with
      | lacking hlacks =>
        rw [ofData, ofDataWithin_lacking hlacks] at hdata
        cases hdata
        exact .inl (.lacking (.index hlacks))
      | unknown htype hunknown =>
        rw [ofData, ofDataWithin_unknown htype hunknown] at hdata
        cases hdata
        exact .inl (.unknown ⟨htype, hunknown⟩)
      | field htype hv =>
        rw [ofData, ofDataWithin_ofField htype hv, map_eq_error] at hdata
        exact .inl (.refused (.field htype hv hdata))
      | raw htype hv =>
        rw [ofData, ofDataWithin_ofRaw htype hv, map_eq_error] at hdata
        exact .inl (.refused (.raw htype hv hdata))
      | multi htype hv =>
        rw [ofData_multi htype hv, bind_eq_error] at hdata
        rcases hdata with hfields | ⟨fields, hfields, hindex⟩
        · exact .inr ⟨.fields _, .fields htype hv, hfields⟩
        · exact .inl (.refused (.multi htype hv hfields (map_eq_error.1 hindex)))
      | promoted htype hsub hv =>
        rw [ofData_promoted htype hsub hv, bind_eq_error] at hdata
        rcases hdata with hcolumns | ⟨columns, hcolumns, hdata⟩
        · exact .inr ⟨.columns _, .columns htype hsub hv, hcolumns⟩
        rcases bind_eq_error.1 hdata with hinner | ⟨inner, hinner, hindex⟩
        · exact .inr ⟨.index _, .inner htype hsub hv hcolumns, hinner⟩
        · exact .inl (.refused (.promoted htype hsub hv hcolumns hinner (map_eq_error.1 hindex)))
    · exact .inl (Misshapen.faulty (fun es hes => hmapping ⟨es, hes⟩) h)
  | fields v =>
    rcases elements_cases h with hnone | ⟨before, part, after, hparts, hbefore, hpart⟩
    · exact .inl (Misshapen.faulty hnone h)
    · exact .inr ⟨.field part, .field hparts hbefore, hpart⟩
  | columns v =>
    rcases elements_cases h with hnone | ⟨before, data, after, hparts, hbefore, hdata⟩
    · exact .inl (Misshapen.faulty hnone h)
    · exact .inr ⟨.column data, .column hparts hbefore, hdata⟩
  | field part =>
    cases part with
    | str s => cases h
    | mapping es =>
      have hdata : fieldOfData (.mapping es) = .error e := h
      rw [fieldOfData_mapping, map_eq_error] at hdata
      exact .inr ⟨.index _, .data, hdata⟩
    | _ => exact .inl (Misshapen.faulty ⟨by simp, by simp⟩ h)
  | column data =>
    by_cases hmapping : ∃ es, data = .mapping es
    · obtain ⟨es, rfl⟩ := hmapping
      have hdata : columnOfData (.mapping es) = .error e := h
      rcases firstMissing_or es columnKeys with ⟨key, hlacks⟩ | hkeys
      · rw [columnOfData_lacking hlacks] at hdata
        cases hdata
        exact .inl (.lacking (.column hlacks))
      · obtain ⟨name, hname⟩ := hkeys "name" (by simp [columnKeys])
        obtain ⟨type, htype⟩ := hkeys "sql_type" (by simp [columnKeys])
        rw [columnOfData_given hname htype] at hdata
        exact .inl (.refused (.column hname htype hdata))
    · exact .inl (Misshapen.faulty (fun es hes => hmapping ⟨es, hes⟩) h)

/-! ## What reading gets to -/

/-- Going on from place to place, the data that is left gets smaller. -/
def size : Spot → Nat
  | index data => 3 * data.depth
  | fields v | columns v => 3 * v.depth + 2
  | field (.mapping es) => 3 * (Value.mapping es).depth + 1
  | field _ | column _ => 0

theorem Next.size_lt (h : s.Next t) : t.size < s.size := by
  cases h with
  | fields htype hv =>
    have hlt := depth_get?_lt hv
    simp only [size]
    omega
  | columns htype hsub hv =>
    have hlt := depth_get?_lt hv
    simp only [size]
    omega
  | inner htype hsub hv hcolumns =>
    have hlt := depth_get?_lt hsub
    simp only [size]
    omega
  | data =>
    have hle := depth_fieldEntries ‹_›
    simp only [size]
    omega
  | column hparts hbefore =>
    simp only [size]
    omega
  | @field v part before after hparts hbefore =>
    cases part with
    | mapping es =>
      have hlt := Value.depth_mapping_lt hparts (List.mem_append_right _ List.mem_cons_self)
      simp only [size]
      omega
    | _ =>
      simp only [size]
      omega

/-- **Reading a place fails exactly with what is wrong at a place that it gets to.** -/
theorem fails_iff : s.Fails e ↔ ∃ t, Relation.ReflTransGen Next s t ∧ t.Faulty e := by
  constructor
  · -- as long as the place is not at fault itself, there is a smaller one that fails alike
    intro h
    induction hsize : s.size using Nat.strongRecOn generalizing s with
    | ind n ih =>
      rcases h.cases with hfaulty | ⟨t, hnext, ht⟩
      · exact ⟨s, .refl, hfaulty⟩
      · have hlt := hnext.size_lt
        obtain ⟨u, hu, hfaulty⟩ := ih t.size (by omega) ht rfl
        exact ⟨u, .head hnext hu, hfaulty⟩
  · -- from the place at fault back to the one where reading began
    rintro ⟨t, hreached, hfaulty⟩
    induction hreached using Relation.ReflTransGen.head_induction_on with
    | refl => exact hfaulty.fails
    | head hnext _ ih => exact hnext.fails ih

/-! ## What is told apart -/

/-- A declaration that does not accept its parts says so. -/
theorem Refused.isOfPart (h : s.Refused e) : e.isOfPart = true := by
  cases h with
  | field htype hv h => exact FieldIndex.of_refuses _ _ _ _ _ h
  | raw htype hv h => exact RawIndex.of_refuses _ _ _ h
  | multi htype hv hfields h => exact MultiFieldIndex.of_refuses _ _ _ _ h
  | promoted htype hsub hv hcolumns hinner h => exact PromotedIndex.of_refuses _ _ _ h
  | column hname htype h => exact Column.of_refuses _ _ _ h

/-- Reading meets a value that it has no meaning for exactly at a misshapen place. -/
theorem fails_misuse_iff :
    (∃ m, s.Fails (.misuse m)) ↔ ∃ t, Relation.ReflTransGen Next s t ∧ t.Misshapen := by
  constructor
  · rintro ⟨m, h⟩
    obtain ⟨t, hreached, hfaulty⟩ := fails_iff.1 h
    cases hfaulty with
    | misshapen h hfails => exact ⟨t, hreached, h⟩
    | refused h => cases h.isOfPart
  · rintro ⟨t, hreached, h⟩
    obtain ⟨m, hm⟩ := h.fails
    exact ⟨m, fails_iff.2 ⟨t, hreached, .misshapen h hm⟩⟩

/-- Reading asks for a key in vain exactly at a place that lacks it. -/
theorem fails_missing_iff {key : String} {type : Value} :
    s.Fails (.refused (.missingIndexKey key type)) ↔
      ∃ t, Relation.ReflTransGen Next s t ∧ t.Lacks key type := by
  constructor
  · intro h
    obtain ⟨t, hreached, hfaulty⟩ := fails_iff.1 h
    cases hfaulty with
    | lacking h => exact ⟨t, hreached, h⟩
    | refused h => cases h.isOfPart
  · rintro ⟨t, hreached, h⟩
    exact fails_iff.2 ⟨t, hreached, .lacking h⟩

/-- Reading meets a type that no index has exactly at a place that names it. -/
theorem fails_unknown_iff {type : Value} :
    s.Fails (.refused (.unknownIndex type)) ↔
      ∃ t, Relation.ReflTransGen Next s t ∧ t.Unknown type := by
  constructor
  · intro h
    obtain ⟨t, hreached, hfaulty⟩ := fails_iff.1 h
    cases hfaulty with
    | unknown h => exact ⟨t, hreached, h⟩
    | refused h => cases h.isOfPart
  · rintro ⟨t, hreached, h⟩
    exact fails_iff.2 ⟨t, hreached, .unknown h⟩

end Spot

/-! ## Reported errors -/

/-- What malformed data is reported as: faults of parts, or an error of one of three categories. -/
def isReport : Error → Bool
  | .invalid _ => true
  | .refused c =>
    [Category.invalidArgument, .invalidField, .unsupportedIndex].contains c.report.category
  | _ => false

theorem isReport_of_part {e : Error} (h : e.isOfPart = true) : isReport e = true := by
  cases e with
  | invalid fs => rfl
  | refused c => cases c <;> first | rfl | cases h
  | notAFilter | engine | misuse => cases h

/-- Whatever is wrong at a place is reported, unless the place is misshapen. -/
theorem Spot.Faulty.isReport {s : Spot} {e : Error} (h : s.Faulty e) :
    isReport e = true ∨ s.Misshapen := by
  cases h with
  | misshapen h => exact .inr h
  | lacking h => exact .inl rfl
  | unknown h => exact .inl rfl
  | refused h => exact .inl (isReport_of_part h.isOfPart)

/-- Reading the data gets to the place. -/
def Reached (data : Value) (s : Spot) : Prop := Relation.ReflTransGen Spot.Next (.index data) s

/-- **What comes of index data.** Reading comes to an end after the levels of the data. It gives a
declaration or a report unless it gets to a misshapen place, and only then. A key that is missing at
a place that it gets to is named in an invalid argument, and a type that is unknown there is an
unsupported index. -/
theorem ofData_reported (es : Entries) :
    (∀ n, (Value.mapping es).depth < n → ofDataWithin n (.mapping es) = ofData (.mapping es)) ∧
      (((∃ i, ofData (.mapping es) = .ok i) ∨
          ∃ e, ofData (.mapping es) = .error e ∧ isReport e = true) ↔
        ∀ s, Reached (.mapping es) s → ¬ s.Misshapen) ∧
      (∀ s key type, Reached (.mapping es) s → s.Lacks key type →
        ∃ c : Cause, ofData (.mapping es) = .error (.refused c) ∧
          c.report.category = .invalidArgument ∧ ("key", .str key) ∈ c.report.details) ∧
      ∀ s type, Reached (.mapping es) s → s.Unknown type →
        ∃ c : Cause, ofData (.mapping es) = .error (.refused c) ∧
          c.report.category = .unsupportedIndex := by
  refine ⟨fun n hn => ofDataWithin_eq hn, ⟨?_, ?_⟩, ?_, ?_⟩
  · intro hreported s hreached hmisshapen
    obtain ⟨m, hm⟩ := Spot.fails_misuse_iff.2 ⟨s, hreached, hmisshapen⟩
    have hdata : ofData (.mapping es) = .error (.misuse m) := hm
    rcases hreported with ⟨i, hi⟩ | ⟨e, he, hreport⟩
    · cases hdata.symm.trans hi
    · cases hdata.symm.trans he
      cases hreport
  · intro hshapes
    cases hdata : ofData (.mapping es) with
    | ok i => exact .inl ⟨i, rfl⟩
    | error e =>
      have hfails : (Spot.index (.mapping es)).Fails e := hdata
      obtain ⟨s, hreached, hfaulty⟩ := Spot.fails_iff.1 hfails
      rcases hfaulty.isReport with hreport | hmisshapen
      · exact .inr ⟨e, rfl, hreport⟩
      · exact absurd hmisshapen (hshapes s hreached)
  · intro s key type hreached hlacks
    exact ⟨_, Spot.fails_missing_iff.2 ⟨s, hreached, hlacks⟩, rfl, by simp [Cause.report]⟩
  · intro s type hreached hunknown
    exact ⟨_, Spot.fails_unknown_iff.2 ⟨s, hreached, hunknown⟩, rfl⟩

/-- A field without a name, deep in the data of an index, is reported. -/
theorem ofData_reported_nameless :
    ∃ c : Cause, ofData (.mapping [(.str "type", .str "metadata_column"),
        (.str "index", .mapping [(.str "type", .str "multi_field"),
          (.str "fields", .list [.str "age", .mapping [(.str "sort", .str "DESC")]])]),
        (.str "columns", .list [.mapping [(.str "name", .str "version"),
          (.str "sql_type", .str "INTEGER")]])]) = .error (.refused c) ∧
      c.report.category = .invalidArgument ∧ ("key", .str "field") ∈ c.report.details := by
  have hlacks : Spot.Lacks (.index (.mapping (fieldEntries [(.str "sort", .str "DESC")]))) "field"
      (.str "field") :=
    .index (firstMissing_cons.2 (.inr ⟨⟨_, rfl⟩, firstMissing_singleton.2 ⟨rfl, rfl⟩⟩))
  have hfield : Spot.Next (.fields (.list [.str "age", .mapping [(.str "sort", .str "DESC")]]))
      (.field (.mapping [(.str "sort", .str "DESC")])) :=
    .field (show _ = some ([.str "age"] ++ _ :: []) from rfl) (by simp [fieldOfData_text])
  -- from the index to the one that it holds, to its fields, and to the second one of them
  exact (ofData_reported _).2.2.1 _ "field" _
    (.tail (.tail (.tail (.tail .refl (.inner rfl rfl rfl rfl)) (.fields rfl rfl)) hfield) .data)
    hlacks

/-- A number where the fields are due, or a text where an index is due, is no report. -/
theorem ofData_misshapen :
    ofData (.mapping [(.str "type", .str "multi_field"), (.str "fields", .int 5)]) =
        .error (.misuse .wrongType) ∧
      ofData (.mapping [(.str "type", .str "metadata_column"), (.str "index", .str "age"),
        (.str "columns", .list [])]) = .error (.misuse .missingAttribute) ∧
      ∀ m, isReport (.misuse m) = false :=
  ⟨rfl, rfl, fun _ => rfl⟩

end Index

end Docbase
