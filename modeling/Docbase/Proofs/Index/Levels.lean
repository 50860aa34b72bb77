import Docbase.Proofs.Index.RoundTrip

/-!
# Reading index data without counting levels

Index data is read with a bound on the levels that reading may go down. The data has fewer levels than
that, so the bound is never met, and what is read of a mapping can be said by what is read of the
mappings inside of it.

* `Index.ofDataWithin_eq`: **any bound above the depth of the data gives the same**.
* `Index.Form`: what a mapping is as index data; `Index.form`: every mapping is one of these.
* `Index.fieldOfData`: what is read as a field of a larger index.
* `Index.ofData_multi`, `Index.ofData_promoted`: what is read of data that holds other data.
-/

namespace Docbase

open Sql

/-! ## Depth -/

namespace Value

theorem depth_le_depthAll {vs : List Value} {v : Value} (h : v ∈ vs) : v.depth ≤ depthAll vs := by
  induction vs with
  | nil => exact absurd h List.not_mem_nil
  | cons w vs ih =>
    rw [depthAll]
    rcases List.mem_cons.1 h with rfl | h
    · exact Nat.le_max_left _ _
    · have hle := ih h
      omega

/-- A mapping among the elements of a value is one of the items of a list. -/
theorem depth_mapping_lt {v : Value} {parts : List Value} {es : Entries}
    (hparts : v.elements? = some parts) (hes : .mapping es ∈ parts) :
    (mapping es).depth < v.depth := by
  cases v with
  | list vs | tuple vs =>
    cases hparts
    exact Nat.lt_succ_of_le (depth_le_depthAll hes)
  | mapping entries =>
    -- the names of members are no mappings
    cases hparts
    obtain ⟨⟨k, w⟩, -, hk⟩ := List.mem_map.1 hes
    cases k <;> cases hk
  | str s =>
    cases hparts
    obtain ⟨c, -, hc⟩ := List.mem_map.1 hes
    cases hc
  | bytes bs =>
    cases hparts
    obtain ⟨b, -, hb⟩ := List.mem_map.1 hes
    cases hb
  | node kind ps =>
    cases hparts
    obtain ⟨p, -, hp⟩ := List.mem_map.1 hes
    cases hp
  | _ => cases hparts

end Value

namespace Index

variable {es : Entries} {n : Nat}

/-! ## Members of the data -/

section Members

variable {key : String} {v : Value}

theorem requireKey_given (h : Entries.get? es (.str key) = some v) :
    requireKey (.mapping es) key = .ok () := by
  simp [requireKey, Value.holds, Entries.has, h]

theorem requireKey_missing (h : Entries.get? es (.str key) = none) :
    requireKey (.mapping es) key = .error (.refused (.missingIndexKey key
      ((Entries.get? es (.str "type")).getD .null))) := by
  simp [requireKey, Value.holds, Entries.has, h]

theorem memberOf_given (h : Entries.get? es (.str key) = some v) :
    memberOf (.mapping es) key = .ok v := by
  simp [memberOf, Value.member, h, Except.mapError]

/-- A mapping is deeper than what it has under a name. -/
theorem depth_get?_lt {k : Key} (h : Entries.get? es k = some v) :
    v.depth < (Value.mapping es).depth := by
  induction es with
  | nil => cases h
  | cons e es ih =>
    obtain ⟨k₀, v₀⟩ := e
    rw [Entries.get?] at h
    split at h
    · cases h
      exact depth_member_lt List.mem_cons_self
    · have hlt := ih h
      rw [Value.depth, Value.depthEntries] at *
      omega

end Members

/-! ## Levels -/

theorem depthEntries_put (es : Entries) (k : Key) (v : Value) :
    Value.depthEntries (Entries.put es k v) ≤ max (Value.depthEntries es) v.depth := by
  induction es with
  | nil => simp [Entries.put, Value.depthEntries]
  | cons e es ih =>
    obtain ⟨k₀, v₀⟩ := e
    rw [Entries.put]
    split
    · simp only [Value.depthEntries]
      omega
    · simp only [Value.depthEntries]
      omega

theorem depthEntries_merge (es more : Entries) :
    Value.depthEntries (Entries.merge es more) ≤
      max (Value.depthEntries es) (Value.depthEntries more) := by
  induction more generalizing es with
  | nil => exact Nat.le_max_left _ _
  | cons e more ih =>
    obtain ⟨k, v⟩ := e
    have hput := depthEntries_put es k v
    have hmerge := ih (Entries.put es k v)
    simp only [Entries.merge, List.foldl_cons, Value.depthEntries] at hmerge ⊢
    omega

/-- The members of the data of a field, its type being taken for granted. -/
def fieldEntries (es : Entries) : Entries := Entries.merge [(.str "type", .str "field")] es

/-- The type that is taken for granted does not make the data of a field any deeper. -/
theorem depth_fieldEntries (es : Entries) :
    (Value.mapping (fieldEntries es)).depth ≤ (Value.mapping es).depth := by
  have hmerge := depthEntries_merge [(.str "type", .str "field")] es
  simp only [fieldEntries, Value.depth, Value.depthEntries] at hmerge ⊢
  omega

/-! ## One level -/

section Level

variable {data v sub : Value} {parts : List Value}

/-- The direction of a field in its data. -/
def statedDirection (es : Entries) : Value := memberD (.mapping es) "sort" (.str Direction.asc.text)

/-- What the data says about uniqueness: anything that is not empty says that it holds. -/
def statedUnique (es : Entries) : Value :=
  .bool (memberD (.mapping es) "unique" (.bool false)).truthy

/-- The name of an index in its data. -/
def statedName (es : Entries) : Value := memberD (.mapping es) "name" .null

/-- The keys that a type of index needs beside its type, in the order in which they are asked for. -/
def requiredKeys : Value → List String
  | .str "field" => ["field"]
  | .str "multi_field" => ["fields"]
  | .str "raw_sql" => ["sql"]
  | .str "metadata_column" => ["index", "columns"]
  | _ => []

/-- The keys that index data needs. -/
def neededKeys (es : Entries) : List String :=
  "type" :: requiredKeys ((Entries.get? es (.str "type")).getD .null)

/-- Of some keys the first that is missing. -/
def FirstMissing (es : Entries) (keys : List String) (key : String) : Prop :=
  FirstFailure (fun k missing => Entries.get? es (.str k) = none ∧ missing = k) keys key

/-- The refusal of data without a key. -/
def missingKey (es : Entries) (key : String) : Error :=
  .refused (.missingIndexKey key ((Entries.get? es (.str "type")).getD .null))

/-- No type of index has the name. -/
def UnknownType (type : Value) : Prop :=
  type ≠ .str "field" ∧ type ≠ .str "multi_field" ∧ type ≠ .str "raw_sql" ∧
    type ≠ .str "metadata_column"

/-- The first missing key is there to be asked for. -/
theorem firstMissing_cons {k key : String} {keys : List String} :
    FirstMissing es (k :: keys) key ↔ (Entries.get? es (.str k) = none ∧ key = k) ∨
      (∃ v, Entries.get? es (.str k) = some v) ∧ FirstMissing es keys key := by
  unfold FirstMissing
  rw [FirstFailure.cons_iff]
  cases Entries.get? es (.str k) <;> simp

theorem firstMissing_singleton {k key : String} :
    FirstMissing es [k] key ↔ Entries.get? es (.str k) = none ∧ key = k :=
  FirstFailure.singleton_iff

/-- What a mapping is as index data: it lacks a key, its type is unknown, or it has all that its type
needs. -/
inductive Form (es : Entries) : Prop
  | lacking {key : String} (h : FirstMissing es (neededKeys es) key)
  | unknown {type : Value} (htype : Entries.get? es (.str "type") = some type) (h : UnknownType type)
  | field {v : Value} (htype : Entries.get? es (.str "type") = some (.str "field"))
      (hv : Entries.get? es (.str "field") = some v)
  | raw {v : Value} (htype : Entries.get? es (.str "type") = some (.str "raw_sql"))
      (hv : Entries.get? es (.str "sql") = some v)
  | multi {v : Value} (htype : Entries.get? es (.str "type") = some (.str "multi_field"))
      (hv : Entries.get? es (.str "fields") = some v)
  | promoted {sub v : Value} (htype : Entries.get? es (.str "type") = some (.str "metadata_column"))
      (hsub : Entries.get? es (.str "index") = some sub)
      (hv : Entries.get? es (.str "columns") = some v)

/-- Either some of the keys are missing, or all of them are there. -/
theorem firstMissing_or (es : Entries) (keys : List String) :
    (∃ key, FirstMissing es keys key) ∨ ∀ k ∈ keys, ∃ v, Entries.get? es (.str k) = some v := by
  induction keys with
  | nil => exact .inr (by simp)
  | cons k keys ih =>
    cases hk : Entries.get? es (.str k) with
    | none => exact .inl ⟨k, firstMissing_cons.2 (.inl ⟨hk, rfl⟩)⟩
    | some v =>
      rcases ih with ⟨key, h⟩ | h
      · exact .inl ⟨key, firstMissing_cons.2 (.inr ⟨⟨v, hk⟩, h⟩)⟩
      · exact .inr (List.forall_mem_cons.2 ⟨⟨v, hk⟩, h⟩)

/-- **Every mapping has one of the forms.** -/
theorem form (es : Entries) : Form es := by
  rcases firstMissing_or es (neededKeys es) with ⟨key, h⟩ | h
  · exact .lacking h
  obtain ⟨⟨type, htype⟩, hkeys⟩ := List.forall_mem_cons.1 h
  rw [htype, Option.getD_some] at hkeys
  unfold requiredKeys at hkeys
  split at hkeys
  · obtain ⟨v, hv⟩ := hkeys "field" (by simp)
    exact .field htype hv
  · obtain ⟨v, hv⟩ := hkeys "fields" (by simp)
    exact .multi htype hv
  · obtain ⟨v, hv⟩ := hkeys "sql" (by simp)
    exact .raw htype hv
  · obtain ⟨sub, hsub⟩ := hkeys "index" (by simp)
    obtain ⟨v, hv⟩ := hkeys "columns" (by simp)
    exact .promoted htype hsub hv
  case h_5 hfield hmulti hraw hpromoted => exact .unknown htype ⟨hfield, hmulti, hraw, hpromoted⟩

/-- The type is asked for before anything else. -/
theorem ofDataWithin_typeless (h : Entries.get? es (.str "type") = none) :
    ofDataWithin (n + 1) (.mapping es) = .error (missingKey es "type") :=
  bind_error (requireKey_missing h)

/-- The keys are asked for in their order, and the first that is missing ends it. -/
theorem ofDataWithin_lacking {key : String} (h : FirstMissing es (neededKeys es) key) :
    ofDataWithin (n + 1) (.mapping es) = .error (missingKey es key) := by
  rcases firstMissing_cons.1 h with ⟨htype, rfl⟩ | ⟨⟨type, htype⟩, h⟩
  · exact ofDataWithin_typeless htype
  · -- the type says which keys are asked for next
    rw [htype, Option.getD_some] at h
    rw [ofDataWithin, requireKey_given htype, memberOf_given htype]
    simp only [bind, Except.bind]
    unfold requiredKeys at h
    split at h
    · obtain ⟨hkey, rfl⟩ := firstMissing_singleton.1 h
      rw [requireKey_missing hkey]
      rfl
    · obtain ⟨hkey, rfl⟩ := firstMissing_singleton.1 h
      rw [requireKey_missing hkey]
      rfl
    · obtain ⟨hkey, rfl⟩ := firstMissing_singleton.1 h
      rw [requireKey_missing hkey]
      rfl
    · rcases firstMissing_cons.1 h with ⟨hkey, rfl⟩ | ⟨⟨v, hv⟩, h⟩
      · rw [requireKey_missing hkey]
        rfl
      · obtain ⟨hkey, rfl⟩ := firstMissing_singleton.1 h
        rw [requireKey_given hv, requireKey_missing hkey]
        rfl
    · exact absurd h FirstFailure.not_nil

theorem ofDataWithin_unknown {type : Value} (htype : Entries.get? es (.str "type") = some type)
    (h : UnknownType type) :
    ofDataWithin (n + 1) (.mapping es) = .error (.refused (.unknownIndex type)) := by
  obtain ⟨hfield, hmulti, hraw, hpromoted⟩ := h
  rw [ofDataWithin, requireKey_given htype, memberOf_given htype]
  simp only [bind, Except.bind]
  rfl

theorem ofDataWithin_ofField (htype : Entries.get? es (.str "type") = some (.str "field"))
    (hv : Entries.get? es (.str "field") = some v) :
    ofDataWithin (n + 1) (.mapping es) = (do
      let index ← (FieldIndex.of v (statedDirection es) (statedUnique es) (statedName es)).toExcept
      pure (.plain (.field index))) := by
  rw [ofDataWithin, requireKey_given htype, memberOf_given htype]
  simp only [bind, Except.bind]
  rw [requireKey_given hv, memberOf_given hv]
  rfl

theorem ofDataWithin_ofRaw (htype : Entries.get? es (.str "type") = some (.str "raw_sql"))
    (hv : Entries.get? es (.str "sql") = some v) :
    ofDataWithin (n + 1) (.mapping es) = (do
      let index ← (RawIndex.of v (statedName es)).toExcept
      pure (.plain (.raw index))) := by
  rw [ofDataWithin, requireKey_given htype, memberOf_given htype]
  simp only [bind, Except.bind]
  rw [requireKey_given hv, memberOf_given hv]
  rfl

theorem ofDataWithin_ofMulti (htype : Entries.get? es (.str "type") = some (.str "multi_field"))
    (hv : Entries.get? es (.str "fields") = some v) :
    ofDataWithin (n + 1) (.mapping es) = (do
      let parts ← elementsOf v
      let fields ← parts.mapM (partOfData (ofDataWithin n))
      let index ← MultiFieldIndex.of fields (statedUnique es) (statedName es)
      pure (.plain (.multi index))) := by
  rw [ofDataWithin, requireKey_given htype, memberOf_given htype]
  simp only [bind, Except.bind]
  rw [requireKey_given hv, memberOf_given hv]
  rfl

theorem ofDataWithin_ofPromoted
    (htype : Entries.get? es (.str "type") = some (.str "metadata_column"))
    (hsub : Entries.get? es (.str "index") = some sub)
    (hv : Entries.get? es (.str "columns") = some v) :
    ofDataWithin (n + 1) (.mapping es) = (do
      let parts ← elementsOf v
      let columns ← parts.mapM columnOfData
      let inner ← ofDataWithin n sub
      let index ← (PromotedIndex.of (.node inner) columns).toExcept
      pure (.promoted index)) := by
  rw [ofDataWithin, requireKey_given htype, memberOf_given htype]
  simp only [bind, Except.bind]
  rw [requireKey_given hsub, requireKey_given hv, memberOf_given hv, memberOf_given hsub]

theorem requireKey_notMapping (h : ∀ es, data ≠ .mapping es) (key : String) :
    (∃ m, requireKey data key = .error (.misuse m)) ∨ requireKey data key = .ok () := by
  unfold requireKey
  cases data.holds key with
  | error m => exact .inl ⟨m, rfl⟩
  | ok found =>
    cases found with
    | true => exact .inr rfl
    | false =>
      cases data with
      | mapping es => exact absurd rfl (h es)
      | _ => exact .inl ⟨_, rfl⟩

theorem memberOf_notMapping (h : ∀ es, data ≠ .mapping es) (key : String) :
    memberOf data key = .error (.misuse .wrongType) := by
  cases data with
  | mapping es => exact absurd rfl (h es)
  | _ => rfl

/-- Nothing is read of what is no mapping, whatever is asked of it first. -/
theorem ofDataWithin_notMapping (h : ∀ es, data ≠ .mapping es) :
    ∃ m, ∀ n, ofDataWithin (n + 1) data = .error (.misuse m) := by
  have hmember := memberOf_notMapping h "type"
  -- a text or a list may hold the name of the key, and still has no member of that name
  rcases requireKey_notMapping h "type" with ⟨m, hkey⟩ | hkey
  · exact ⟨m, fun n => bind_error hkey⟩
  · exact ⟨.wrongType, fun n => (bind_ok hkey).trans (bind_error hmember)⟩

end Level

/-! ## Columns -/

section Columns

variable {name type data : Value}

/-- The keys that the data of a column needs. -/
def columnKeys : List String := ["name", "sql_type"]

theorem columnOfData_lacking {key : String} (h : FirstMissing es columnKeys key) :
    columnOfData (.mapping es) = .error (missingKey es key) := by
  rcases firstMissing_cons.1 h with ⟨hname, rfl⟩ | ⟨⟨name, hname⟩, h⟩
  · exact bind_error (requireKey_missing hname)
  · obtain ⟨htype, rfl⟩ := firstMissing_singleton.1 h
    exact (bind_ok (requireKey_given hname)).trans (bind_error (requireKey_missing htype))

theorem columnOfData_given (hname : Entries.get? es (.str "name") = some name)
    (htype : Entries.get? es (.str "sql_type") = some type) :
    columnOfData (.mapping es) = (Column.of name type).toExcept := by
  unfold columnOfData
  rw [bind_ok (requireKey_given hname), bind_ok (requireKey_given htype),
    bind_ok (memberOf_given hname), bind_ok (memberOf_given htype)]

theorem columnOfData_notMapping (h : ∀ es, data ≠ .mapping es) :
    ∃ m, columnOfData data = .error (.misuse m) := by
  have hmember := memberOf_notMapping h "name"
  unfold columnOfData
  rcases requireKey_notMapping h "name" with ⟨m, hname⟩ | hname
  · exact ⟨m, bind_error hname⟩
  rcases requireKey_notMapping h "sql_type" with ⟨m, htype⟩ | htype
  · exact ⟨m, (bind_ok hname).trans (bind_error htype)⟩
  · exact ⟨.wrongType, (bind_ok hname).trans ((bind_ok htype).trans (bind_error hmember))⟩

end Columns

/-! ## Any number of levels -/

theorem elementsOf_eq_ok {v : Value} {parts : List Value} :
    elementsOf v = .ok parts ↔ v.elements? = some parts := by
  unfold elementsOf
  cases v.elements? <;> simp

/-- Only a mapping among the fields is read on. -/
theorem partOfData_congr {read other : Value → Except Error Index} {part : Value}
    (h : ∀ es, part = .mapping es →
      read (.mapping (fieldEntries es)) = other (.mapping (fieldEntries es))) :
    partOfData read part = partOfData other part := by
  cases part with
  | mapping es =>
    show (do
      let index ← read (.mapping (fieldEntries es))
      pure (asField (.node index))) = _
    rw [h es rfl]
    rfl
  | _ => rfl

theorem ofDataWithin_congr {m : Nat} {data : Value} (hn : data.depth < n) (hm : data.depth < m) :
    ofDataWithin n data = ofDataWithin m data := by
  -- on the levels of one reading, for any of the other: what is read inside is less deep
  induction n generalizing m data with
  | zero => omega
  | succ n ih =>
    obtain ⟨m, rfl⟩ : ∃ k, m = k + 1 := ⟨m - 1, by omega⟩
    by_cases hmapping : ∃ es, data = .mapping es
    · obtain ⟨es, rfl⟩ := hmapping
      cases form es with
      | lacking h => rw [ofDataWithin_lacking h, ofDataWithin_lacking h]
      | unknown htype h => rw [ofDataWithin_unknown htype h, ofDataWithin_unknown htype h]
      | field htype hv => rw [ofDataWithin_ofField htype hv, ofDataWithin_ofField htype hv]
      | raw htype hv => rw [ofDataWithin_ofRaw htype hv, ofDataWithin_ofRaw htype hv]
      | @promoted sub v htype hsub hv =>
        have hlt := depth_get?_lt hsub
        have hinner : ofDataWithin n sub = ofDataWithin m sub := ih (by omega) (by omega)
        rw [ofDataWithin_ofPromoted htype hsub hv, ofDataWithin_ofPromoted htype hsub hv, hinner]
      | @multi v htype hv =>
        have hlt := depth_get?_lt hv
        rw [ofDataWithin_ofMulti htype hv, ofDataWithin_ofMulti htype hv]
        cases hparts : elementsOf v with
        | error e => rfl
        | ok parts =>
          have hfields : parts.mapM (partOfData (ofDataWithin n))
              = parts.mapM (partOfData (ofDataWithin m)) := by
            refine mapM_congr fun part hpart => partOfData_congr fun es hes => ?_
            have hpart := Value.depth_mapping_lt (elementsOf_eq_ok.1 hparts) (hes ▸ hpart)
            have hle := depth_fieldEntries es
            exact ih (by omega) (by omega)
          show parts.mapM (partOfData (ofDataWithin n)) >>= _
            = parts.mapM (partOfData (ofDataWithin m)) >>= _
          rw [hfields]
    · have hother : ∀ es, data ≠ .mapping es := fun es hes => hmapping ⟨es, hes⟩
      obtain ⟨k, hk⟩ := ofDataWithin_notMapping hother
      rw [hk, hk]

/-- **Reading as many levels as one likes gives the same**, if the data has no more of them. -/
theorem ofDataWithin_eq {data : Value} (h : data.depth < n) : ofDataWithin n data = ofData data :=
  ofDataWithin_congr h (Nat.lt_succ_self _)

/-- What is read as a field of a larger index. -/
def fieldOfData (part : Value) : Except Error GivenField := partOfData ofData part

/-- A mapping is read as a field on any number of levels that it does not have. -/
theorem partOfData_eq {part : Value} (h : ∀ es, part = .mapping es → part.depth < n) :
    partOfData (ofDataWithin n) part = fieldOfData part := by
  refine partOfData_congr fun es hes => ?_
  have hlt := h es hes
  have hle := depth_fieldEntries es
  rw [← hes] at hle
  exact ofDataWithin_eq (by omega)

theorem fieldOfData_text (s : String) : fieldOfData (.str s) = .ok (.value (.str s)) := rfl

theorem fieldOfData_mapping (es : Entries) :
    fieldOfData (.mapping es) = (do
      let index ← ofData (.mapping (fieldEntries es))
      pure (asField (.node index))) := rfl

/-- What is read as the fields of a larger index. -/
def fieldsOfData (v : Value) : Except Error (List GivenField) := do
  let parts ← elementsOf v
  parts.mapM fieldOfData

/-- What is read as the columns of an index. -/
def columnsOfData (v : Value) : Except Error (List Column) := do
  let parts ← elementsOf v
  parts.mapM columnOfData

section OfData

variable {v sub : Value}

/-- An index over fields is read from what is read of its fields. -/
theorem ofData_multi (htype : Entries.get? es (.str "type") = some (.str "multi_field"))
    (hv : Entries.get? es (.str "fields") = some v) :
    ofData (.mapping es) = (do
      let fields ← fieldsOfData v
      let index ← MultiFieldIndex.of fields (statedUnique es) (statedName es)
      pure (.plain (.multi index))) := by
  rw [ofData, ofDataWithin_ofMulti htype hv, fieldsOfData]
  cases hparts : elementsOf v with
  | error e => rfl
  | ok parts =>
    have hfields : parts.mapM (partOfData (ofDataWithin (Value.mapping es).depth))
        = parts.mapM fieldOfData := by
      refine mapM_congr fun part hpart => partOfData_eq fun inner hinner => ?_
      subst hinner
      have hlt := Value.depth_mapping_lt (elementsOf_eq_ok.1 hparts) hpart
      exact Nat.lt_trans hlt (depth_get?_lt hv)
    show parts.mapM (partOfData (ofDataWithin (Value.mapping es).depth)) >>= _
      = parts.mapM fieldOfData >>= _
    rw [hfields]

/-- An index with promoted columns is read from what is read of its columns, and then of the index
that it holds. -/
theorem ofData_promoted (htype : Entries.get? es (.str "type") = some (.str "metadata_column"))
    (hsub : Entries.get? es (.str "index") = some sub)
    (hv : Entries.get? es (.str "columns") = some v) :
    ofData (.mapping es) = (do
      let columns ← columnsOfData v
      let inner ← ofData sub
      let index ← (PromotedIndex.of (.node inner) columns).toExcept
      pure (.promoted index)) := by
  rw [ofData, ofDataWithin_ofPromoted htype hsub hv, ofDataWithin_eq (depth_get?_lt hsub),
    columnsOfData]
  cases elementsOf v with
  | error e => rfl
  | ok parts => rfl

end OfData

end Index

end Docbase
