import Docbase.Index.Data
import Docbase.Proofs.Outcome

/-!
# Index declarations written and read back

A declaration puts the parts that it is given into one form each: directions in capitals, types of
columns without blanks around them. A part in that form is accepted as it is. Reading back what was
written runs all these checks once more, so the same declaration comes out.

* `FieldIndex.of_parts`, `MultiFieldIndex.of_parts`, `RawIndex.of_parts`, `Column.of_parts`: what
  the checks make of the parts that they put into form themselves.
* `Index.Declared`: a declaration that the constructors accept.
* `Index.ReadsBack`: the levels of data that reading has to go down.
* `Index.Declared.ofData_toData`: **what is written of a declaration is read back as the same**.
-/

namespace Docbase

open Sql Input

/-! ## Parts that are in form -/

@[simp] theorem Identifier.ofText_text (n : Identifier) (context : List (String × Value)) :
    Identifier.ofText n.text context = .ok n := by
  unfold Identifier.ofText
  rw [dif_pos n.valid]

theorem Direction.ofValue_text (d : Direction) : Direction.ofValue (.str d.text) = .ok d := by
  cases d with
  | asc => rfl
  | desc => rfl

/-- The type of a column has no blanks around it that could be dropped once more. -/
theorem ColumnType.strip_text (t : ColumnType) : Text.strip t.text = t.text := by
  have h := t.valid
  simp only [isColumnType, Bool.and_eq_true, beq_iff_eq] at h
  exact h.2

@[simp] theorem ColumnType.ofText_text (t : ColumnType) : ColumnType.ofText t.text = .ok t := by
  unfold ColumnType.ofText
  have hvalid : isColumnType (Text.strip t.text) = true := by
    rw [t.strip_text]
    exact t.valid
  rw [dif_pos hvalid]
  simp only [t.strip_text]

/-- What is accepted passes the check. -/
@[simp] theorem Checked.ofExcept_accepted {ε α : Type} (a : α) (f : ε → Error) :
    Checked.ofExcept ((Except.ok a).mapError f) = .ok a := rfl

@[simp] theorem Direction.read_text (d : Direction) : Direction.read (.str d.text) = .ok d := by
  simp [Direction.read, Input.readText, Checked.andThen, Direction.ofValue_text]

@[simp] theorem readIndexName_toValue (n : IndexName) : readIndexName n.toValue = .ok n := by
  cases n with
  | none => rfl
  | some n =>
    simp [readIndexName, IndexName.toValue, Input.readText?, Input.readText, Checked.map,
      Checked.andThen, Except.map]

theorem FieldIndex.of_parts (i : FieldIndex) :
    FieldIndex.of (.str i.field) (.str i.direction.text) (.bool i.unique) i.name.toValue = .ok i := by
  simp [FieldIndex.of, Input.readText, readBool, Checked.named, Checked.within, Checked.both, Checked.map]

theorem MultiFieldIndex.of_parts (i : MultiFieldIndex) :
    MultiFieldIndex.of (i.fields.map .node) (.bool i.unique) i.name.toValue = .ok i := by
  have hread : (i.fields.map Given.node).mapM GivenField.read = .ok (i.fields.map id) :=
    mapM_map_ok fun _ _ => rfl
  have hfields : checkFields i.fields = .ok ⟨i.fields, i.nonempty⟩ := dif_pos i.nonempty
  unfold MultiFieldIndex.of
  rw [hread, List.map_id]
  simp [bind, Except.bind, hfields, readBool, Checked.named, Checked.within, Checked.both,
    Checked.map, Checked.toExcept]

theorem RawIndex.of_parts (i : RawIndex) : RawIndex.of (.str i.sql) i.name.toValue = .ok i := by
  simp [RawIndex.of, Input.readText, Checked.named, Checked.within, Checked.both, Checked.map]

theorem Column.of_parts (c : Column) : Column.of (.str c.name.text) (.str c.type.text) = .ok c := by
  simp [Column.of, Input.readText, Checked.andThen, Checked.named, Checked.within, Checked.both,
    Checked.map]

/-- Columns are promoted for any index that promotes none itself. -/
theorem PromotedIndex.of_parts (i : PromotedIndex) :
    PromotedIndex.of (.node (.plain i.inner)) i.columns = .ok i := by
  have hcolumns : checkColumns i.columns = .ok ⟨i.columns, i.nonempty⟩ := dif_pos i.nonempty
  simp [PromotedIndex.of, hcolumns, Given.read, Checked.andThen, checkInner, Checked.named,
    Checked.within, Checked.both, Checked.map]

/-! ## Declarations -/

namespace Index

variable {i : Index}

/-- The declaration is what a constructor makes of the parts that it is given. -/
inductive Declared : Index → Prop
  | field {field direction unique name : Value} {i : FieldIndex}
      (h : FieldIndex.of field direction unique name = .ok i) : Declared (.plain (.field i))
  | multi {fields : List GivenField} {unique name : Value} {i : MultiFieldIndex}
      (h : MultiFieldIndex.of fields unique name = .ok i) : Declared (.plain (.multi i))
  | raw {sql name : Value} {i : RawIndex}
      (h : RawIndex.of sql name = .ok i) : Declared (.plain (.raw i))
  | promoted {inner : Index} {columns : List Column} {i : PromotedIndex} (hinner : Declared inner)
      (h : PromotedIndex.of (.node inner) columns = .ok i) : Declared (.promoted i)

/-- The index is of one of the three kinds that have a meaning. -/
def Known : PlainIndex → Prop
  | .unknown _ => False
  | _ => True

theorem known_of_plain {inner : PlainIndex} (h : Declared (.plain inner)) : Known inner := by
  cases h with
  | field h => trivial
  | multi h => trivial
  | raw h => trivial

/-- What promotes columns was declared over an index of a known kind: an index that promotes some
itself is refused. -/
theorem known_of_promoted {i : PromotedIndex} (h : Declared (.promoted i)) : Known i.inner := by
  cases h with
  | @promoted inner columns i hinner h =>
    cases inner with
    | plain inner =>
      have hknown := known_of_plain hinner
      simp only [PromotedIndex.of, Given.read, Checked.andThen, checkInner] at h
      unfold checkColumns at h
      split at h
      · cases h
        exact hknown
      · cases h
    | promoted i' => cases h

/-! ## Reading what was written -/

theorem columnOfData_toData (c : Column) : columnOfData c.toData = .ok c := by
  have hname : memberOf c.toData "name" = .ok (.str c.name.text) := rfl
  have htype : memberOf c.toData "sql_type" = .ok (.str c.type.text) := rfl
  unfold columnOfData
  rw [hname, htype]
  change (Column.of (.str c.name.text) (.str c.type.text)).toExcept = .ok c
  rw [c.of_parts]
  rfl

theorem ofDataWithin_field (n : Nat) (i : FieldIndex) :
    ofDataWithin (n + 1) i.toData = .ok (.plain (.field i)) := by
  have hread := i.of_parts
  change (do
    let index ← (FieldIndex.of (.str i.field) (.str i.direction.text) (.bool i.unique)
      i.name.toValue).toExcept
    pure (Index.plain (.field index))) = _
  rw [hread]
  rfl

theorem ofDataWithin_raw (n : Nat) (i : RawIndex) :
    ofDataWithin (n + 1) i.toData = .ok (.plain (.raw i)) := by
  have hread := i.of_parts
  change (do
    let index ← (RawIndex.of (.str i.sql) i.name.toValue).toExcept
    pure (Index.plain (.raw index))) = _
  rw [hread]
  rfl

/-- The data of a field names its kind already: taking that for granted changes nothing. -/
theorem fieldData_toData (i : FieldIndex) : fieldData i.toData = .ok i.toData := rfl

theorem partOfData_toData (n : Nat) (i : FieldIndex) :
    partOfData (ofDataWithin (n + 1)) i.toData = .ok (.node i) := by
  have hopen : partOfData (ofDataWithin (n + 1)) i.toData = (do
      let index ← ofDataWithin (n + 1) (← fieldData i.toData)
      pure (asField (.node index))) := rfl
  have hfield : ofDataWithin (n + 1) i.toData = .ok (.plain (.field i)) := ofDataWithin_field n i
  rw [hopen, fieldData_toData]
  change (do
    let index ← ofDataWithin (n + 1) i.toData
    pure (asField (.node index))) = _
  rw [hfield]
  rfl

theorem ofDataWithin_multi (n : Nat) (i : MultiFieldIndex) :
    ofDataWithin (n + 2) i.toData = .ok (.plain (.multi i)) := by
  have hfields : (i.fields.map FieldIndex.toData).mapM (partOfData (ofDataWithin (n + 1))) =
      .ok (i.fields.map .node) := mapM_map_ok fun f _ => partOfData_toData n f
  have hread := i.of_parts
  have hopen : ofDataWithin (n + 2) i.toData = (do
      let fields ← (i.fields.map FieldIndex.toData).mapM (partOfData (ofDataWithin (n + 1)))
      let index ← MultiFieldIndex.of fields (.bool i.unique) i.name.toValue
      pure (Index.plain (.multi index))) := rfl
  rw [hopen, hfields]
  change (do
    let index ← MultiFieldIndex.of (i.fields.map .node) (.bool i.unique) i.name.toValue
    pure (Index.plain (.multi index))) = _
  rw [hread]
  rfl

/-! ## Levels of data -/

/-- What is written of a declaration has so many levels at least, and whoever reads more than those
reads the declaration back. -/
def ReadsBack (levels : Nat) (i : Index) : Prop :=
  ∃ data, i.toData = .ok data ∧ levels ≤ data.depth ∧
    ∀ n, levels < n → ofDataWithin n data = .ok i

theorem depth_le_depthEntries {es : Entries} {k : Key} {v : Value} (h : (k, v) ∈ es) :
    v.depth ≤ Value.depthEntries es := by
  induction es with
  | nil => exact absurd h List.not_mem_nil
  | cons e es ih =>
    obtain ⟨k₀, v₀⟩ := e
    rw [Value.depthEntries]
    rcases List.mem_cons.1 h with heq | hmem
    · obtain ⟨rfl, rfl⟩ := Prod.mk.inj heq
      exact Nat.le_max_left _ _
    · have hle := ih hmem
      omega

/-- A mapping is deeper than its members. -/
theorem depth_member_lt {es : Entries} {k : Key} {v : Value} (h : (k, v) ∈ es) :
    v.depth < (Value.mapping es).depth := by
  have hle := depth_le_depthEntries h
  rw [Value.depth]
  omega

/-- The fields of an index are mappings inside of its own, so that one level below the first is
needed. -/
theorem readsBack_plain {inner : PlainIndex} (hknown : Known inner) :
    ReadsBack 1 (.plain inner) := by
  have hlevels : ∀ n, 1 < n → ∃ m, n = m + 2 := fun n hn => ⟨n - 2, by omega⟩
  cases inner with
  | field i =>
    refine ⟨i.toData, rfl, Nat.le_add_left 1 _, fun n hn => ?_⟩
    obtain ⟨m, rfl⟩ := hlevels n hn
    exact ofDataWithin_field (m + 1) i
  | multi i =>
    refine ⟨i.toData, rfl, Nat.le_add_left 1 _, fun n hn => ?_⟩
    obtain ⟨m, rfl⟩ := hlevels n hn
    exact ofDataWithin_multi m i
  | raw i =>
    refine ⟨i.toData, rfl, Nat.le_add_left 1 _, fun n hn => ?_⟩
    obtain ⟨m, rfl⟩ := hlevels n hn
    exact ofDataWithin_raw (m + 1) i
  | unknown name => exact hknown.elim

/-- An index with promoted columns is one level deeper than the index that it holds. -/
theorem ReadsBack.promoted {i : PromotedIndex} {levels : Nat}
    (hinner : ReadsBack levels (.plain i.inner)) : ReadsBack (levels + 1) (.promoted i) := by
  obtain ⟨inner, hdata, hdepth, hinner⟩ := hinner
  have hcolumns : (i.columns.map Column.toData).mapM columnOfData = .ok (i.columns.map id) :=
    mapM_map_ok fun c _ => columnOfData_toData c
  have hread := i.of_parts
  have hlt : inner.depth < (Value.object [("type", .str "metadata_column"), ("index", inner),
      ("columns", .list (i.columns.map Column.toData))]).depth :=
    depth_member_lt (k := .str "index") (List.mem_cons_of_mem _ List.mem_cons_self)
  refine ⟨_, ?_, Nat.lt_of_le_of_lt hdepth hlt, fun n hn => ?_⟩
  · have hinner : i.inner.toData = .ok inner := hdata
    rw [toData, hinner]
    rfl
  · obtain ⟨m, rfl⟩ : ∃ m, n = m + 1 := ⟨n - 1, by omega⟩
    change (do
      let columns ← (i.columns.map Column.toData).mapM columnOfData
      let inner ← ofDataWithin m inner
      let index ← (PromotedIndex.of (.node inner) columns).toExcept
      pure (Index.promoted index)) = _
    rw [hcolumns, List.map_id, hinner m (by omega)]
    change (do
      let index ← (PromotedIndex.of (.node (.plain i.inner)) i.columns).toExcept
      pure (Index.promoted index)) = _
    rw [hread]
    rfl

/-- Reading goes down as far as the data is deep, and that is far enough. -/
theorem ReadsBack.ofData {levels : Nat} (h : ReadsBack levels i) :
    ∃ data, i.toData = .ok data ∧ Index.ofData data = .ok i := by
  obtain ⟨data, hdata, hdepth, hread⟩ := h
  exact ⟨data, hdata, hread (data.depth + 1) (by omega)⟩

/-- **A declaration comes back from its data**: whatever a constructor accepts can be written, and
what is written is read as the same kind, with the same fields and columns in the same order. -/
theorem Declared.ofData_toData (h : Declared i) :
    ∃ data, i.toData = .ok data ∧ ofData data = .ok i := by
  cases i with
  | plain inner => exact (readsBack_plain (known_of_plain h)).ofData
  | promoted i => exact (readsBack_plain (known_of_promoted h)).promoted.ofData

theorem Declared.ofData_toData_descending :
    ∃ (f : FieldIndex) (m : MultiFieldIndex) (c : Column) (p : PromotedIndex),
      FieldIndex.of (.str "a") (.str "desc") (.str "yes") .null = .ok f ∧
      MultiFieldIndex.of [.node f, .value (.str "b.c")] (.bool true) (.str "by_a") = .ok m ∧
      Column.of (.str "version") (.str " int ") = .ok c ∧
      PromotedIndex.of (.node (.plain (.multi m))) [c] = .ok p ∧
      ∃ data, (Index.promoted p).toData = .ok data ∧ ofData data = .ok (.promoted p) := by
  obtain ⟨f, hf⟩ : ∃ f, FieldIndex.of (.str "a") (.str "desc") (.str "yes") .null = .ok f :=
    ⟨_, rfl⟩
  obtain ⟨m, hm⟩ : ∃ m, MultiFieldIndex.of [.node f, .value (.str "b.c")] (.bool true)
    (.str "by_a") = .ok m := ⟨_, rfl⟩
  obtain ⟨c, hc⟩ : ∃ c, Column.of (.str "version") (.str " int ") = .ok c := ⟨_, rfl⟩
  obtain ⟨p, hp⟩ : ∃ p, PromotedIndex.of (.node (.plain (.multi m))) [c] = .ok p := ⟨_, rfl⟩
  exact ⟨f, m, c, p, hf, hm, hc, hp, Declared.ofData_toData (.promoted (.multi hm) hp)⟩

end Index

end Docbase
