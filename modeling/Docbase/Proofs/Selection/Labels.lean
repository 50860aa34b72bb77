import Mathlib.Data.List.Nodup
import Mathlib.Data.List.Zip
import Docbase.Proofs.Outcome
import Docbase.Proofs.Selection.Paths
import Docbase.Proofs.Sql.Params

/-!
# Labels of columns

A selection becomes a list of columns whose labels are numbered, and the row that comes back is read
by the same labels.

* `labels`: the labels of a selection; `labels_nodup`: no two of them are the same, and none is the
  label of the id.
* `columns_eq`: what the columns of a selection are, and when it is refused.
* `assemble_eq`: **every entry takes its value from the column of its own label**, and from no other.
* `listText_eq_ok`: the items of the list of columns, one for each entry.
* `listing_matches_assembly`: **the list and the reading agree**, and neither depends on the aliases.
-/

namespace Docbase.Selection

open Sql

/-- The alias is the label of the id, or starts like another label. -/
def LooksLikeLabel (name : String) : Prop :=
  name = idLabel ∨ mergeLabel.toList <+: name.toList ∨ fieldLabel.toList <+: name.toList

theorem isReserved_iff {name : String} : isReserved name = true ↔ LooksLikeLabel name := by
  simp [isReserved, LooksLikeLabel, or_assoc]

instance (name : String) : Decidable (LooksLikeLabel name) := decidable_of_iff _ isReserved_iff

/-- The labels of entries, the first of them at a position. -/
def labelsFrom (position : Nat) : List Entry → List String
  | [] => []
  | e :: es => label e position :: labelsFrom (position + 1) es

/-- The labels of the entries of a selection. -/
def labels (s : Selection) : List String := labelsFrom 0 s.entries

/-- The columns of entries without regard to their aliases, the first of them at a position. -/
def labelled (position : Nat) (es : List Entry) : List Column :=
  List.zipWith Column.mk es (labelsFrom position es)

variable {position m n : Nat} {e e' : Entry} {es : List Entry} {s : Selection}

@[simp] theorem length_labelsFrom (position : Nat) (es : List Entry) :
    (labelsFrom position es).length = es.length := by
  induction es generalizing position with
  | nil => rfl
  | cons e es ih => simp [labelsFrom, ih]

/-- The number at the end of a label can be read off it. -/
theorem label_inj (h : label e m = label e' n) : m = n := by
  -- labels of the two kinds differ before their numbers start
  have hkind : ∀ {i j : Nat}, mergeLabel ++ toString i ≠ fieldLabel ++ toString j := by
    intro i j hij
    have htake : ((mergeLabel ++ toString i).toList.take 15) =
        ((fieldLabel ++ toString j).toList.take 15) := by rw [hij]
    rw [String.toList_append, String.toList_append, List.take_append_of_le_length (by decide),
      List.take_append_of_le_length (by decide)] at htake
    exact absurd htake (by decide)
  have hnumber : ∀ {i j : Nat}, toString i = toString j → i = j :=
    fun hij => paramName_inj (congrArg ("a" ++ ·) hij)
  unfold label at h
  split at h <;> split at h
  · exact hnumber ((String.append_right_inj mergeLabel).1 h)
  · exact absurd h hkind
  · exact absurd h.symm hkind
  · exact hnumber ((String.append_right_inj fieldLabel).1 h)

theorem label_ne_idLabel (e : Entry) (n : Nat) : label e n ≠ idLabel := by
  intro h
  have htake : (label e n).toList.take 15 = idLabel.toList.take 15 := by rw [h]
  unfold label at htake
  split at htake <;>
  · rw [String.toList_append, List.take_append_of_le_length (by decide)] at htake
    exact absurd htake (by decide)

theorem mem_labelsFrom {l : String} (h : l ∈ labelsFrom position es) :
    ∃ e n, position ≤ n ∧ l = label e n := by
  induction es generalizing position with
  | nil => cases h
  | cons e es ih =>
    rcases List.mem_cons.1 h with rfl | h
    · exact ⟨e, position, le_rfl, rfl⟩
    · obtain ⟨e', n, hn, rfl⟩ := ih h
      exact ⟨e', n, by omega, rfl⟩

/-- No two labels are the same, and none is the label of the id. -/
theorem labels_nodup (s : Selection) : (idLabel :: s.labels).Nodup := by
  have hfrom : ∀ position es, (labelsFrom position es).Nodup := by
    intro position es
    induction es generalizing position with
    | nil => exact List.nodup_nil
    | cons e es ih =>
      refine List.nodup_cons.2 ⟨fun h => ?_, ih (position + 1)⟩
      obtain ⟨e', n, hn, hl⟩ := mem_labelsFrom h
      have : position = n := label_inj hl
      omega
  refine List.nodup_cons.2 ⟨fun h => ?_, hfrom 0 s.entries⟩
  obtain ⟨e, n, -, hl⟩ := mem_labelsFrom h
  exact label_ne_idLabel e n hl.symm

/-! ## Columns -/

/-- Entries are refused for the first alias that looks like a label, and else have their columns. -/
theorem columnsFrom_eq (position : Nat) (es : List Entry) :
    columnsFrom position es = match es.find? fun e => isReserved e.aliasName with
      | some e => .error (.reservedAlias e.aliasName (.str e.field))
      | none => .ok (labelled position es) := by
  induction es generalizing position with
  | nil => rfl
  | cons e es ih =>
    rw [columnsFrom, List.find?_cons]
    cases he : isReserved e.aliasName with
    | true => rfl
    | false =>
      simp only [Bool.false_eq_true, if_false, ih]
      cases es.find? fun e => isReserved e.aliasName <;> rfl

/-- A selection has columns if none of its aliases looks like a label. -/
theorem columns_of_free (h : ∀ e ∈ s.entries, ¬ LooksLikeLabel e.aliasName) :
    s.columns = .ok (labelled 0 s.entries) := by
  have hnone : (s.entries.find? fun e => isReserved e.aliasName) = none := by
    rw [List.find?_eq_none]
    exact fun e he hr => h e he (isReserved_iff.1 hr)
  rw [columns, columnsFrom_eq, hnone]

theorem columns_eq_error {c : Cause} (h : s.columns = .error c) :
    ∃ e ∈ s.entries, LooksLikeLabel e.aliasName ∧ c = .reservedAlias e.aliasName (.str e.field) := by
  rw [columns, columnsFrom_eq] at h
  split at h
  · rename_i e he
    have hr : isReserved e.aliasName = true := by simpa using List.find?_some he
    exact ⟨e, List.mem_of_find?_eq_some he, isReserved_iff.1 hr, (Except.error.inj h).symm⟩
  · cases h

theorem columns_isError :
    (∃ c, s.columns = .error c) ↔ ∃ e ∈ s.entries, LooksLikeLabel e.aliasName := by
  constructor
  · rintro ⟨c, h⟩
    obtain ⟨e, he, hl, -⟩ := columns_eq_error h
    exact ⟨e, he, hl⟩
  · rintro ⟨e, he, hl⟩
    cases h : s.columns with
    | error c => exact ⟨c, rfl⟩
    | ok cs =>
      rw [columns, columnsFrom_eq] at h
      split at h
      · cases h
      · rename_i hnone
        exact absurd (isReserved_iff.2 hl) (List.find?_eq_none.1 hnone e he)

/-! ## Reading a row -/

section Reading

variable {r : Resolver} {row : Entries} {cs : List Column}

/-- The value of a field, given what a row holds for it: JSON is read, a physical column is taken as
it is, and null stands in for what is missing. -/
def readStored (r : Resolver) (field : String) (stored : Option Value) : Except Misuse Value :=
  if r.isPromoted field then .ok (stored.getD .null) else decodeColumn (stored.getD .null)

/-- The members with values added one by one, as long as there are values. -/
def placeAll (members : Entries) : List (Column × Except Misuse Value) → Except Error Entries
  | [] => .ok members
  | (c, value) :: rest => do
    let value ← value.mapError .misuse
    let members ← place members c value
    placeAll members rest

/-- What is read for a column. -/
def reading (r : Resolver) (row : Entries) (c : Column) : Column × Except Misuse Value :=
  (c, readStored r c.entry.field (Entries.get? row (.str c.label)))

theorem assembleFrom_eq (members : Entries) :
    assembleFrom r row members cs = placeAll members (cs.map (reading r row)) := by
  induction cs generalizing members with
  | nil => rfl
  | cons c cs ih =>
    simp only [assembleFrom, List.map_cons, placeAll, reading, ih]
    rfl

/-- **Every entry takes its value from the column of its own label.** -/
theorem assemble_eq (h : ∀ e ∈ s.entries, ¬ LooksLikeLabel e.aliasName) :
    s.assemble r (.mapping row) =
      (placeAll [] ((List.zipWith Column.mk s.entries s.labels).map (reading r row))).map
        .mapping := by
  have hcs : s.columns = .ok (List.zipWith Column.mk s.entries s.labels) := columns_of_free h
  simp only [assemble, hcs, assembleFrom_eq]
  cases placeAll [] _ <;> rfl

/-- Nothing but an alias is refused like an alias. -/
theorem placeAll_eq_error {members : Entries} {reads : List (Column × Except Misuse Value)}
    {c : Cause} (h : placeAll members reads = .error (.refused c)) :
    ∃ field value, c = .mergeNotObject field value := by
  induction reads generalizing members with
  | nil => cases h
  | cons p reads ih =>
    obtain ⟨column, value⟩ := p
    cases value with
    | error m => cases h
    | ok v =>
      have hplace : placeAll members ((column, .ok v) :: reads) =
          place members column v >>= fun ms => placeAll ms reads := rfl
      rw [hplace] at h
      cases hp : place members column v with
      | ok ms => rw [hp] at h; exact ih h
      | error x =>
        rw [hp] at h
        cases h
        unfold place at hp
        split at hp
        · split at hp
          · cases hp
          · cases hp
          · cases hp; exact ⟨_, _, rfl⟩
        · cases hp

theorem assemble_reserved (r : Resolver) (s : Selection) (row : Value) (name : String)
    (field : Value) : s.assemble r row = .error (.refused (.reservedAlias name field)) ↔
      s.columns = .error (.reservedAlias name field) := by
  cases hcs : s.columns with
  | error c => simp [assemble, hcs, throw, throwThe, MonadExceptOf.throw]
  | ok cs =>
    refine ⟨fun h => ?_, fun h => by cases h⟩
    simp only [assemble, hcs] at h
    split at h
    · rename_i es
      rw [assembleFrom_eq] at h
      cases hp : placeAll [] (cs.map (reading r es)) with
      | ok ms => rw [hp] at h; cases h
      | error x =>
        rw [hp] at h
        cases h
        obtain ⟨_, _, hc⟩ := placeAll_eq_error hp
        cases hc
    · split at h <;> cases h

end Reading

/-! ## The list of columns -/

section Listing

variable {r : Resolver} {field : String}

/-- A field that has no item has a path that is no path. -/
theorem itemText_eq_error {c : Cause} (h : itemText r field = .error c) (name : String)
    (value : Value) : c ≠ .reservedAlias name value := by
  have hoperand : r.operand field = .error c := by
    cases ho : r.operand field with
    | error x => rw [itemText, ho] at h; cases h; rfl
    | ok operand =>
      rw [itemText, ho] at h
      simp only [bind, Except.bind] at h
      split at h <;> cases h
  rintro rfl
  unfold Resolver.operand at hoperand
  split at hoperand
  · unfold Resolver.columnName Identifier.ofText at hoperand
    split at hoperand <;> cases hoperand
  · unfold Resolver.segments at hoperand
    split at hoperand
    · cases hoperand
    · simp only at hoperand
      split at hoperand <;> cases hoperand

theorem itemText_of_operand {operand : Operand} (h : r.operand field = .ok operand) :
    ∃ item, itemText r field = .ok item := by
  simp only [itemText, h, bind, Except.bind]
  split
  · exact ⟨_, rfl⟩
  · exact ⟨_, rfl⟩

/-- Entries whose fields all have paths have an item each. -/
theorem exists_items (h : ∀ e ∈ es, ∃ operand, r.operand e.field = .ok operand) :
    ∃ items, List.Forall₂ (fun e item => itemText r e.field = .ok item) es items := by
  induction es with
  | nil => exact ⟨[], .nil⟩
  | cons e es ih =>
    obtain ⟨operand, ho⟩ := h e List.mem_cons_self
    obtain ⟨item, hitem⟩ := itemText_of_operand ho
    obtain ⟨items, hitems⟩ := ih fun e' he' => h e' (List.mem_cons_of_mem _ he')
    exact ⟨item :: items, .cons hitem hitems⟩

/-- An item of the list of columns. -/
def labelledItem (item label : String) : String := item ++ " AS " ++ quoteAlias label

theorem itemTexts_eq_ok {items : List String}
    (h : List.Forall₂ (fun e item => itemText r e.field = .ok item) es items) (position : Nat) :
    itemTexts r (labelled position es) =
      .ok (List.zipWith labelledItem items (labelsFrom position es)) := by
  induction h generalizing position with
  | nil => rfl
  | cons he _ ih =>
    have hrest := ih (position + 1)
    simp only [labelled] at hrest
    simp only [labelled, labelsFrom, List.zipWith_cons_cons, itemTexts, he, hrest]
    rfl

theorem itemTexts_eq_error {cs : List Column} {c : Cause} (h : itemTexts r cs = .error c) :
    ∃ column ∈ cs, itemText r column.entry.field = .error c := by
  induction cs with
  | nil => cases h
  | cons column cs ih =>
    rw [itemTexts] at h
    cases hi : itemText r column.entry.field with
    | error x => rw [hi] at h; cases h; exact ⟨column, List.mem_cons_self, hi⟩
    | ok item =>
      rw [hi] at h
      cases hrest : itemTexts r cs with
      | ok rest => rw [hrest] at h; cases h
      | error x =>
        rw [hrest] at h
        cases h
        obtain ⟨other, hother, ho⟩ := ih hrest
        exact ⟨other, List.mem_cons_of_mem _ hother, ho⟩

theorem listText_reserved (r : Resolver) (s : Selection) (name : String) (field : Value) :
    s.listText r = .error (.reservedAlias name field) ↔
      s.columns = .error (.reservedAlias name field) := by
  rw [listText]
  cases hcs : s.columns with
  | error c => simp [bind, Except.bind]
  | ok cs =>
    refine ⟨fun h => ?_, fun h => by cases h⟩
    cases hi : itemTexts r cs with
    | ok items => simp only [bind, Except.bind, hi] at h; cases h
    | error c =>
      simp only [bind, Except.bind, hi] at h
      cases h
      obtain ⟨column, -, hc⟩ := itemTexts_eq_error hi
      exact absurd rfl (itemText_eq_error hc name field)

/-- The items depend on the fields, and on the places of the entries whose members go straight into
the answer, but not on the other aliases. -/
theorem itemTexts_congr {es es' : List Entry} (hfields : es.map (·.field) = es'.map (·.field))
    (hmerges : es.map Entry.isMerge = es'.map Entry.isMerge) (position : Nat) :
    itemTexts r (labelled position es) = itemTexts r (labelled position es') := by
  induction es generalizing es' position with
  | nil =>
    cases es' with
    | nil => rfl
    | cons e es' => cases hfields
  | cons e es ih =>
    cases es' with
    | nil => cases hfields
    | cons e' es' =>
      obtain ⟨hfield, hfields⟩ := List.cons.inj hfields
      obtain ⟨hmerge, hmerges⟩ := List.cons.inj hmerges
      have hlabel : label e position = label e' position := by simp only [label, hmerge]
      have hrest := ih hfields hmerges (position + 1)
      simp only [labelled] at hrest
      simp only [labelled, labelsFrom, List.zipWith_cons_cons, itemTexts, hfield, hlabel, hrest]

theorem listText_of_free (h : ∀ e ∈ s.entries, ¬ LooksLikeLabel e.aliasName) :
    s.listText r = (itemTexts r (labelled 0 s.entries)).map fun items =>
      ", ".intercalate (labelledItem idColumn idLabel :: items) := by
  rw [listText, columns_of_free h]
  simp only [bind, Except.bind]
  cases itemTexts r (labelled 0 s.entries) <;> rfl

end Listing

/-- **The list of columns and the reading of a row agree.** Both refuse the same aliases. If none is
refused and all fields have paths, the list has the id and one item for each entry, and the labels of
all are different. Each entry takes its value from the column of its own label, and no change of any
other column of the row changes it. The text, or the refusal of a path, is the same for all selections
of the same fields that merge at the same places. -/
theorem listing_matches_assembly (r : Resolver) (s : Selection) :
    (∀ name field row, s.listText r = .error (.reservedAlias name field) ↔
      s.assemble r row = .error (.refused (.reservedAlias name field))) ∧
    ((∃ name field, s.listText r = .error (.reservedAlias name field)) ↔
      ∃ e ∈ s.entries, LooksLikeLabel e.aliasName) ∧
    ((∀ e ∈ s.entries, ¬ LooksLikeLabel e.aliasName) →
      ((∀ e ∈ s.entries, ∃ operand, r.operand e.field = .ok operand) → ∃ items,
        List.Forall₂ (fun e item => itemText r e.field = .ok item) s.entries items ∧
          s.listText r = .ok (", ".intercalate (labelledItem idColumn idLabel ::
            List.zipWith labelledItem items s.labels))) ∧
      s.labels.length = s.entries.length ∧ (idLabel :: s.labels).Nodup ∧
      (∀ row, s.assemble r (.mapping row) =
        (placeAll [] ((List.zipWith Column.mk s.entries s.labels).map (reading r row))).map
          .mapping) ∧
      (∀ row name value, ∀ l ∈ s.labels, name ≠ l → ∀ e,
        reading r (Entries.put row (.str name) value) ⟨e, l⟩ = reading r row ⟨e, l⟩) ∧
      ∀ other : Selection, (∀ e ∈ other.entries, ¬ LooksLikeLabel e.aliasName) →
        other.entries.map (·.field) = s.entries.map (·.field) →
        other.entries.map Entry.isMerge = s.entries.map Entry.isMerge →
          other.listText r = s.listText r) := by
  refine ⟨fun name field row => ?_, ?_, fun hfree => ⟨fun hpaths => ?_, ?_, ?_, ?_, ?_, ?_⟩⟩
  · rw [listText_reserved, assemble_reserved]
  · rw [← columns_isError]
    constructor
    · rintro ⟨name, field, h⟩
      exact ⟨_, (listText_reserved r s name field).1 h⟩
    · rintro ⟨c, h⟩
      obtain ⟨e, -, -, rfl⟩ := columns_eq_error h
      exact ⟨_, _, (listText_reserved r s _ _).2 h⟩
  · obtain ⟨items, hitems⟩ := exists_items hpaths
    refine ⟨items, hitems, ?_⟩
    rw [listText_of_free hfree, itemTexts_eq_ok hitems]
    rfl
  · exact length_labelsFrom 0 s.entries
  · exact labels_nodup s
  · exact fun row => assemble_eq hfree
  · intro row name value l _ hname e
    have hsame : (Key.str name).same (.str l) = false := by
      rw [Bool.eq_false_iff, Ne, Key.same_str, Key.str.injEq]
      exact hname
    simp only [reading, Entries.get?_put_str, hsame]
    rfl
  · intro other hother hfields hmerges
    rw [listText_of_free hother, listText_of_free hfree, itemTexts_congr hfields hmerges]

/-- A selection of a value, of an object to merge and of a physical column. -/
def sample : Selection := ⟨[⟨"a.b", "x"⟩, ⟨"$merge", "meta"⟩, ⟨"kind", "metadata.kind"⟩]⟩

/-- The same fields under other aliases. -/
def renamed : Selection :=
  ⟨[⟨"id\" FROM t --", "x"⟩, ⟨"$merge", "meta"⟩, ⟨"a.b", "metadata.kind"⟩]⟩

/-- Aliases leave no mark on the list, whatever their text. -/
theorem listing_matches_assembly_renamed :
    (∀ e ∈ sample.entries, ¬ LooksLikeLabel e.aliasName) ∧
    (∀ e ∈ sample.entries, ∃ operand, Resolver.operand { promote := true } e.field = .ok operand) ∧
    (∀ e ∈ renamed.entries, ¬ LooksLikeLabel e.aliasName) ∧
    (∃ items, sample.listText { promote := true } = .ok (", ".intercalate
      (labelledItem idColumn idLabel :: List.zipWith labelledItem items sample.labels))) ∧
    renamed.listText { promote := true } = sample.listText { promote := true } := by
  have hsample : ∀ e ∈ sample.entries, ¬ LooksLikeLabel e.aliasName := by decide
  have hrenamed : ∀ e ∈ renamed.entries, ¬ LooksLikeLabel e.aliasName := by decide
  have hpaths : ∀ e ∈ sample.entries,
      ∃ operand, Resolver.operand { promote := true } e.field = .ok operand := by
    intro e he
    simp only [sample, List.mem_cons, List.not_mem_nil, or_false] at he
    rcases he with rfl | rfl | rfl
    · exact ⟨_, rfl⟩
    · exact ⟨_, rfl⟩
    · exact ⟨_, rfl⟩
  obtain ⟨hitems, -, -, -, -, hblind⟩ :=
    (listing_matches_assembly { promote := true } sample).2.2 hsample
  obtain ⟨items, -, htext⟩ := hitems hpaths
  exact ⟨hsample, hpaths, hrenamed, ⟨items, htext⟩, hblind renamed hrenamed rfl rfl⟩

end Docbase.Selection
