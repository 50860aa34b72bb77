import Docbase.Proofs.Collection.Naming
import Docbase.Proofs.Sql.Like
import Docbase.Sql.Identifier
import Mathlib.Data.List.Basic

/-!
# Tables and the names of their collections

A table of a catalog is shown as the collection whose table it is: without the common start, and with
its schema in front unless that is `public`. For names in ASCII:

* `Collection.place`: the table of a collection, as a catalog has it.
* `Table.listed`: the name of the collection of a table.
* `Table.place_listed`: **that name leads to the table again**; so no two tables are listed under one.
* `Collection.place_belongs`: the table of a collection is one of those that are listed.
* `Table.sought`, `Table.named`: a table is found in a search for names, and its name is one that was
  searched for; `Table.sought_word` and `Table.sought_point` tell when either is so.
* `Table.sought_eq_named_iff`: **they are the same unless the table strays** from the search.
-/

namespace Docbase

open Sql

namespace Text

/-- A text of ASCII letters, digits and underscores. -/
def IsWord (s : String) : Prop := ∀ c ∈ s.toList, isNameChar c = true

/-- Such a text without capital letters. -/
def IsFolded (s : String) : Prop := ∀ c ∈ s.toList, isNameChar c = true ∧ c.isUpper = false

instance (s : String) : Decidable (IsWord s) :=
  decidable_of_iff (s.toList.all isNameChar = true) List.all_eq_true

instance (s : String) : Decidable (IsFolded s) :=
  decidable_of_iff (s.toList.all (fun c => isNameChar c && !c.isUpper) = true) (by simp [IsFolded])

theorem isNameChar_ascii {c : Char} (h : isNameChar c = true) : c.toNat < 128 := by
  -- a word has no character behind z
  have hlast : 'Z'.val.toNat = 90 ∧ 'z'.val.toNat = 122 ∧ '9'.val.toNat = 57 := ⟨rfl, rfl, rfl⟩
  change (decide (c.val ≥ 'A'.val ∧ c.val ≤ 'Z'.val) ||
    (decide (c.val ≥ 'a'.val) && decide (c.val ≤ 'z'.val)) ||
    (decide (c.val ≥ '0'.val) && decide (c.val ≤ '9'.val)) || c == '_') = true at h
  simp only [Bool.or_eq_true, decide_eq_true_eq, beq_iff_eq, Bool.and_eq_true, ge_iff_le,
    UInt32.le_iff_toNat_le] at h
  change c.val.toNat < 128
  rcases h with h | rfl
  · omega
  · decide

theorem toLower_nameChar {c : Char} (h : isNameChar c = true) :
    isNameChar c.toLower = true ∧ c.toLower.isUpper = false := by
  -- of so few characters all can be looked at
  have hall : ∀ n < 128, isNameChar (Char.ofNat n) = true →
      isNameChar (Char.ofNat n).toLower = true ∧ (Char.ofNat n).toLower.isUpper = false := by decide
  have hc := hall c.toNat (isNameChar_ascii h)
  rw [Char.ofNat_toNat] at hc
  exact hc h

theorem toLower_of_not_upper {c : Char} (h : c.isUpper = false) : c.toLower = c :=
  dif_neg (of_decide_eq_false h)

variable {s t : String}

theorem IsFolded.isWord (h : IsFolded s) : IsWord s := fun c hc => (h c hc).1

theorem IsWord.point_notMem (h : IsWord s) : '.' ∉ s.toList :=
  fun hmem => absurd (h '.' hmem) (by decide)

theorem IsFolded.point_notMem (h : IsFolded s) : '.' ∉ s.toList := h.isWord.point_notMem

theorem IsWord.append (hs : IsWord s) (ht : IsWord t) : IsWord (s ++ t) := by
  intro c hc
  rw [String.toList_append] at hc
  exact (List.mem_append.1 hc).elim (hs c) (ht c)

theorem IsWord.ascii (h : IsWord s) : ∀ c ∈ s.toList, c.toNat < 128 :=
  fun c hc => isNameChar_ascii (h c hc)

theorem IsWord.toList_lower (h : IsWord s) : (lower s).toList = s.toList.map Char.toLower :=
  toList_lower_ascii h.ascii

theorem IsWord.lower (h : IsWord s) : IsFolded (lower s) := by
  intro c hc
  rw [h.toList_lower] at hc
  obtain ⟨d, hd, rfl⟩ := List.mem_map.1 hc
  exact toLower_nameChar (h d hd)

/-- What is in lower case already stays as it is. -/
theorem IsFolded.lower_eq (h : IsFolded s) : Text.lower s = s := by
  rw [← String.toList_inj, h.isWord.toList_lower]
  exact (List.map_congr_left fun c hc => toLower_of_not_upper (h c hc).2).trans (List.map_id _)

/-- The lower-case form of two words is that of the first and that of the second. -/
theorem IsWord.lower_append (hs : IsWord s) (ht : IsWord t) :
    Text.lower (s ++ t) = Text.lower s ++ Text.lower t := by
  rw [← String.toList_inj, (hs.append ht).toList_lower, String.toList_append, String.toList_append,
    hs.toList_lower, ht.toList_lower, List.map_append]

/-- So it is with a point between them. -/
theorem IsWord.lower_point (hs : IsWord s) (ht : IsWord t) :
    Text.lower (s ++ "." ++ t) = Text.lower s ++ "." ++ Text.lower t := by
  have hchars : ∀ c ∈ (s ++ "." ++ t).toList, c.toNat < 128 := by
    intro c hc
    simp only [String.toList_append, List.mem_append] at hc
    rcases hc with (hc | hc) | hc
    · exact hs.ascii c hc
    · rw [List.mem_singleton.1 hc]
      decide
    · exact ht.ascii c hc
  rw [← String.toList_inj, toList_lower_ascii hchars]
  simp only [String.toList_append, List.map_append, hs.toList_lower, ht.toList_lower]
  rfl

theorem splitFirst_of_notMem {mark : Char} (h : mark ∉ s.toList) : splitFirst mark s = none := by
  unfold splitFirst
  rw [if_neg (mt List.contains_iff_mem.1 h)]

theorem ne_point_of_notMem {cs : List Char} (h : '.' ∉ cs) : ∀ c ∈ cs, (c != '.') = true := by
  intro c hc
  rw [bne_iff_ne]
  rintro rfl
  exact h hc

theorem toList_point (s t : String) : (s ++ "." ++ t).toList = s.toList ++ '.' :: t.toList := by
  simp

/-- A text is split at its first point. -/
theorem splitFirst_point (h : '.' ∉ s.toList) : splitFirst '.' (s ++ "." ++ t) = some (s, t) := by
  unfold splitFirst
  rw [toList_point, if_pos (by simp), List.takeWhile_append_of_pos (ne_point_of_notMem h),
    List.dropWhile_append_of_pos (ne_point_of_notMem h)]
  simp

end Text

/-- A table of a catalog. -/
structure Table where
  schema : String
  name : String
  deriving DecidableEq

namespace Collection

/-- The table of a collection, as a catalog has it. -/
def place (name start : String) : Table := ⟨(split name).1, bareTableName name start⟩

/-- The name of a collection is a word, or two words with a point between them. -/
def IsName (name : String) : Prop :=
  match Text.splitFirst '.' name with
  | none => Text.IsWord name
  | some (schema, rest) => Text.IsWord schema ∧ Text.IsWord rest

instance (name : String) : Decidable (IsName name) :=
  match h : Text.splitFirst '.' name with
  | none => decidable_of_iff (Text.IsWord name) (by rw [IsName, h])
  | some (schema, rest) =>
    decidable_of_iff (Text.IsWord schema ∧ Text.IsWord rest) (by rw [IsName, h])

end Collection

open Text Collection

namespace Table

/-- The names of a table are in lower case. -/
def Folded (t : Table) : Prop := IsFolded t.schema ∧ IsFolded t.name

instance (t : Table) : Decidable t.Folded := inferInstanceAs (Decidable (_ ∧ _))

/-- The table in a statement. -/
def shown (t : Table) : String :=
  if t.schema = defaultSchema then t.name else t.schema ++ "." ++ t.name

/-- The table is one of those with the common start. -/
def belongs (start : String) (t : Table) : Bool := (lower start).toList.isPrefixOf t.name.toList

/-- What stands behind the common start. -/
def rest (start : String) (t : Table) : String :=
  String.ofList (t.name.toList.drop (lower start).length)

/-- The name of the collection of a table. -/
def listed (start : String) (t : Table) : String :=
  if t.schema = defaultSchema then t.rest start else t.schema ++ "." ++ t.rest start

variable {start : String} {t u : Table}

theorem belongs_iff : t.belongs start = true ↔ lower start ++ t.rest start = t.name := by
  rw [belongs, List.isPrefixOf_iff_prefix, ← String.toList_inj, String.toList_append, rest,
    String.toList_ofList]
  constructor
  · rintro ⟨tail, htail⟩
    rw [← htail, ← String.length_toList, List.drop_left]
  · exact fun h => ⟨_, h⟩

theorem rest_folded (ht : t.Folded) : IsFolded (t.rest start) := by
  intro c hc
  rw [rest, String.toList_ofList] at hc
  exact ht.2 c (List.mem_of_mem_drop hc)

theorem defaultSchema_folded : IsFolded defaultSchema := by decide +kernel

/-- The name of a collection is split into the schema of its table and what stands behind the common
start. -/
theorem split_listed (ht : t.Folded) :
    Collection.split (t.listed start) = (t.schema, t.rest start) := by
  have hrest : IsFolded (t.rest start) := rest_folded ht
  unfold Collection.split listed
  by_cases hpublic : t.schema = defaultSchema
  · rw [if_pos hpublic, splitFirst_of_notMem hrest.point_notMem, hpublic, hrest.lower_eq]
  · -- the first point is the one behind the schema, which has none
    rw [if_neg hpublic, splitFirst_point ht.1.point_notMem]
    simp only [ht.1.lower_eq, hrest.lower_eq]

/-- **The name under which a table is listed leads to the table.** -/
theorem place_listed (hstart : IsWord start) (ht : t.Folded) (hb : t.belongs start = true) :
    place (t.listed start) start = t := by
  have hrest : IsFolded (t.rest start) := rest_folded ht
  rw [place, bareTableName, split_listed ht, hstart.lower_append hrest.isWord, hrest.lower_eq,
    belongs_iff.1 hb]

/-- **So it does in statements.** -/
theorem tableName_listed (hstart : IsWord start) (ht : t.Folded) (hb : t.belongs start = true) :
    tableName (t.listed start) start = t.shown := by
  have hrest : IsFolded (t.rest start) := rest_folded ht
  have hname : lower (start ++ t.rest start) = t.name := by
    rw [hstart.lower_append hrest.isWord, hrest.lower_eq, belongs_iff.1 hb]
  unfold tableName listed shown
  by_cases hpublic : t.schema = defaultSchema
  · rw [if_pos hpublic, if_pos hpublic, splitFirst_of_notMem hrest.point_notMem]
    exact hname
  · rw [if_neg hpublic, if_neg hpublic, splitFirst_point ht.1.point_notMem]
    simp only
    rw [String.append_assoc, ht.1.isWord.lower_point (hstart.append hrest.isWord), hname,
      ht.1.lower_eq]

/-- Tables that are listed under one name are one table. -/
theorem eq_of_listed (hstart : IsWord start) (ht : t.Folded) (hb : t.belongs start = true)
    (hu : u.Folded) (hbu : u.belongs start = true) (h : t.listed start = u.listed start) : t = u := by
  rw [← place_listed hstart ht hb, h, place_listed hstart hu hbu]

end Table

/-! ## From names to tables -/

namespace Collection

variable {name start : String}

theorem IsName.ascii (h : IsName name) : ∀ c ∈ name.toList, c.toNat < 128 := by
  intro c hc
  unfold IsName at h
  cases hsplit : splitFirst '.' name with
  | none =>
    rw [hsplit] at h
    exact h.ascii c hc
  | some parts =>
    rw [hsplit] at h
    rw [toList_splitFirst_some hsplit, List.mem_append, List.mem_cons] at hc
    rcases hc with hc | rfl | hc
    · exact h.1.ascii c hc
    · decide
    · exact h.2.ascii c hc

theorem IsName.split_folded (h : IsName name) :
    IsFolded (Collection.split name).1 ∧ IsFolded (Collection.split name).2 := by
  unfold IsName at h
  unfold Collection.split
  cases hsplit : splitFirst '.' name with
  | none =>
    rw [hsplit] at h
    exact ⟨Table.defaultSchema_folded, h.lower⟩
  | some parts =>
    rw [hsplit] at h
    exact ⟨h.1.lower, h.2.lower⟩

/-- **The table of a collection is one of those that are listed**, and the statements of the store name
that very table, with its schema if the collection is given with one. -/
theorem place_belongs (hstart : IsWord start) (h : IsName name) :
    (place name start).belongs start = true ∧ (place name start).Folded ∧
      tableName name start = qualified name (place name start).schema (place name start).name := by
  obtain ⟨hschema, hrest⟩ := h.split_folded
  have hname : (place name start).name = lower start ++ (Collection.split name).2 := by
    rw [place, bareTableName, hstart.lower_append hrest.isWord, hrest.lower_eq]
  refine ⟨?_, ⟨hschema, ?_⟩, ?_⟩
  · rw [Table.belongs, List.isPrefixOf_iff_prefix, hname, String.toList_append]
    exact List.prefix_append _ _
  · intro c hc
    rw [hname, String.toList_append] at hc
    exact (List.mem_append.1 hc).elim (hstart.lower c) (hrest c)
  · refine (tableName_eq_iff name start).2 fun hsevered => ?_
    -- only a capital sigma could sever the name
    have hsigma : '\u03A3'.toNat < 128 :=
      (List.mem_append.1 hsevered.sigma_mem).elim (hstart.ascii _) (h.ascii _)
    exact absurd hsigma (by decide)

end Collection

/-! ## Searching -/

namespace Table

variable {start q : String} {t : Table}

/-- The name of the collection of the table starts with a text. -/
def named (start q : String) (t : Table) : Bool :=
  (lower q).toList.isPrefixOf (t.listed start).toList

/-- The table is found when collections are searched for that start with a text: those of its schema if
it names one, else those of all schemas. -/
def sought (start q : String) (t : Table) : Bool :=
  match splitFirst '.' q with
  | none => like (escapeLike (lower (start ++ q)) ++ "%") t.name
  | some _ => like (escapeLike (lower (start ++ (Collection.split q).2)) ++ "%") t.name
      && (Collection.split q).1 == t.schema

/-- The table is found though the name of its collection does not start with the text, or the other way
round: it is in a schema, and the text is the start of one of schema and rest only; or the text names
the schema that is left out in the names of its collections. -/
def Strays (start q : String) (t : Table) : Prop :=
  match splitFirst '.' q with
  | none => t.schema ≠ defaultSchema ∧
      ¬ ((lower q).toList <+: t.schema.toList ↔ (lower q).toList <+: (t.rest start).toList)
  | some (schema, rest) => lower schema = defaultSchema ∧ t.schema = defaultSchema ∧
      (lower rest).toList <+: (t.rest start).toList

instance (start q : String) (t : Table) : Decidable (t.Strays start q) :=
  match h : splitFirst '.' q with
  | none => decidable_of_iff (t.schema ≠ defaultSchema ∧
      ¬ ((lower q).toList <+: t.schema.toList ↔ (lower q).toList <+: (t.rest start).toList))
      (by rw [Strays, h])
  | some (schema, rest) => decidable_of_iff (lower schema = defaultSchema ∧
      t.schema = defaultSchema ∧ (lower rest).toList <+: (t.rest start).toList) (by rw [Strays, h])

/-- A pattern with the common start in front finds tables with that start. -/
theorem like_start_iff {w : String} (hstart : IsWord start) (hw : IsWord w) :
    like (escapeLike (lower (start ++ w)) ++ "%") t.name = true ↔
      t.belongs start = true ∧ (lower w).toList <+: (t.rest start).toList := by
  rw [like_escapeLike_start, hstart.lower_append hw, String.toList_append]
  constructor
  · intro h
    -- what starts so starts with the common start in the first place
    have hb : t.belongs start = true :=
      List.isPrefixOf_iff_prefix.2 ((List.prefix_append _ _).trans h)
    rw [← belongs_iff.1 hb, String.toList_append, List.prefix_append_right_inj] at h
    exact ⟨hb, h⟩
  · rintro ⟨hb, h⟩
    rw [← belongs_iff.1 hb, String.toList_append, List.prefix_append_right_inj]
    exact h

/-- What has no point in it starts a text up to its first point, or not at all. -/
theorem prefix_point_iff {cs as bs : List Char} (h : '.' ∉ cs) :
    cs <+: as ++ '.' :: bs ↔ cs <+: as := by
  refine ⟨fun hcs => ?_, fun hcs => hcs.trans (List.prefix_append _ _)⟩
  have has : as ++ ['.'] <+: as ++ '.' :: bs := by
    rw [List.prefix_append_right_inj]
    exact ⟨bs, rfl⟩
  -- both are starts of one list, so that one is a start of the other
  rcases List.prefix_or_prefix_of_prefix hcs has with hle | hle
  · rcases List.prefix_concat_iff.1 hle with rfl | hle
    · exact absurd (List.mem_append_right _ (List.mem_singleton_self _)) h
    · exact hle
  · exact absurd (hle.subset (List.mem_append_right _ (List.mem_singleton_self _))) h

/-- What starts up to its first point as a text does has the first piece of that text. -/
theorem point_prefix_iff {as bs cs ds : List Char} (ha : '.' ∉ as) (hc : '.' ∉ cs) :
    as ++ '.' :: bs <+: cs ++ '.' :: ds ↔ as = cs ∧ bs <+: ds := by
  constructor
  · rintro ⟨tail, htail⟩
    -- both sides up to their first points
    have htake := congrArg (List.takeWhile (· != '.')) htail
    rw [List.append_assoc, List.takeWhile_append_of_pos (ne_point_of_notMem ha),
      List.takeWhile_append_of_pos (ne_point_of_notMem hc)] at htake
    have hpieces : as = cs := by simpa using htake
    subst hpieces
    rw [List.append_assoc, List.append_cancel_left_eq] at htail
    exact ⟨rfl, tail, (List.cons.inj htail).2⟩
  · rintro ⟨rfl, h⟩
    rw [List.prefix_append_right_inj]
    exact List.cons_prefix_cons.2 ⟨rfl, h⟩

/-- A name is searched for in the rests of all tables, and stands at the start of a schema, or of a rest
without one. -/
theorem sought_word {t : Table} (hstart : IsWord start) (hq : IsWord q)
    (hb : t.belongs start = true) :
    (t.sought start q = true ↔ (lower q).toList <+: (t.rest start).toList) ∧
      (t.named start q = true ↔ (lower q).toList <+:
        (if t.schema = defaultSchema then t.rest start else t.schema).toList) := by
  constructor
  · rw [sought, splitFirst_of_notMem hq.point_notMem, like_start_iff hstart hq, and_iff_right hb]
  · rw [named, List.isPrefixOf_iff_prefix, listed]
    by_cases hpublic : t.schema = defaultSchema
    · rw [if_pos hpublic, if_pos hpublic]
    · rw [if_neg hpublic, if_neg hpublic, toList_point, prefix_point_iff hq.lower.point_notMem]

/-- A name with a schema is searched for in that schema, and stands at the start of no name without
one. -/
theorem sought_point {t : Table} {schema rest : String}
    (hsplit : splitFirst '.' q = some (schema, rest)) (hstart : IsWord start)
    (hschema : IsWord schema) (hrest : IsWord rest) (ht : t.Folded)
    (hb : t.belongs start = true) :
    (t.sought start q = true ↔ lower schema = t.schema ∧
      (lower rest).toList <+: (t.rest start).toList) ∧
      (t.named start q = true ↔ t.schema ≠ defaultSchema ∧ lower schema = t.schema ∧
        (lower rest).toList <+: (t.rest start).toList) := by
  have hq : q = schema ++ "." ++ rest := by
    rw [← String.toList_inj, toList_splitFirst_some hsplit, toList_point]
  have hparts : Collection.split q = (lower schema, lower rest) := by
    rw [Collection.split, hsplit]
  constructor
  · rw [sought, hsplit]
    simp only [hparts]
    rw [Bool.and_eq_true, beq_iff_eq, like_start_iff hstart hrest.lower.isWord, and_iff_right hb,
      hrest.lower.lower_eq, and_comm]
  · have hlower : (lower q).toList = (lower schema).toList ++ '.' :: (lower rest).toList := by
      rw [hq, hschema.lower_point hrest, toList_point]
    rw [named, List.isPrefixOf_iff_prefix, listed, hlower]
    by_cases hpublic : t.schema = defaultSchema
    · rw [if_pos hpublic]
      -- a name without a schema has no point in it
      refine iff_of_false (fun h => ?_) fun h => h.1 hpublic
      exact (rest_folded ht).point_notMem (h.subset (List.mem_append_right _ (.head _)))
    · rw [if_neg hpublic, toList_point, point_prefix_iff hschema.lower.point_notMem ht.1.point_notMem,
        String.toList_inj, and_iff_right hpublic]

/-- A search finds no tables but those with the common start. -/
theorem belongs_of_sought (hstart : IsWord start) (hq : IsName q) (h : t.sought start q = true) :
    t.belongs start = true := by
  unfold IsName at hq
  unfold sought at h
  cases hsplit : splitFirst '.' q with
  | none =>
    rw [hsplit] at hq h
    exact ((like_start_iff hstart hq).1 h).1
  | some parts =>
    rw [hsplit] at hq h
    have hrest : IsWord (Collection.split q).2 := by
      rw [Collection.split, hsplit]
      exact hq.2.lower.isWord
    exact ((like_start_iff hstart hrest).1 (Bool.and_eq_true_iff.1 h).1).1

/-- **A table is found exactly if the name of its collection starts with the text**, unless it
strays. -/
theorem sought_eq_named_iff (hstart : IsWord start) (hq : IsName q) (ht : t.Folded)
    (hb : t.belongs start = true) :
    t.sought start q = t.named start q ↔ ¬ t.Strays start q := by
  rw [Bool.eq_iff_iff]
  unfold IsName at hq
  unfold Strays
  cases hsplit : splitFirst '.' q with
  | none =>
    rw [hsplit] at hq
    obtain ⟨hsought, hnamed⟩ := sought_word hstart hq hb
    rw [hsought, hnamed]
    by_cases hpublic : t.schema = defaultSchema
    · simp [hpublic]
    · simp only [hpublic, if_false, ne_eq, not_false_eq_true, true_and, not_not]
      exact Iff.comm
  | some parts =>
    obtain ⟨schema, rest⟩ := parts
    rw [hsplit] at hq
    obtain ⟨hsought, hnamed⟩ := sought_point hsplit hstart hq.1 hq.2 ht hb
    rw [hsought, hnamed]
    by_cases hpublic : t.schema = defaultSchema
    · simp [hpublic]
    · simp [hpublic]

end Table

end Docbase
