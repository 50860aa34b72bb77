import Docbase.Proofs.Outcome
import Docbase.Proofs.Text.Lowercase
import Docbase.Store.Collections

/-!
# One table by several names

A collection is made under one name, folded to lower case as a whole, and looked up by a schema and
a table, which are folded piece by piece.

* `Collection.qualified`: the name that a schema and a table make up.
* `Collection.Severed`: a capital sigma of the name is final in one reading and not in the other.
* `Collection.tableName_eq_iff`: **the two names are one exactly if the name is not severed.**
* `Collection.Severed.sigma_mem`: names without a capital sigma are not severed.
* `Options.Names`: what the calls of a store name.
-/

namespace Docbase

namespace Text

theorem toList_splitFirst_none {mark : Char} {s : String} (h : splitFirst mark s = none) :
    mark ∉ s.toList := by
  intro hmem
  unfold splitFirst at h
  rw [if_pos (List.contains_iff_mem.2 hmem)] at h
  cases h

theorem toList_splitFirst_some {mark : Char} {s first rest : String}
    (h : splitFirst mark s = some (first, rest)) :
    s.toList = first.toList ++ mark :: rest.toList := by
  unfold splitFirst at h
  by_cases hmem : mark ∈ s.toList
  · rw [if_pos (List.contains_iff_mem.2 hmem)] at h
    cases h
    -- the rest of the text starts with the mark, which stopped the search
    have hne : s.toList.dropWhile (· != mark) ≠ [] := by
      intro hnil
      have hall : (s.toList.takeWhile (· != mark)).all (· != mark) = true := List.all_takeWhile
      have hwhole := List.takeWhile_append_dropWhile (p := (· != mark)) (l := s.toList)
      rw [hnil, List.append_nil] at hwhole
      rw [hwhole] at hall
      exact absurd rfl (bne_iff_ne.1 (List.all_eq_true.1 hall mark hmem))
    have hhead : (s.toList.dropWhile (· != mark)).head hne = mark :=
      bne_eq_false_iff_eq.1 (List.head_dropWhile_not (· != mark) hne)
    have hcons := List.cons_head_tail hne
    rw [hhead] at hcons
    rw [String.toList_ofList, String.toList_ofList, List.drop_one, hcons,
      List.takeWhile_append_dropWhile]
  · rw [if_neg (mt List.contains_iff_mem.1 hmem)] at h
    cases h

theorem mem_of_splitFirst_some {mark : Char} {s first rest : String}
    (h : splitFirst mark s = some (first, rest)) : mark ∈ s.toList := by
  rw [toList_splitFirst_some h]
  exact List.mem_append_right _ (.head _)

end Text

namespace Collection

/-- The name of a table of a schema, as a collection of that name is stored: with the schema if the
name of the collection has one. -/
def qualified (name : String) (schema table : String) : String :=
  if '.' ∈ name.toList then schema ++ "." ++ table else table

/-- A capital sigma at a seam of the name is folded in two ways: as a part of the whole name, and as
a part of its own piece. -/
def Severed (name start : String) : Prop :=
  match Text.splitFirst '.' name with
  | none => Text.GainsFinal start name
  | some (schema, rest) =>
    Text.LosesFinal schema (start ++ rest) ∨ Text.GainsFinal schema (start ++ rest)
      ∨ Text.GainsFinal start rest

instance (name start : String) : Decidable (Severed name start) := by
  unfold Severed
  split <;> infer_instance

open Text in
/-- Without a schema only the name behind the common start is folded twice. -/
theorem lower_append_lower_iff (start name : String) :
    lower (start ++ name) = lower (start ++ lower name) ↔ ¬ GainsFinal start name := by
  rw [← String.toList_inj, toList_lower_append_lower, toList_lower, String.toList_append,
    lowerFrom_append, List.append_nil, List.append_eq_append_iff_of_size_eq_left rfl,
    and_iff_right rfl]
  exact lowerFrom_reverse_iff start name

open Text in
/-- With a schema there are two seams: at the point, and behind the common start. -/
theorem lower_point_iff (schema start rest : String) :
    lower (schema ++ "." ++ start ++ rest) = lower schema ++ "." ++ lower (start ++ lower rest)
      ↔ ¬ LosesFinal schema (start ++ rest) ∧ ¬ GainsFinal schema (start ++ rest)
        ∧ ¬ GainsFinal start rest := by
  have hpoint : isCaseIgnorable '.' = true := by decide +kernel
  have hdot : lowerAt schema.toList.reverse '.' (start ++ rest).toList = ['.'] := by
    rw [lowerAt_other (by decide)]
    rfl
  -- the point is looked past, so the pieces see one another
  have hwhole : (lower (schema ++ "." ++ start ++ rest)).toList
      = lowerIn [] schema.toList (start ++ rest).toList
        ++ '.' :: lowerFrom schema.toList.reverse (start ++ rest).toList := by
    have hbefore : lowerIn [] schema.toList ('.' :: (start ++ rest).toList)
        = lowerIn [] schema.toList (start ++ rest).toList :=
      (lowerIn_after_iff _ _ _).2 (.inl (endsAtLetter_cons_ignorable hpoint _))
    have hbehind : lowerFrom ('.' :: schema.toList.reverse) (start ++ rest).toList
        = lowerFrom schema.toList.reverse (start ++ rest).toList :=
      (lowerFrom_before_iff _ _ _).2 (.inl (endsAtLetter_cons_ignorable hpoint _))
    have hparts : (schema ++ "." ++ start ++ rest).toList
        = schema.toList ++ '.' :: (start ++ rest).toList := by
      simp only [String.toList_append, List.append_assoc]
      rfl
    rw [toList_lower, hparts, lowerFrom_append, lowerFrom_cons, List.append_nil, hbefore, hdot,
      hbehind, List.singleton_append]
  have hpieces : (lower schema ++ "." ++ lower (start ++ lower rest)).toList
      = lowerFrom [] schema.toList
        ++ '.' :: (lowerIn [] start.toList rest.toList ++ lowerFrom [] rest.toList) := by
    rw [String.toList_append, String.toList_append, toList_lower_append_lower, toList_lower,
      List.append_assoc]
    rfl
  have hlength : (lowerIn [] schema.toList (start ++ rest).toList).length
      = (lowerFrom [] schema.toList).length := by
    rw [← lowerIn_nil_right]
    exact length_lowerIn _ _ _ _ _
  rw [← String.toList_inj, hwhole, hpieces, List.append_eq_append_iff_of_size_eq_left hlength,
    List.cons.injEq, and_iff_right rfl, lowerIn_iff, ← lowerFrom_reverse_iff, ← lowerFrom_reverse_iff,
    String.toList_append, lowerFrom_append [] start.toList, List.append_nil]
  refine and_congr_right fun _ => ?_
  constructor
  · intro heq
    rw [lowerFrom_append] at heq
    obtain ⟨-, hrest⟩ := List.append_inj heq (length_lowerIn _ _ _ _ _)
    -- what ends at a letter behind the start ends at it behind schema and start too
    have hown : lowerFrom start.toList.reverse rest.toList = lowerFrom [] rest.toList := by
      rw [lowerFrom_before_iff, endsAtLetter_nil] at hrest ⊢
      refine hrest.imp_left fun hfar => ?_
      by_contra hnear
      rw [endsAtLetter_append (eq_true_of_ne_false hnear)] at hfar
      cases hfar
    rw [← lowerFrom_append] at heq
    exact ⟨heq.trans (by rw [hown]), hown⟩
  · rintro ⟨hwhole, hown⟩
    rw [hwhole, hown]

/-- **The table that is made and the one that is looked up** have one name unless a final sigma
stands at a seam of it. -/
theorem tableName_eq_iff (name start : String) :
    tableName name start = qualified name (split name).1 (bareTableName name start)
      ↔ ¬ Severed name start := by
  unfold tableName bareTableName qualified split Severed
  cases h : Text.splitFirst '.' name with
  | none =>
    rw [if_neg (Text.toList_splitFirst_none h)]
    exact lower_append_lower_iff start name
  | some parts =>
    obtain ⟨schema, rest⟩ := parts
    rw [if_pos (Text.mem_of_splitFirst_some h), not_or, not_or]
    exact lower_point_iff schema start rest

/-- Only a capital sigma severs a name. -/
theorem Severed.sigma_mem {name start : String} (h : Severed name start) :
    '\u03A3' ∈ start.toList ++ name.toList := by
  unfold Severed at h
  cases hs : Text.splitFirst '.' name with
  | none =>
    rw [hs] at h
    exact List.mem_append_right _ h.sigma_mem
  | some parts =>
    obtain ⟨schema, rest⟩ := parts
    rw [hs] at h
    rw [Text.toList_splitFirst_some hs]
    simp only [List.mem_append, List.mem_cons]
    obtain h | h | h := h
    · exact .inr (.inl h.sigma_mem)
    · have hmem := h.sigma_mem
      rw [String.toList_append, List.mem_append] at hmem
      exact hmem.imp_right fun hrest => .inr (.inr hrest)
    · exact .inr (.inr (.inr h.sigma_mem))

/-- A name without a point is looked up in the schema of those that name none. -/
theorem split_of_notMem {name : String} (h : '.' ∉ name.toList) :
    (split name).1 = defaultSchema := by
  unfold split
  cases hs : Text.splitFirst '.' name with
  | none => rfl
  | some parts => exact absurd (Text.mem_of_splitFirst_some hs) h

end Collection

open Sql Collection

/-- What the calls of a store name: the table that is made for a collection, the schema that is made
before it if the collection names one, the schema and the table that are looked up for the
collection and for its indexes, and the schema that an index is dropped from. -/
structure Options.Names (o : Options) (name table schema bare : String) : Prop where
  made : ∀ {indexes plan}, o.addCollectionPlan (.str name) indexes = .ok plan →
    ∃ texts : List String, plan.commands
      = (if '.' ∈ name.toList then [.plain (.createSchema schema)] else [])
        ++ .plain (.createTable table o.idType) :: texts.map fun text => .plain (.index text)
  found : ∃ command, o.hasCollectionQuery (.str name) = .ok command ∧
    command.params = some [("schema", .str schema), ("table", .str bare)]
  foundIndex : ∀ {index command}, o.hasIndexQuery (.str name) index = .ok command →
    ∃ folded, command.params
      = some [("schema", .str schema), ("table", .str bare), ("index", folded)]
  dropped : ∀ {index plan}, o.dropIndexPlan (.str name) index = .ok plan →
    ∃ indexName rest,
      plan.commands = .plain (.index ("DROP INDEX " ++ schema ++ "." ++ indexName)) :: rest

namespace Options

variable (o : Options) (name : String)

theorem addCollection_names {indexes : List (Given Index)} {plan : Plan}
    (h : o.addCollectionPlan (.str name) indexes = .ok plan) :
    ∃ texts : List String, plan.commands
      = (if '.' ∈ name.toList then [.plain (.createSchema (split name).1)] else [])
        ++ .plain (.createTable (tableName name o.tableStart) o.idType)
          :: texts.map fun text => .plain (.index text) := by
  obtain ⟨table, htable, h⟩ := bind_eq_ok.1 h
  obtain ⟨schema, hschema, h⟩ := bind_eq_ok.1 h
  obtain ⟨texts, -, h⟩ := bind_eq_ok.1 h
  cases h
  cases htable
  cases hschema
  refine ⟨texts, ?_⟩
  unfold split
  cases hs : Text.splitFirst '.' name with
  | none =>
    rw [if_neg (Text.toList_splitFirst_none hs)]
    rfl
  | some parts =>
    rw [if_pos (Text.mem_of_splitFirst_some hs)]
    rfl

theorem dropIndex_names {index : Given Index} {plan : Plan}
    (h : o.dropIndexPlan (.str name) index = .ok plan) :
    ∃ indexName rest, plan.commands
      = .plain (.index ("DROP INDEX " ++ (split name).1 ++ "." ++ indexName)) :: rest := by
  obtain ⟨schema, hschema, h⟩ := bind_eq_ok.1 h
  obtain ⟨table, -, h⟩ := bind_eq_ok.1 h
  obtain ⟨texts, htexts, h⟩ := bind_eq_ok.1 h
  obtain ⟨shown, -, h⟩ := bind_eq_ok.1 h
  cases h
  cases hschema
  obtain ⟨named, hnamed, htexts⟩ := bind_eq_ok.1 (refuse_eq_ok.1 htexts)
  cases named with
  | none => cases htexts
  | some indexName =>
    cases htexts
    exact ⟨indexName, _, rfl⟩

theorem hasIndex_names {index : Value} {command : Command}
    (h : o.hasIndexQuery (.str name) index = .ok command) :
    ∃ folded, command.params = some [("schema", .str (split name).1),
      ("table", .str (bareTableName name o.tableStart)), ("index", folded)] := by
  obtain ⟨params, hparams, h⟩ := bind_eq_ok.1 h
  obtain ⟨folded, -, h⟩ := bind_eq_ok.1 h
  cases h
  cases hparams
  exact ⟨folded, rfl⟩

/-- **A collection has one table** for all calls that name it, unless its name is severed: the table
that is made is then not the one that is looked up. -/
theorem names_iff :
    o.Names name (tableName name o.tableStart) (split name).1 (bareTableName name o.tableStart) ∧
      ('.' ∉ name.toList → (split name).1 = defaultSchema) ∧
      (tableName name o.tableStart
          = qualified name (split name).1 (bareTableName name o.tableStart)
        ↔ ¬ Severed name o.tableStart) :=
  ⟨{ made := o.addCollection_names name
     found := ⟨_, rfl, rfl⟩
     foundIndex := o.hasIndex_names name
     dropped := o.dropIndex_names name },
    split_of_notMem, tableName_eq_iff name o.tableStart⟩

end Options

/-- A schema that ends in a final sigma loses it in the name of the table. -/
theorem greek_severed :
    tableName "ΑΣ.x" "em_ds_"
        ≠ (split "ΑΣ.x").1 ++ "." ++ bareTableName "ΑΣ.x" "em_ds_" ∧
      tableName "ΑΣ.x" "em_ds_" = "ασ.em_ds_x" ∧ split "ΑΣ.x" = ("ας", "x") := by
  decide +kernel

end Docbase
