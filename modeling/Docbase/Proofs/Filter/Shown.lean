import Docbase.Proofs.Field
import Docbase.Proofs.Filter.Numbering
import Docbase.Proofs.Sql.Format
import Docbase.Proofs.Sql.Identifier

/-!
# What callers write into a statement

Paths of fields go into the text of statements, key by key. These lemmas say which keys there are
in the text of an operand and of a condition, and that all else in it is plain.

* `Shows`: a text is put together from these texts of callers and these places.
* `Resolver.keysAt`: the keys of a path that are written out; a promoted path is none of them.
* `Filter.keys`: those of a filter. A set test without values shows none.
* `Filter.shows_of_clause`: **the text of an accepted filter shows its keys and the names of its
  values**.
-/

namespace Docbase

open Sql

namespace Sql

/-- The text is put together from plain pieces, with these texts of callers and these places. -/
def Shows (s : String) (callers labels : List String) : Prop :=
  ∃ ps : List (Piece String), Piece.concat ps = s ∧ (∀ p ∈ ps, p.Plain) ∧
    Piece.callers ps = callers ∧ Piece.labels ps = labels

namespace Shows

variable {s t : String} {c d l m : List String}

theorem empty : Shows "" [] [] := ⟨[], rfl, by simp, rfl, rfl⟩

theorem text (h : '%' ∉ s.toList) : Shows s [] [] :=
  ⟨[.text s], by simp [Piece.concat, Piece.print], by simpa [Piece.Plain] using h, rfl, rfl⟩

theorem hole {n : String} (h : Bare n) : Shows (placeholder n) [] [n] :=
  ⟨[.hole n], by simp [Piece.concat, Piece.print], by simpa [Piece.Plain] using h, rfl, rfl⟩

theorem table (name : String) : Shows (name ++ " ") [name] [] :=
  ⟨[.table name], by simp [Piece.concat, Piece.print], by simp [Piece.Plain], rfl, rfl⟩

theorem append (hs : Shows s c l) (ht : Shows t d m) : Shows (s ++ t) (c ++ d) (l ++ m) := by
  obtain ⟨ps, rfl, hps, rfl, rfl⟩ := hs
  obtain ⟨qs, rfl, hqs, rfl, rfl⟩ := ht
  refine ⟨ps ++ qs, by simp, ?_, by simp, by simp⟩
  intro p hp
  rcases List.mem_append.1 hp with hp | hp
  · exact hps p hp
  · exact hqs p hp

/-- Texts with a separator between them. -/
theorem intercalate {α : Type} {sep : String} (hsep : '%' ∉ sep.toList) {f : α → String}
    {g k : α → List String} {xs : List α} (h : ∀ x ∈ xs, Shows (f x) (g x) (k x)) :
    Shows (sep.intercalate (xs.map f)) (xs.flatMap g) (xs.flatMap k) := by
  induction xs with
  | nil => exact empty
  | cons x xs ih =>
    obtain ⟨hx, hxs⟩ : Shows (f x) (g x) (k x) ∧ ∀ x ∈ xs, Shows (f x) (g x) (k x) := by
      simpa using h
    cases xs with
    | nil => simpa using hx
    | cons y ys =>
      have hrest := hx.append ((text hsep).append (ih hxs))
      simpa [String.intercalate_cons_cons, String.append_assoc] using hrest

end Shows

theorem bare_paramName (n : Nat) : Bare (paramName n) := by
  refine ⟨?_, ?_, ?_⟩ <;> intro hc <;> have := mem_paramName hc <;> revert this <;> decide

theorem bare_columnParam (i : Identifier) : Bare (columnParam i) := by
  have hnot : ∀ c, c ∉ "meta_".toList → isNameChar c = false → c ≠ '\n' →
      c ∉ (columnParam i).toList := by
    intro c hmeta hc hn
    rw [columnParam, String.toList_append, List.mem_append, not_or]
    exact ⟨hmeta, i.notMem hc hn⟩
  refine ⟨hnot _ ?_ ?_ ?_, hnot _ ?_ ?_ ?_, hnot _ ?_ ?_ ?_⟩ <;> decide

theorem docColumn_plain : '%' ∉ docColumn.toList := by decide

theorem arrowPieces_plain (keys : List String) :
    ∀ p ∈ (arrowPieces keys : List (Piece String)), p.Plain := by
  induction keys with
  | nil => simp [arrowPieces]
  | cons k ks ih => simpa [arrowPieces, Piece.Plain] using ih

/-- The operand is printed with these keys, and with nothing else that could be misread. -/
def Operand.Shown (o : Operand) (keys : List String) : Prop :=
  Piece.callers (o.pieces : List (Piece String)) = keys ∧
    ∀ p ∈ (o.pieces : List (Piece String)), p.Plain

/-- So is the condition. -/
def Condition.Shown (c : Condition) (keys : List String) : Prop :=
  ∀ n, Piece.callers (c.named n) = keys ∧ ∀ p ∈ c.named n, p.Plain

theorem Operand.id_shown : Operand.id.Shown [] := by
  refine ⟨rfl, ?_⟩
  simp [Operand.pieces, Piece.Plain, idColumn]

theorem Operand.Shown.shows {o : Operand} {keys : List String} (h : o.Shown keys) :
    Shows o.text keys [] :=
  ⟨o.pieces, concat_operand o, h.2, h.1, labels_operand o⟩

namespace Condition

variable {o : Operand} {keys : List String} {c d : Condition}

theorem shown_test (h : o.Shown keys) (operator : Operator) (v : Value) :
    (test o operator v).Shown keys := by
  intro n
  have hsymbol : '%' ∉ (" " ++ operator.symbol ++ " ").toList := by cases operator <;> decide
  have hn : (test o operator v).named n =
      o.pieces ++ [.text (" " ++ operator.symbol ++ " "), .hole (paramName n)] := by
    simp [named, pieces, Piece.map]
  rw [hn]
  refine ⟨by simp [Piece.callers, h.1], ?_⟩
  intro p hp
  simp only [List.mem_append, List.mem_cons, List.not_mem_nil, or_false] at hp
  rcases hp with hp | rfl | rfl
  · exact h.2 p hp
  · exact hsymbol
  · exact bare_paramName n

theorem shown_among (h : o.Shown keys) (vs : List Value) (negated : Bool) :
    (among o vs negated).Shown (if vs.isEmpty then [] else keys) := by
  intro n
  -- without values there is no test of the operand, and nothing of it is written
  by_cases hvs : vs = []
  · subst hvs
    refine ⟨rfl, ?_⟩
    cases negated <;> simp [named, pieces, Piece.map, Piece.Plain]
  · have he : vs.isEmpty = false := by simpa using hvs
    have hn : (among o vs negated).named n =
        o.pieces ++ .text (if negated then " NOT IN(" else " IN(") ::
          (Piece.holes (paramNames n vs.length) ++ [.text ")"]) := by
      simp [named, pieces, Piece.map, Piece.map_holes, he, paramNames]
    have hset : '%' ∉ (if negated then " NOT IN(" else " IN(").toList := by
      cases negated <;> decide
    have hholes : ∀ p ∈ Piece.holes (paramNames n vs.length), p.Plain := by
      refine Piece.holes_plain fun m hm => ?_
      obtain ⟨k, -, -, rfl⟩ := mem_paramNames.1 hm
      exact bare_paramName k
    rw [hn, he]
    refine ⟨by simp [Piece.callers, h.1], ?_⟩
    intro p hp
    simp only [List.mem_append, List.mem_cons, List.not_mem_nil, or_false] at hp
    rcases hp with hp | rfl | hp | rfl
    · exact h.2 p hp
    · exact hset
    · exact hholes p hp
    · simp [Piece.Plain]

theorem shown_filled (column : Identifier) : (filled column).Shown [] := by
  intro n
  refine ⟨rfl, ?_⟩
  simpa [named, pieces, Piece.map, Piece.Plain] using column.percent_notMem

theorem shown_hasKey (keys : List String) (key : String) :
    (hasKey docColumn keys key).Shown (keys ++ [key]) := by
  intro n
  have hn : (hasKey docColumn keys key).named n =
      .text "JSONB_EXISTS(" :: .text docColumn ::
        (arrowPieces keys ++ [.text ", ", .key key, .text ")"]) := by
    simp [named, pieces, Piece.map]
  rw [hn]
  refine ⟨by simp [Piece.callers], ?_⟩
  intro p hp
  simp only [List.mem_append, List.mem_cons, List.not_mem_nil, or_false] at hp
  rcases hp with rfl | rfl | hp | rfl | rfl | rfl
  · simp [Piece.Plain]
  · exact docColumn_plain
  · exact arrowPieces_plain keys p hp
  · simp [Piece.Plain]
  · trivial
  · simp [Piece.Plain]

theorem shown_negate (h : c.Shown keys) : (negate c).Shown keys := by
  intro n
  have hn : (negate c).named n = .text "NOT " :: c.named n := by
    simp [named, pieces, Piece.map]
  rw [hn]
  exact ⟨(h n).1, by simpa [Piece.Plain] using (h n).2⟩

/-- What two joined conditions show. -/
theorem shown_join {more : List String} (hc : c.Shown keys) (hd : d.Shown more)
    {connector : String} (hplain : '%' ∉ connector.toList) {joint : Condition}
    (hj : ∀ n, joint.named n = .text "(" :: (c.named n ++ .text connector ::
      (d.named (n + c.values.length) ++ [.text ")"]))) : joint.Shown (keys ++ more) := by
  intro n
  obtain ⟨hck, hcp⟩ := hc n
  obtain ⟨hdk, hdp⟩ := hd (n + c.values.length)
  rw [hj]
  refine ⟨by simp [Piece.callers, hck, hdk], ?_⟩
  intro p hp
  simp only [List.mem_append, List.mem_cons, List.not_mem_nil, or_false] at hp
  rcases hp with rfl | hp | rfl | hp | rfl
  · simp [Piece.Plain]
  · exact hcp p hp
  · exact hplain
  · exact hdp p hp
  · simp [Piece.Plain]

end Condition

end Sql

/-! ## Operands -/

namespace Resolver

variable {r : Resolver}

/-- The keys of a path that are written into a statement. -/
def keysAt (r : Resolver) (path : String) : List String :=
  if r.isPromoted path then [] else Text.split '.' path

theorem operand_shown (hr : r.base = docColumn) {path : String} {operand : Operand}
    (h : r.operand path = .ok operand) : operand.Shown (r.keysAt path) := by
  rw [Resolver.operand] at h
  rw [keysAt]
  split at h
  · rename_i hp
    obtain ⟨column, -, rfl⟩ := map_eq_ok.1 h
    rw [if_pos hp]
    exact ⟨rfl, by simpa [Operand.pieces, Piece.Plain] using column.percent_notMem⟩
  · rename_i hp
    obtain ⟨keys, hkeys, rfl⟩ := map_eq_ok.1 h
    rw [if_neg hp, ← segments_ok hkeys, hr]
    refine ⟨by simp [Operand.pieces, Piece.callers], ?_⟩
    simpa [Operand.pieces, Piece.Plain, docColumn_plain] using arrowPieces_plain keys

theorem textOperand_shown (hr : r.base = docColumn) {path : String} {operand : Operand}
    (h : r.textOperand path = .ok operand) : operand.Shown (r.keysAt path) := by
  rw [textOperand] at h
  rw [keysAt]
  split at h
  · rename_i hp
    obtain ⟨column, -, rfl⟩ := map_eq_ok.1 h
    rw [if_pos hp]
    have hcolumn : '%' ∉ (column.text ++ "::text").toList := by
      simpa using column.percent_notMem
    exact ⟨rfl, by simpa [Operand.pieces, Piece.Plain] using hcolumn⟩
  · rename_i hp
    obtain ⟨⟨keys, key⟩, hkeys, rfl⟩ := map_eq_ok.1 h
    rw [if_neg hp, ← splitParent_ok hkeys, hr]
    refine ⟨by simp [Operand.pieces, Piece.callers], ?_⟩
    intro p hp
    simp only [Operand.pieces, List.mem_cons, List.mem_append, List.not_mem_nil, or_false] at hp
    rcases hp with rfl | hp | rfl | rfl
    · exact docColumn_plain
    · exact arrowPieces_plain keys p hp
    · simp [Piece.Plain]
    · trivial

end Resolver

/-! ## Filters -/

namespace Filter

variable {r : Resolver} {f : Filter} {c : Condition}

/-- The keys of a filter that are written into a statement, from left to right. -/
def keys (r : Resolver) : Filter → List String
  | both a b | either a b => a.keys r ++ b.keys r
  | negate inner => inner.keys r
  | compare _ path _ | like path _ | contains path _ | present path => r.keysAt path
  | oneOf path values => if values.isEmpty then [] else r.keysAt path
  | any | id _ | idIn _ | unknown _ => []

/-- A leaf is printed with its keys. -/
theorem LeafStandsFor.shown {negated : Bool} (hr : r.base = docColumn)
    (h : LeafStandsFor r negated f c) : c.Shown (f.keys r) := by
  cases h with
  | compare ho hb => exact Condition.shown_test (Resolver.operand_shown hr ho) _ _
  | like ho => exact Condition.shown_test (Resolver.textOperand_shown hr ho) _ _
  | contains ho hb => exact Condition.shown_test (Resolver.operand_shown hr ho) _ _
  | filled hp hc =>
    rw [keys, Resolver.keysAt, if_pos hp]
    exact Condition.shown_filled _
  | hasKey hp hs =>
    rw [keys, Resolver.keysAt, if_neg (by simp [hp]), ← Resolver.splitParent_ok hs, hr]
    exact Condition.shown_hasKey _ _
  | id => exact Condition.shown_test Operand.id_shown _ _
  | @idIn values =>
    have hkeys : (Filter.idIn values).keys r = [] := rfl
    rw [hkeys]
    simpa using Condition.shown_among Operand.id_shown (values.map .str) negated
  | @oneOf path values bound operand ho hb =>
    -- values are bound one for one, so that none are bound exactly if none are given
    have hlen := congrArg List.length (bindValues_ok hb)
    simp only [List.length_map] at hlen
    have he : bound.isEmpty = values.isEmpty := by
      cases bound <;> cases values <;> simp at hlen ⊢
    rw [keys, ← he]
    exact Condition.shown_among (Resolver.operand_shown hr ho) bound negated

theorem StandsFor.shown (hr : r.base = docColumn) (h : StandsFor r f c) : c.Shown (f.keys r) := by
  induction h with
  | both _ _ iha ihb =>
    have hplain : '%' ∉ " AND ".toList := by decide
    refine Condition.shown_join iha ihb hplain fun n => ?_
    simp [Condition.named, Condition.pieces, Piece.map]
  | either _ _ iha ihb =>
    have hplain : '%' ∉ " OR ".toList := by decide
    refine Condition.shown_join iha ihb hplain fun n => ?_
    simp [Condition.named, Condition.pieces, Piece.map]
  | negate _ h =>
    have hs := h.shown hr
    exact Condition.shown_negate hs
  | negatedSet _ h =>
    have hs := h.shown hr
    exact hs
  | leaf h => exact h.shown hr

/-- **The text of an accepted filter shows its keys and the names of its values.** -/
theorem shows_of_clause (hr : r.base = docColumn) {cl : Clause} (h : f.clause r = .ok cl) :
    Shows cl.whereText (f.keys r) cl.params.names := by
  by_cases hf : f = .any
  · subst hf
    cases h
    exact Shows.empty
  · obtain ⟨c, hc, hcl⟩ := condition_of_clause h hf
    have hs := stands_of_condition hc
    have hwhere : cl.whereText = "WHERE " ++ Piece.concat (c.named 0) := by
      rw [← hcl, Clause.whereText, c.print_eq]
    have hnames : cl.params.names = Piece.labels (c.named 0) := by
      rw [← hcl, c.print_eq, names_numbered, Condition.named, Piece.labels_map, c.labels_pieces]
      rfl
    obtain ⟨hkeys, hplain⟩ := hs.shown hr 0
    rw [hwhere, hnames]
    exact (Shows.text (by decide)).append ⟨_, rfl, hplain, hkeys, rfl⟩

end Filter

end Docbase
