import Docbase.Sql.Literal
import Mathlib.Algebra.Group.Nat.Even
import Mathlib.Data.List.DropRight
import Mathlib.Data.List.Infix

/-!
# What patterns match

The patterns of `LIKE`: a percent sign stands for any characters, an underscore for one character, and
a backslash takes the character behind it literally.

* `Mark.read?`: the marks of a pattern. There are none if it ends in a backslash that takes nothing.
* `like`: a text matches a pattern.
* `Mark.read?_eq_none`: a pattern has no marks exactly if it ends in an odd number of backslashes.
* `toList_escapeLike`: the three signs of patterns, escaped one behind the other, are escaped at once.
* `like_escapeLike_start`: **the pattern of a start matches exactly the texts that start so.**
* `like_escapeLike`: **the pattern of a text matches that text alone**, and is complete.
-/

namespace Docbase.Sql

/-- The characters that a pattern does not take literally. -/
def isPatternChar (c : Char) : Bool := c == '\\' || c == '%' || c == '_'

/-- The three signs of patterns escaped at once. -/
def escapePattern : List Char → List Char
  | [] => []
  | c :: cs => if isPatternChar c then '\\' :: c :: escapePattern cs else c :: escapePattern cs

/-- **The three signs, escaped one behind the other, are escaped at once**, as the backslash is the
first of them. -/
theorem toList_escapeLike (s : String) : (escapeLike s).toList = escapePattern s.toList := by
  have hone : ∀ c, escapeSign '_' (escapeSign '%' (escapeSign '\\' [c])) =
      if isPatternChar c then ['\\', c] else [c] := by
    intro c
    by_cases hback : c = '\\'
    · subst hback; decide
    by_cases hpercent : c = '%'
    · subst hpercent; decide
    by_cases hunder : c = '_'
    · subst hunder; decide
    simp [escapeSign, isPatternChar, hback, hpercent, hunder]
  have happend : ∀ (sign : Char) (cs ds : List Char),
      escapeSign sign (cs ++ ds) = escapeSign sign cs ++ escapeSign sign ds :=
    fun _ _ _ => List.flatMap_append
  rw [escapeLike, String.toList_ofList]
  induction s.toList with
  | nil => rfl
  | cons c cs ih =>
    rw [← List.singleton_append, happend, happend, happend, ih, hone, List.singleton_append,
      escapePattern]
    split
    · rfl
    · rfl

/-- With the backslash last, the pattern of a percent sign would be that of a backslash and anything
behind it. -/
example : escapeSign '\\' (escapeSign '%' ['%']) = ['\\', '\\', '%'] := by decide

/-- A mark of a pattern. -/
inductive Mark
  /-- Any characters. -/
  | many
  /-- Any one character. -/
  | one
  | this (c : Char)
  deriving DecidableEq

namespace Mark

/-- The mark of a character without a backslash before it. -/
def ofChar (c : Char) : Mark :=
  if c = '%' then many else if c = '_' then one else this c

/-- The marks of a pattern. -/
def read? : List Char → Option (List Mark)
  | [] => some []
  | ['\\'] => none
  | '\\' :: c :: cs => (read? cs).map (this c :: ·)
  | c :: cs => (read? cs).map (ofChar c :: ·)

/-- Characters match marks, from the first to the last. -/
def fit : List Mark → List Char → Bool
  | [], cs => cs.isEmpty
  | many :: marks, cs => cs.tails.any fun rest => fit marks rest
  | one :: marks, _ :: cs => fit marks cs
  | this c :: marks, d :: cs => c == d && fit marks cs
  | one :: _, [] | this _ :: _, [] => false

theorem read?_plain {c : Char} (hc : c ≠ '\\') (cs : List Char) :
    read? (c :: cs) = (read? cs).map (ofChar c :: ·) := by
  rw [read?]
  · rintro rfl
    exact absurd rfl hc
  · rintro _ _ rfl
    exact absurd rfl hc

/-- Escaped characters are read as themselves, whatever comes behind them. -/
theorem read?_escapePattern (cs rest : List Char) :
    read? (escapePattern cs ++ rest) = (read? rest).map (cs.map this ++ ·) := by
  have hcons : ∀ (m : Mark) (marks : List Mark),
      ((read? rest).map (marks ++ ·)).map (m :: ·) = (read? rest).map (m :: marks ++ ·) := by
    intro m marks
    rw [Option.map_map]
    rfl
  induction cs with
  | nil => simp [escapePattern]
  | cons c cs ih =>
    by_cases hc : isPatternChar c = true
    · rw [escapePattern, if_pos hc, List.cons_append, List.cons_append, read?, ih, hcons]
      rfl
    · -- a character that is not escaped is no sign of a pattern
      have hplain : c ≠ '\\' ∧ c ≠ '%' ∧ c ≠ '_' := by
        simpa [isPatternChar, not_or, and_assoc] using hc
      obtain ⟨hback, hpercent, hunder⟩ := hplain
      have hmark : ofChar c = this c := by rw [ofChar, if_neg hpercent, if_neg hunder]
      rw [escapePattern, if_neg hc, List.cons_append, read?_plain hback, ih, hmark, hcons]
      rfl

/-- Characters that stand for themselves match at the start only. -/
theorem fit_this_append (cs : List Char) (marks : List Mark) (ds : List Char) :
    fit (cs.map this ++ marks) ds = true ↔ ∃ rest, ds = cs ++ rest ∧ fit marks rest = true := by
  induction cs generalizing ds with
  | nil => simp
  | cons c cs ih =>
    cases ds with
    | nil => simp [fit]
    | cons d ds =>
      rw [List.map_cons, List.cons_append, fit, Bool.and_eq_true, beq_iff_eq, ih]
      constructor
      · rintro ⟨rfl, rest, rfl, hrest⟩
        exact ⟨rest, rfl, hrest⟩
      · rintro ⟨rest, hds, hrest⟩
        obtain ⟨rfl, rfl⟩ := List.cons.inj hds
        exact ⟨rfl, rest, rfl, hrest⟩

/-- All characters standing for themselves, a text is matched by itself only. -/
theorem fit_this (cs ds : List Char) : fit (cs.map this) ds = true ↔ ds = cs := by
  have happend := fit_this_append cs [] ds
  rw [List.append_nil] at happend
  rw [happend]
  constructor
  · rintro ⟨rest, rfl, hrest⟩
    rw [fit, List.isEmpty_iff] at hrest
    rw [hrest, List.append_nil]
  · rintro rfl
    exact ⟨[], (List.append_nil ds).symm, rfl⟩

theorem fit_many (cs : List Char) : fit [many] cs = true := by
  rw [fit, List.any_eq_true]
  exact ⟨[], (List.mem_tails _ _).2 List.nil_suffix, rfl⟩

/-- The number of backslashes that characters end in. -/
def closing (cs : List Char) : Nat := (cs.rtakeWhile (· == '\\')).length

/-- A character in front counts only if it is a backslash and so is all behind it. -/
theorem closing_cons (c : Char) (cs : List Char) :
    closing (c :: cs) = if closing cs = cs.length ∧ c = '\\' then closing cs + 1 else closing cs := by
  unfold closing List.rtakeWhile
  simp only [List.reverse_cons, List.takeWhile_append, List.length_reverse]
  by_cases hall : (cs.reverse.takeWhile (· == '\\')).length = cs.length
  · by_cases hc : c = '\\'
    · simp [hall, hc]
    · simp [hall, hc]
  · simp [hall]

theorem closing_le (cs : List Char) : closing cs ≤ cs.length :=
  (List.rtakeWhile_suffix _ cs).length_le

/-- A backslash in front and the character that it takes do not change whether the backslashes at the
end are even in number. -/
theorem even_closing_taken (c : Char) (cs : List Char) :
    Even (closing ('\\' :: c :: cs)) ↔ Even (closing cs) := by
  have hle := closing_le cs
  rw [closing_cons, closing_cons, List.length_cons]
  by_cases hall : closing cs = cs.length ∧ c = '\\'
  · rw [if_pos hall, hall.1, if_pos ⟨rfl, rfl⟩, Nat.even_add_one, Nat.even_add_one, not_not]
  · have hless : closing cs ≠ cs.length + 1 := by omega
    rw [if_neg hall, if_neg fun h => hless h.1]

/-- **A pattern is incomplete exactly if it ends in an odd number of backslashes**: the last of them
takes nothing. -/
theorem read?_eq_none (cs : List Char) : read? cs = none ↔ ¬ Even (closing cs) := by
  fun_induction read? cs with
  | case1 => simp [closing]
  | case2 =>
    have hone : closing ['\\'] = 1 := rfl
    simp [hone]
  | case3 c cs ih => rw [Option.map_eq_none_iff, ih, even_closing_taken]
  | case4 c cs hlast htaken ih =>
    -- a character that is no backslash ends whatever stands behind it
    have hc : c ≠ '\\' := by
      rintro rfl
      cases cs with
      | nil => exact hlast rfl rfl
      | cons d ds => exact htaken d ds rfl rfl
    rw [Option.map_eq_none_iff, ih, closing_cons, if_neg fun h => hc h.2]

end Mark

/-- The text matches the pattern. A pattern that ends in a backslash with nothing behind it matches
nothing. -/
def like (pattern text : String) : Bool :=
  (Mark.read? pattern.toList).any fun marks => Mark.fit marks text.toList

/-- **The pattern of a start matches exactly the texts that start so**, whatever signs of patterns are
in the start. -/
theorem like_escapeLike_start (start text : String) :
    like (escapeLike start ++ "%") text = true ↔ start.toList <+: text.toList := by
  have hmarks : Mark.read? (escapeLike start ++ "%").toList
      = some (start.toList.map Mark.this ++ [.many]) := by
    rw [String.toList_append, toList_escapeLike, Mark.read?_escapePattern]
    rfl
  rw [like, hmarks, Option.any_some, Mark.fit_this_append]
  constructor
  · rintro ⟨rest, hrest, -⟩
    exact ⟨rest, hrest.symm⟩
  · rintro ⟨rest, hrest⟩
    exact ⟨rest, hrest.symm, Mark.fit_many rest⟩

/-- **The pattern of a text matches that text alone**, and with a percent sign behind it exactly the
texts that start with it. Neither pattern ends in a backslash that takes nothing. -/
theorem like_escapeLike (s t : String) :
    (like (escapeLike s ++ "%") t = true ↔ s.toList <+: t.toList) ∧
    (like (escapeLike s) t = true ↔ t = s) ∧
    Even (Mark.closing (escapeLike s).toList) ∧
    Even (Mark.closing (escapeLike s ++ "%").toList) := by
  have hmarks : Mark.read? (escapeLike s).toList = some (s.toList.map Mark.this) := by
    have hread := Mark.read?_escapePattern s.toList []
    rw [List.append_nil] at hread
    rw [toList_escapeLike, hread]
    simp [Mark.read?]
  have heven : Even (Mark.closing (escapeLike s).toList) := by
    have hnone := Mark.read?_eq_none (escapeLike s).toList
    rw [hmarks] at hnone
    simpa using hnone
  refine ⟨like_escapeLike_start s t, ?_, heven, ?_⟩
  · rw [like, hmarks, Option.any_some, Mark.fit_this, String.toList_inj]
  · -- the percent sign is the last character, and no backslash
    have hpercent : Mark.closing (escapeLike s ++ "%").toList = 0 := by
      rw [String.toList_append, Mark.closing]
      exact congrArg List.length (List.rtakeWhile_concat_neg _ _ _ (by decide))
    rw [hpercent]
    exact Even.zero

/-- An underscore in a start stands for itself, and one in a pattern for any character. -/
example : like (escapeLike "a_" ++ "%") "a_b" = true ∧ like (escapeLike "a_" ++ "%") "axb" = false ∧
    like "a_%" "axb" = true := by decide

end Docbase.Sql
