import Docbase.Proofs.Outcome
import Docbase.Sql.Identifier

/-!
# Characters of identifiers

* `Identifier.mem_chars`: an identifier is made of letters, digits and underscores, and a line feed
  at most.
* `Identifier.notMem`: so nothing that means something else in SQL is in it.
* `Identifier.start`: it starts with a letter or an underscore.
* `Identifier.ofText_error_iff`, `Identifier.ofText_rejects`: any other text is refused.
* `readName`: what a name without quotes is read as; `readName_identifier`: for an identifier this
  drops no more than a line feed at the end.
-/

namespace Docbase.Sql

theorem isNameChar_of_start {c : Char} (h : isNameStart c = true) : isNameChar c = true := by
  simp only [isNameStart, isNameChar, Char.isAlphanum, Bool.or_eq_true] at h ⊢
  tauto

theorem isNameRest_mem {cs : List Char} (h : isNameRest cs = true) :
    ∀ c ∈ cs, isNameChar c = true ∨ c = '\n' := by
  fun_induction isNameRest cs with
  | case1 => simp
  | case2 => simp
  | case3 c cs _ ih =>
    obtain ⟨hc, hcs⟩ : isNameChar c = true ∧ isNameRest cs = true := by simpa using h
    intro d hd
    rcases List.mem_cons.1 hd with rfl | hd
    · exact .inl hc
    · exact ih hcs d hd

namespace Identifier

variable (i : Identifier)

/-- An identifier starts with a letter or an underscore. -/
theorem start :
    ∃ c cs, i.text.toList = c :: cs ∧ isNameStart c = true ∧ isNameRest cs = true := by
  have hv := i.valid
  unfold isIdentifier at hv
  split at hv
  · cases hv
  · rename_i c cs he
    obtain ⟨hc, hcs⟩ : isNameStart c = true ∧ isNameRest cs = true := by simpa using hv
    exact ⟨c, cs, he, hc, hcs⟩

/-- It goes on with letters, digits and underscores, and a line feed at most. -/
theorem mem_chars {c : Char} (h : c ∈ i.text.toList) : isNameChar c = true ∨ c = '\n' := by
  obtain ⟨d, cs, he, hd, hcs⟩ := i.start
  rw [he] at h
  rcases List.mem_cons.1 h with rfl | h
  · exact .inl (isNameChar_of_start hd)
  · exact isNameRest_mem hcs c h

/-- No other character is in it. -/
theorem notMem {c : Char} (h : isNameChar c = false) (hn : c ≠ '\n') : c ∉ i.text.toList := by
  intro hc
  rcases i.mem_chars hc with hc | hc
  · rw [h] at hc
    cases hc
  · exact hn hc

theorem percent_notMem : '%' ∉ i.text.toList := i.notMem (by decide) (by decide)

/-- A text that is no identifier is refused. -/
theorem ofText_error_iff {s : String} (context : List (String × Value)) :
    (∃ c, ofText s context = .error c) ↔ isIdentifier s.toList = false := by
  unfold ofText
  by_cases h : isIdentifier s.toList = true
  · simp [h]
  · simp [Bool.eq_false_iff.2 h]

/-- And for what it is. -/
theorem ofText_rejects (s : String) (context : List (String × Value)) :
    FailsWith (fun c => c.isConnection = false) (ofText s context) := by
  unfold ofText
  split
  · exact .ok _
  · exact .error rfl

end Identifier

/-! ## Names without quotes -/

/-- White space between the words of a statement. -/
def isSqlBlank (c : Char) : Bool :=
  c == ' ' || c == '\t' || c == '\n' || c == '\r' || c == '\x0b' || c == '\x0c'

/-- Characters without the white space at the two ends. -/
def trimmed (cs : List Char) : List Char :=
  ((cs.dropWhile isSqlBlank).reverse.dropWhile isSqlBlank).reverse

/-- What a name without quotes is read as: without white space around it and without capital
letters. -/
def readName (s : String) : List Char := (trimmed s.toList).map Char.toLower

/-- Characters without a line feed at the end. -/
def chomped : List Char → List Char
  | [] => []
  | ['\n'] => []
  | c :: cs => c :: chomped cs

theorem isNameChar_not_blank {c : Char} (h : isNameChar c = true) : isSqlBlank c = false := by
  rw [Bool.eq_false_iff]
  intro hb
  simp only [isSqlBlank, Bool.or_eq_true, beq_iff_eq] at hb
  rcases hb with ((((rfl | rfl) | rfl) | rfl) | rfl) | rfl <;> exact absurd h (by decide)

/-- Behind its first character an identifier has only characters of names, and a line feed at the end
at most. -/
theorem chomped_nameRest {cs : List Char} (h : isNameRest cs = true) :
    (∀ c ∈ chomped cs, isNameChar c = true) ∧ (cs = chomped cs ∨ cs = chomped cs ++ ['\n']) := by
  induction cs with
  | nil => simp [chomped]
  | cons c cs ih =>
    by_cases hend : c = '\n' ∧ cs = []
    · obtain ⟨rfl, rfl⟩ := hend
      exact ⟨by simp [chomped], .inr rfl⟩
    · have hcons : isNameRest (c :: cs) = (isNameChar c && isNameRest cs) := by
        rw [isNameRest]
        simpa using hend
      have hchomped : chomped (c :: cs) = c :: chomped cs := by
        rw [chomped]
        simpa using hend
      rw [hcons, Bool.and_eq_true] at h
      obtain ⟨hchars, hrest⟩ := ih h.2
      rw [hchomped]
      refine ⟨?_, ?_⟩
      · intro d hd
        rcases List.mem_cons.1 hd with rfl | hd
        · exact h.1
        · exact hchars d hd
      · rcases hrest with hrest | hrest
        · exact .inl (by rw [← hrest])
        · exact .inr (by rw [List.cons_append, ← hrest])

/-- There is nothing to drop where no white space is. -/
theorem dropWhile_blank {cs : List Char} (h : ∀ c ∈ cs, isSqlBlank c = false) :
    cs.dropWhile isSqlBlank = cs := by
  cases cs with
  | nil => rfl
  | cons c cs => rw [List.dropWhile_cons_of_neg (by simp [h c List.mem_cons_self])]

theorem trimmed_lineFeed {cs : List Char} (h : ∀ c ∈ cs, isSqlBlank c = false) :
    trimmed cs = cs ∧ trimmed (cs ++ ['\n']) = cs := by
  have hreverse : ∀ c ∈ cs.reverse, isSqlBlank c = false := fun c hc => h c (List.mem_reverse.1 hc)
  constructor
  · rw [trimmed, dropWhile_blank h, dropWhile_blank hreverse, List.reverse_reverse]
  · cases cs with
    | nil => rfl
    | cons c cs =>
      have hfront : (c :: cs ++ ['\n']).dropWhile isSqlBlank = c :: cs ++ ['\n'] := by
        rw [List.cons_append, List.dropWhile_cons_of_neg (by simp [h c List.mem_cons_self])]
      have hblank : isSqlBlank '\n' = true := rfl
      rw [trimmed, hfront, List.reverse_append, List.reverse_singleton, List.singleton_append,
        List.dropWhile_cons_of_pos hblank, dropWhile_blank hreverse, List.reverse_reverse]

/-- An identifier has only characters of names, but for a line feed at its end. -/
theorem Identifier.chomped_chars (i : Identifier) :
    (∀ c ∈ chomped i.text.toList, isNameChar c = true) ∧
      (i.text.toList = chomped i.text.toList ∨ i.text.toList = chomped i.text.toList ++ ['\n']) := by
  have hrest : isNameRest i.text.toList = true := by
    obtain ⟨c, cs, he, hstart, hcs⟩ := i.start
    have hc : isNameChar c = true := isNameChar_of_start hstart
    have hne : ¬ (c = '\n' ∧ cs = []) := by
      rintro ⟨rfl, -⟩
      exact absurd hc (by decide)
    rw [he, isNameRest, hc, hcs]
    · rfl
    · simpa using hne
  exact chomped_nameRest hrest

/-- An identifier is read without a line feed at its end and without capital letters. -/
theorem readName_identifier (i : Identifier) :
    readName i.text = (chomped i.text.toList).map Char.toLower := by
  obtain ⟨hchars, hcases⟩ := i.chomped_chars
  have hblank : ∀ c ∈ chomped i.text.toList, isSqlBlank c = false :=
    fun c hc => isNameChar_not_blank (hchars c hc)
  have htrimmed : trimmed i.text.toList = chomped i.text.toList := by
    rcases hcases with hcases | hcases
    · exact (congrArg trimmed hcases).trans (trimmed_lineFeed hblank).1
    · exact (congrArg trimmed hcases).trans (trimmed_lineFeed hblank).2
  rw [readName, htrimmed]

end Docbase.Sql
