import Docbase.Json.Encode

/-!
# Characters of numbers in JSON text

Numbers are written with digits, signs, a point and an exponent, and two words besides.

* `OfNumbers`: a property of all these characters; `all_int`, `OfNumbers.number`: **it holds of all
  that is written for a number**.
* `number_mark`: no real number is written as a whole one.
-/

namespace Docbase.Json

variable {P : Char → Prop}

theorem all_toDigits (hdigit : ∀ c : Char, c.isDigit = true → P c) (n : Nat) :
    ∀ c ∈ Nat.toDigits 10 n, P c :=
  fun c hc => hdigit c (Nat.isDigit_of_mem_toDigits (by omega) (by omega) hc)

theorem all_int (hdigit : ∀ c : Char, c.isDigit = true → P c) (hminus : P '-') (i : Int) :
    ∀ c ∈ (toString i).toList, P c := by
  cases i with
  | ofNat n =>
    have htext : (toString (Int.ofNat n)).toList = Nat.toDigits 10 n := by simp [toString, Int.repr]
    rw [htext]
    exact all_toDigits hdigit n
  | negSucc n =>
    have htext : (toString (Int.negSucc n)).toList = '-' :: Nat.toDigits 10 (n + 1) := by
      simp [toString, Int.repr]
    rw [htext]
    exact List.forall_mem_cons.2 ⟨hminus, all_toDigits hdigit _⟩

/-- All characters of the text have the property. -/
def All (P : Char → Prop) (s : String) : Prop := ∀ c ∈ s.toList, P c

namespace All

instance [DecidablePred P] (s : String) : Decidable (All P s) :=
  inferInstanceAs (Decidable (∀ c ∈ _, _))

theorem append {s t : String} (hs : All P s) (ht : All P t) : All P (s ++ t) := by
  intro c hc
  rw [String.toList_append, List.mem_append] at hc
  exact hc.elim (hs c) (ht c)

theorem ofList {cs : List Char} (h : ∀ c ∈ cs, P c) : All P (String.ofList cs) := by
  intro c hc
  rw [String.toList_ofList] at hc
  exact h c hc

theorem of_chars {s : String} {cs : List Char} (hcs : s.toList = cs) (h : ∀ c ∈ cs, P c) :
    All P s := by
  rw [All, hcs]
  exact h

end All

/-- The characters of numbers have the property. -/
structure OfNumbers (P : Char → Prop) : Prop where
  digit : ∀ c : Char, c.isDigit = true → P c
  sign : P '-' ∧ P '+'
  point : P '.'
  exponent : P 'e'

namespace OfNumbers

theorem zeros (h : OfNumbers P) (n : Nat) : ∀ c ∈ List.replicate n '0', P c := by
  intro c hc
  rw [List.eq_of_mem_replicate hc]
  exact h.digit _ (by decide)

theorem padded (h : OfNumbers P) (width n : Nat) : ∀ c ∈ Text.padded 10 width n, P c := by
  rw [Text.padded, List.leftpad]
  exact List.forall_mem_append.2 ⟨h.zeros _, all_toDigits h.digit n⟩

/-- Whatever the layout is, only digits, a point and an exponent are written. -/
theorem digitsText (h : OfNumbers P) (layout : FloatLayout) {digits : List Char}
    (hdigits : ∀ c ∈ digits, P c) (point : Int) : All P (layout.digitsText digits point) := by
  have hpoint : All P "." := All.of_chars rfl (List.forall_mem_singleton.2 h.point)
  have hzero : P '0' := h.digit _ (by decide)
  have htake : ∀ n, ∀ c ∈ digits.take n, P c := fun n c hc => hdigits c (List.mem_of_mem_take hc)
  have hdrop : ∀ n, ∀ c ∈ digits.drop n, P c := fun n c hc => hdigits c (List.mem_of_mem_drop hc)
  unfold FloatLayout.digitsText
  split
  · split
    · have hstart : All P "0." := All.of_chars rfl (by simp [hzero, h.point])
      exact hstart.append (All.ofList (List.forall_mem_append.2 ⟨h.zeros _, hdigits⟩))
    · refine ((All.ofList (List.forall_mem_append.2 ⟨htake _, h.zeros _⟩)).append hpoint).append ?_
      split
      · exact All.of_chars rfl (List.forall_mem_singleton.2 hzero)
      · exact All.ofList (hdrop _)
  · refine (((All.ofList (htake 1)).append ?_).append ?_).append (All.ofList (h.padded _ _))
    · split
      · exact All.of_chars rfl (by simp)
      · exact hpoint.append (All.ofList (hdrop 1))
    · split
      · exact All.of_chars rfl (by simp [h.exponent, h.sign])
      · exact All.of_chars rfl (by simp [h.exponent, h.sign])

theorem number (h : OfNumbers P) (hnan : All P "NaN") (hinfinity : All P "Infinity")
    (x : Binary64) : All P (numberLayout.text x) := by
  have hsign : ∀ negative : Bool, All P (if negative then "-" else "") := by
    intro negative
    cases negative with
    | true => exact All.of_chars rfl (List.forall_mem_singleton.2 h.sign.1)
    | false => exact All.of_chars rfl (by simp)
  cases x with
  | nan => exact hnan
  | infinite negative => exact (hsign negative).append hinfinity
  | finite negative m e =>
    refine (hsign negative).append ?_
    split
    · exact All.of_chars rfl (by simp [h.digit '0' (by decide), h.point])
    · -- the zeros at the end of the digits are left out
      refine h.digitsText numberLayout (fun c hc => ?_) _
      have hmem := (List.dropWhile_suffix _).subset (List.mem_reverse.1 hc)
      exact all_toDigits h.digit _ c (List.mem_reverse.1 hmem)

end OfNumbers

/-! ## Real numbers and whole ones -/

/-- The character stands in a whole number. -/
def OfWhole (c : Char) : Prop := c.isDigit = true ∨ c = '-'

theorem digitsText_mark (layout : FloatLayout) (digits : List Char) (point : Int) :
    ∃ c ∈ (layout.digitsText digits point).toList, c = '.' ∨ c = 'e' := by
  unfold FloatLayout.digitsText
  split
  · refine ⟨'.', ?_, .inl rfl⟩
    split <;> simp
  · refine ⟨'e', ?_, .inr rfl⟩
    by_cases h : point - 1 < 0 <;> simp [h]

/-- The text of a real number has a character that stands in no whole one. -/
theorem number_mark (x : Binary64) : ∃ c ∈ (numberLayout.text x).toList, ¬ OfWhole c := by
  have hpart : ∀ {s t : String}, (∃ c ∈ t.toList, ¬ OfWhole c) →
      ∃ c ∈ (s ++ t).toList, ¬ OfWhole c := by
    rintro s t ⟨c, hc, h⟩
    refine ⟨c, ?_, h⟩
    rw [String.toList_append]
    exact List.mem_append_right _ hc
  cases x with
  | nan => exact ⟨'N', by decide, by simp [OfWhole]⟩
  | infinite negative => exact hpart ⟨'I', by decide, by simp [OfWhole]⟩
  | finite negative m e =>
    refine hpart ?_
    split
    · exact ⟨'.', by decide, by simp [OfWhole]⟩
    · obtain ⟨c, hc, rfl | rfl⟩ := digitsText_mark numberLayout _ _
      · exact ⟨_, hc, by simp [OfWhole]⟩
      · exact ⟨_, hc, by simp [OfWhole]⟩

end Docbase.Json
