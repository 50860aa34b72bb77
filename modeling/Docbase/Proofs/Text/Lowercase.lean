import Docbase.Text.Lowercase
import Mathlib.Data.List.Chain
import Mathlib.Data.List.Induction

/-!
# Lower case of parts of a text

The final sigma makes the lower-case form of a text depend on what stands around it. How far:

* `lowerIn`: the lower-case form of a part of a text, between what stands before and behind it.
* `lowerFrom_before_iff`, `lowerIn_after_iff`: what stands around a part matters to its first or to
  its last capital sigma only, and only in whether a word goes on there.
* `lowerFrom_lowerFrom`: lower case stays as it is.
* `endsAtLetter_lowerFrom`: lower case keeps where words end.
* `GainsFinal`, `LosesFinal`: two texts that do not have the lower-case form of what they make up
  together.
* `toList_lower_ascii`: in ASCII nothing of that matters.
-/

namespace Docbase.Text

/-! ## The tables -/

/-- One of the ranges holds all numbers from `first` to `last`. -/
def Ranges.covers (runs : Ranges) (first last : Nat) : Bool :=
  runs.any fun run => Nat.ble run.1 first && Nat.ble last run.2

/-- None of the ranges holds a number from `first` to `last`. -/
def Ranges.misses (runs : Ranges) (first last : Nat) : Bool :=
  runs.all fun run => Nat.blt last run.1 || Nat.blt run.2 first

theorem Ranges.contains_of_covers {runs : Ranges} {first last : Nat}
    (h : runs.covers first last = true) {c : Char} (hf : first ≤ c.toNat) (hl : c.toNat ≤ last) :
    runs.contains c = true := by
  obtain ⟨run, hrun, hb⟩ := List.any_eq_true.1 h
  obtain ⟨h1, h2⟩ := Bool.and_eq_true_iff.1 hb
  have h1' := Nat.le_of_ble_eq_true h1
  have h2' := Nat.le_of_ble_eq_true h2
  refine List.any_eq_true.2 ⟨run, hrun, ?_⟩
  simp only [Bool.and_eq_true, decide_eq_true_eq]
  omega

theorem Ranges.not_contains_of_misses {runs : Ranges} {first last : Nat}
    (h : runs.misses first last = true) {c : Char} (hf : first ≤ c.toNat) (hl : c.toNat ≤ last) :
    runs.contains c = false := by
  refine List.any_eq_false.2 fun run hrun => ?_
  have hm := List.all_eq_true.1 h run hrun
  simp only [Bool.or_eq_true, Nat.blt_eq] at hm
  simp only [Bool.and_eq_true, decide_eq_true_eq, not_and]
  omega

/-- The ranges of a table stand in the order of their first numbers. -/
def Ranges.Rising (runs : Ranges) : Prop := runs.IsChain fun run next => run.1 ≤ next.1

/-- No number is in ranges of both tables, which is seen on the way through both at once. -/
def Ranges.apart : Ranges → Ranges → Bool
  | [], _ => true
  | run :: runs, others =>
    match others.dropWhile fun other => Nat.blt other.2 run.1 with
    | [] => true
    | other :: rest => Nat.blt run.2 other.1 && Ranges.apart runs (other :: rest)

theorem Ranges.Rising.head_le {run : Nat × Nat} {runs : Ranges} (h : Ranges.Rising (run :: runs)) :
    ∀ next ∈ runs, run.1 ≤ next.1 := by
  have htrans : IsTrans (Nat × Nat) fun run next => run.1 ≤ next.1 := ⟨fun _ _ _ => Nat.le_trans⟩
  exact (List.pairwise_cons.1 (List.isChain_iff_pairwise.1 h)).1

theorem Ranges.misses_of_apart {runs others : Ranges} (hruns : runs.Rising)
    (hothers : others.Rising) (h : runs.apart others = true) :
    ∀ run ∈ runs, others.misses run.1 run.2 = true := by
  induction runs generalizing others with
  | nil => intro run hrun; cases hrun
  | cons run runs ih =>
    -- those that end before the first range do so before the later ones, too
    have hbefore : ∀ later ∈ run :: runs, ∀ other ∈
        others.takeWhile (fun other => Nat.blt other.2 run.1), other.2 < later.1 := by
      intro later hlater other hother
      have hlt : other.2 < run.1 :=
        Nat.blt_eq.mp (List.all_eq_true.1 List.all_takeWhile other hother)
      rcases List.mem_cons.1 hlater with rfl | hlater
      · exact hlt
      · exact Nat.lt_of_lt_of_le hlt (hruns.head_le later hlater)
    have hsplit : ∀ later ∈ run :: runs,
        Ranges.misses (others.dropWhile fun other => Nat.blt other.2 run.1) later.1 later.2 = true →
        others.misses later.1 later.2 = true := by
      intro later hlater hrest
      rw [← List.takeWhile_append_dropWhile (p := fun other => Nat.blt other.2 run.1) (l := others)]
      unfold Ranges.misses at hrest ⊢
      rw [List.all_append, hrest, Bool.and_true, List.all_eq_true]
      intro other hother
      rw [Bool.or_eq_true, Nat.blt_eq, Nat.blt_eq]
      exact .inr (hbefore later hlater other hother)
    have hdropped : Ranges.Rising (others.dropWhile fun other => Nat.blt other.2 run.1) :=
      List.IsChain.suffix hothers (List.dropWhile_suffix _)
    unfold Ranges.apart at h
    intro later hlater
    refine hsplit later hlater ?_
    generalize others.dropWhile (fun other => Nat.blt other.2 run.1) = ahead at h hdropped ⊢
    cases ahead with
    | nil => rfl
    | cons other rest =>
      obtain ⟨hfirst, hrest⟩ := Bool.and_eq_true_iff.1 h
      rcases List.mem_cons.1 hlater with rfl | hlater
      · -- the next range starts behind the first one, and all that follow start behind that
        have hfirst : later.2 < other.1 := Nat.blt_eq.mp hfirst
        refine List.all_eq_true.2 fun next hnext => ?_
        rw [Bool.or_eq_true, Nat.blt_eq, Nat.blt_eq]
        rcases List.mem_cons.1 hnext with rfl | hnext
        · exact .inl hfirst
        · exact .inl (Nat.lt_of_lt_of_le hfirst (hdropped.head_le next hnext))
      · exact ih hruns.tail hdropped hrest later hlater

/-- A cased letter is not looked past. -/
theorem casedRanges_apart :
    casedRanges.Rising ∧ caseIgnorableRanges.Rising
      ∧ casedRanges.apart caseIgnorableRanges = true := by
  unfold Ranges.Rising
  decide +kernel

theorem isCaseIgnorable_of_isCased {c : Char} (h : isCased c = true) :
    isCaseIgnorable c = false := by
  obtain ⟨run, hrun, hb⟩ := List.any_eq_true.1 h
  simp only [Bool.and_eq_true, decide_eq_true_eq] at hb
  obtain ⟨hcased, hignorable, hapart⟩ := casedRanges_apart
  exact Ranges.not_contains_of_misses (Ranges.misses_of_apart hcased hignorable hapart run hrun)
    hb.1 hb.2

/-- The run maps the number. -/
def Mapped (run : Nat × Nat × Nat × Int) (n : Nat) : Prop :=
  run.1 ≤ n ∧ n ≤ run.2.1 ∧ (n - run.1) % run.2.2.1 = 0

/-- Every letter of the run, and every lower-case form it gives, is cased. A run that is not inside
one range of letters is looked at letter by letter. -/
def casedRun (first last step : Nat) (delta : Int) : Bool :=
  (casedRanges.covers first last
      || (List.range ((last - first) / step + 1)).all fun k =>
        casedRanges.covers (first + k * step) (first + k * step))
    && casedRanges.covers (first + delta).toNat (last + delta).toNat

/-- No run maps a number that lies on the way from `first` to `last`: each run ends before it,
starts behind it, or takes the other numbers of an alternation. -/
def unmapped (first last step : Nat) : Bool :=
  lowerRuns.all fun run =>
    Nat.blt last run.1 || Nat.blt run.2.1 first
      || Nat.beq run.2.2.1 2 && (Nat.beq step 2 || Nat.beq first last)
        && Nat.beq ((first - run.1) % 2) 1

/-- The lower-case forms that a run gives are characters, apart from the one that has two. -/
def properRun (first last : Nat) (delta : Int) : Bool :=
  0 ≤ first + delta && (last + delta < 0xD800 || (0xDFFF < first + delta && last + delta < 0x110000))
    && (last + delta < 0x130 || 0x130 < first + delta)

theorem lowerRuns_cased :
    lowerRuns.all (fun run => casedRun run.1 run.2.1 run.2.2.1 run.2.2.2) = true := by
  decide +kernel

theorem lowerRuns_unmapped :
    lowerRuns.all (fun run => unmapped (run.1 + run.2.2.2).toNat (run.2.1 + run.2.2.2).toNat
      run.2.2.1) = true := by
  decide +kernel

theorem lowerRuns_proper :
    lowerRuns.all (fun run => properRun run.1 run.2.1 run.2.2.2) = true := by
  decide +kernel

/-- The three sigmas are letters, and only the small ones stay as they are in lower case. -/
theorem sigmas_cased :
    (isCased '\u03A3' = true ∧ isCased '\u03C2' = true ∧ isCased '\u03C3' = true)
      ∧ lowerChar '\u03A3' ≠ ['\u03A3'] ∧ lowerChar '\u03C2' = ['\u03C2']
      ∧ lowerChar '\u03C3' = ['\u03C3'] := by
  decide +kernel

/-- The letter with a lower-case form of two characters: it starts with a letter, and both stay as
they are. -/
theorem dotted_cased :
    isCased '\u0130' = true ∧ isCased 'i' = true
      ∧ ((lowerChar '\u0130').all fun d => lowerChar d == [d]) = true := by
  decide +kernel

/-! ## The mapping of a character -/

theorem toLower_ascii :
    ∀ n < 128, (Char.ofNat n).toLower = Char.ofNat (if 0x41 ≤ n ∧ n ≤ 0x5A then n + 32 else n) := by
  decide

theorem toNat_ofNat {n : Nat} (h : n.isValidChar) : (Char.ofNat n).toNat = n := by
  rw [Char.ofNat, dif_pos h]
  rfl

/-- A character is its own lower-case form, the one with two, or mapped by a run. -/
theorem lowerChar_cases (c : Char) :
    lowerChar c = [c] ∨ c = '\u0130' ∨
      ∃ run ∈ lowerRuns, Mapped run c.toNat ∧
        lowerChar c = [Char.ofNat (c.toNat + run.2.2.2).toNat] := by
  unfold lowerChar
  by_cases hascii : c.toNat < 128
  · have hlow := toLower_ascii c.toNat hascii
    rw [Char.ofNat_toNat] at hlow
    rw [if_pos hascii, hlow]
    by_cases hup : 0x41 ≤ c.toNat ∧ c.toNat ≤ 0x5A
    · rw [if_pos hup]
      exact .inr (.inr ⟨(0x41, 0x5A, 1, 32), .head _, ⟨hup.1, hup.2, Nat.mod_one _⟩, rfl⟩)
    · rw [if_neg hup, Char.ofNat_toNat]
      exact .inl rfl
  · rw [if_neg hascii]
    by_cases htwo : c = '\u0130'
    · exact .inr (.inl htwo)
    · rw [if_neg htwo]
      split
      · next run hfind =>
        have hm := List.find?_some hfind
        simp only [Bool.and_eq_true, decide_eq_true_eq, beq_iff_eq] at hm
        exact .inr (.inr ⟨run, List.mem_of_find?_eq_some hfind, ⟨hm.1.1, hm.1.2, hm.2⟩, rfl⟩)
      · exact .inl rfl

/-- A character that no run maps is its own lower-case form. -/
theorem lowerChar_eq_self {c : Char} (htwo : c ≠ '\u0130')
    (h : ∀ run ∈ lowerRuns, ¬ Mapped run c.toNat) : lowerChar c = [c] := by
  obtain hself | htwo' | ⟨run, hrun, hm, -⟩ := lowerChar_cases c
  · exact hself
  · exact absurd htwo' htwo
  · exact absurd hm (h run hrun)

section Run

variable {run : Nat × Nat × Nat × Int} {c : Char}

/-- The number that a run gives is that of a character. -/
theorem toNat_lowered (hrun : run ∈ lowerRuns) (hm : Mapped run c.toNat) :
    ((Char.ofNat (c.toNat + run.2.2.2).toNat).toNat : Int) = c.toNat + run.2.2.2 := by
  have hp := List.all_eq_true.1 lowerRuns_proper run hrun
  simp only [properRun, Bool.and_eq_true, Bool.or_eq_true, decide_eq_true_eq] at hp
  obtain ⟨hfirst, hlast, -⟩ := hm
  have hvalid : (c.toNat + run.2.2.2).toNat.isValidChar := by
    unfold Nat.isValidChar
    omega
  rw [toNat_ofNat hvalid]
  omega

/-- A lower-case form that a run gives is its own lower-case form. -/
theorem lowerChar_lowered (hrun : run ∈ lowerRuns) (hm : Mapped run c.toNat) :
    lowerChar (Char.ofNat (c.toNat + run.2.2.2).toNat)
      = [Char.ofNat (c.toNat + run.2.2.2).toNat] := by
  have hnat := toNat_lowered hrun hm
  have hp := List.all_eq_true.1 lowerRuns_proper run hrun
  simp only [properRun, Bool.and_eq_true, Bool.or_eq_true, decide_eq_true_eq] at hp
  obtain ⟨hfirst, hlast, hstep⟩ := hm
  refine lowerChar_eq_self (fun htwo => ?_) fun other hother hm' => ?_
  · rw [htwo] at hnat
    have : ((0x130 : Nat) : Int) = c.toNat + run.2.2.2 := hnat
    omega
  · -- the other run ends before, starts behind, or takes the numbers of the other parity
    have hu := List.all_eq_true.1 (List.all_eq_true.1 lowerRuns_unmapped run hrun) other hother
    simp only [Bool.or_eq_true, Bool.and_eq_true, Nat.blt_eq, Nat.beq_eq] at hu
    obtain ⟨hfirst', hlast', hstep'⟩ := hm'
    obtain (hbefore | hbehind) | ⟨⟨htwo, heven⟩, hodd⟩ := hu
    · omega
    · omega
    · rw [htwo] at hstep'
      obtain hrun2 | hone := heven
      · rw [hrun2] at hstep
        omega
      · omega

/-- A run maps a cased letter to a cased letter. -/
theorem isCased_lowered (hrun : run ∈ lowerRuns) (hm : Mapped run c.toNat) :
    isCased c = true ∧ isCased (Char.ofNat (c.toNat + run.2.2.2).toNat) = true := by
  have hnat := toNat_lowered hrun hm
  have hc := List.all_eq_true.1 lowerRuns_cased run hrun
  obtain ⟨hfrom, hto⟩ := Bool.and_eq_true_iff.1 hc
  obtain ⟨hfirst, hlast, hstep⟩ := hm
  refine ⟨?_, Ranges.contains_of_covers hto (by omega) (by omega)⟩
  obtain hrange | hletters := Bool.or_eq_true_iff.1 hfrom
  · exact Ranges.contains_of_covers hrange hfirst hlast
  · -- the letter is the one at its own distance from the first, in steps
    have hk : (c.toNat - run.1) / run.2.2.1 * run.2.2.1 = c.toNat - run.1 :=
      Nat.div_mul_cancel (Nat.dvd_of_mod_eq_zero hstep)
    have hlt : (c.toNat - run.1) / run.2.2.1 < (run.2.1 - run.1) / run.2.2.1 + 1 :=
      Nat.lt_succ_of_le (Nat.div_le_div_right (by omega))
    have hletter := List.all_eq_true.1 hletters _ (List.mem_range.2 hlt)
    rw [hk, Nat.add_sub_cancel' hfirst] at hletter
    exact Ranges.contains_of_covers hletter (Nat.le_refl _) (Nat.le_refl _)

end Run

/-- A character in a lower-case form is its own lower-case form. -/
theorem lowerChar_of_mem {c d : Char} (h : d ∈ lowerChar c) : lowerChar d = [d] := by
  obtain hself | rfl | ⟨run, hrun, hm, hlow⟩ := lowerChar_cases c
  · rw [hself, List.mem_singleton] at h
    rw [h, hself]
  · exact eq_of_beq (List.all_eq_true.1 dotted_cased.2.2 d h)
  · rw [hlow, List.mem_singleton] at h
    rw [h]
    exact lowerChar_lowered hrun hm

/-- A character that is looked past has no other lower-case form. -/
theorem lowerChar_of_isCaseIgnorable {c : Char} (h : isCaseIgnorable c = true) :
    lowerChar c = [c] := by
  obtain hself | rfl | ⟨run, hrun, hm, -⟩ := lowerChar_cases c
  · exact hself
  · have htwo := isCaseIgnorable_of_isCased dotted_cased.1
    rw [htwo] at h
    cases h
  · have hcased := isCaseIgnorable_of_isCased (isCased_lowered hrun hm).1
    rw [hcased] at h
    cases h

/-- The lower-case form of a character that is not looked past starts with one that is not looked
past either, a letter if the character is one. -/
theorem lowerChar_head {c : Char} (h : isCaseIgnorable c = false) :
    ∃ d ds, lowerChar c = d :: ds ∧ isCaseIgnorable d = false ∧ isCased d = isCased c := by
  obtain hself | rfl | ⟨run, hrun, hm, hlow⟩ := lowerChar_cases c
  · exact ⟨c, [], hself, h, rfl⟩
  · obtain ⟨hdotted, hplain, -⟩ := dotted_cased
    exact ⟨'i', ['\u0307'], rfl, isCaseIgnorable_of_isCased hplain, hplain.trans hdotted.symm⟩
  · obtain ⟨hfrom, hto⟩ := isCased_lowered hrun hm
    exact ⟨_, [], hlow, isCaseIgnorable_of_isCased hto, hto.trans hfrom.symm⟩

theorem isCased_sigma : isCased '\u03A3' = true := sigmas_cased.1.1

theorem isCaseIgnorable_sigma : isCaseIgnorable '\u03A3' = false :=
  isCaseIgnorable_of_isCased isCased_sigma

theorem ne_sigma_of_isCaseIgnorable {c : Char} (h : isCaseIgnorable c = true) : c ≠ '\u03A3' := by
  rintro rfl
  rw [isCaseIgnorable_sigma] at h
  cases h

/-! ## Where a word ends -/

@[simp] theorem endsAtLetter_nil : endsAtLetter [] = false := rfl

theorem endsAtLetter_cons_ignorable {c : Char} (h : isCaseIgnorable c = true) (cs : List Char) :
    endsAtLetter (c :: cs) = endsAtLetter cs := by
  unfold endsAtLetter
  rw [List.dropWhile_cons_of_pos h]

theorem endsAtLetter_cons {c : Char} (h : isCaseIgnorable c = false) (cs : List Char) :
    endsAtLetter (c :: cs) = isCased c := by
  unfold endsAtLetter
  rw [List.dropWhile_cons_of_neg (by rw [h]; exact Bool.false_ne_true)]

@[simp] theorem endsAtLetter_sigma (cs : List Char) : endsAtLetter ('\u03A3' :: cs) = true :=
  (endsAtLetter_cons isCaseIgnorable_sigma cs).trans isCased_sigma

/-- A letter nearby is a letter whatever is further off. -/
theorem endsAtLetter_append {cs : List Char} (h : endsAtLetter cs = true) (ds : List Char) :
    endsAtLetter (cs ++ ds) = true := by
  induction cs with
  | nil => cases h
  | cons c cs ih =>
    by_cases hc : isCaseIgnorable c = true
    · rw [endsAtLetter_cons_ignorable hc] at h
      rw [List.cons_append, endsAtLetter_cons_ignorable hc, ih h]
    · have hc' := eq_false_of_ne_true hc
      rw [endsAtLetter_cons hc'] at h
      rw [List.cons_append, endsAtLetter_cons hc', h]

/-- What stands behind the first sigma, if all before it is looked past. -/
def behindSigma (cs : List Char) : Option (List Char) :=
  match cs.dropWhile isCaseIgnorable with
  | c :: rest => if c = '\u03A3' then some rest else none
  | [] => none

theorem behindSigma_cons_ignorable {c : Char} (h : isCaseIgnorable c = true) (cs : List Char) :
    behindSigma (c :: cs) = behindSigma cs := by
  unfold behindSigma
  rw [List.dropWhile_cons_of_pos h]

theorem behindSigma_cons {c : Char} (h : isCaseIgnorable c = false) (cs : List Char) :
    behindSigma (c :: cs) = if c = '\u03A3' then some cs else none := by
  unfold behindSigma
  rw [List.dropWhile_cons_of_neg (by rw [h]; exact Bool.false_ne_true)]

theorem sigma_mem_of_behindSigma {cs : List Char} (h : behindSigma cs ≠ none) :
    '\u03A3' ∈ cs := by
  unfold behindSigma at h
  split at h
  · next c _ hdrop =>
    by_cases hc : c = '\u03A3'
    · have hmem : c ∈ cs.dropWhile isCaseIgnorable := hdrop ▸ .head _
      rw [← hc]
      exact (List.dropWhile_suffix _).subset hmem
    · rw [if_neg hc] at h
      exact absurd rfl h
  · exact absurd rfl h

/-- The text starts with a sigma that would be final behind a letter. -/
def startsFinal (cs : List Char) : Bool := (behindSigma cs).any fun rest => !endsAtLetter rest

/-- The text ends in a final sigma. -/
def endsFinal (cs : List Char) : Bool := (behindSigma cs.reverse).any endsAtLetter

/-! ## A part of a text -/

/-- The lower-case form of a character between those before it, last first, and those behind it. -/
def lowerAt (before : List Char) (c : Char) (after : List Char) : List Char :=
  if c = '\u03A3' then [if isFinalSigma before after then '\u03C2' else '\u03C3'] else lowerChar c

/-- The lower-case form of a part of a text, between what stands before it, last first, and what
stands behind it. -/
def lowerIn (before : List Char) : List Char → List Char → List Char
  | [], _ => []
  | c :: cs, after => lowerAt before c (cs ++ after) ++ lowerIn (c :: before) cs after

theorem lowerFrom_cons (before : List Char) (c : Char) (cs : List Char) :
    lowerFrom before (c :: cs) = lowerAt before c cs ++ lowerFrom (c :: before) cs := rfl

theorem lowerFrom_append (before cs ds : List Char) :
    lowerFrom before (cs ++ ds) = lowerIn before cs ds ++ lowerFrom (cs.reverse ++ before) ds := by
  induction cs generalizing before with
  | nil => rfl
  | cons c cs ih =>
    rw [List.cons_append, lowerFrom_cons, ih, lowerIn, List.append_assoc, List.reverse_cons,
      List.append_assoc, List.singleton_append]

theorem lowerIn_nil_right (before cs : List Char) : lowerIn before cs [] = lowerFrom before cs := by
  have h := lowerFrom_append before cs []
  rw [List.append_nil] at h
  rw [h, lowerFrom, List.append_nil]

theorem lowerIn_concat (before cs : List Char) (c : Char) (after : List Char) :
    lowerIn before (cs ++ [c]) after
      = lowerIn before cs (c :: after) ++ lowerAt (cs.reverse ++ before) c after := by
  induction cs generalizing before with
  | nil => exact List.append_nil _
  | cons d cs ih =>
    rw [List.cons_append, lowerIn, ih, lowerIn, List.append_assoc, List.append_assoc,
      List.reverse_cons, List.append_assoc]
    rfl

/-- What stands around a character does not change the length of its lower-case form. -/
theorem length_lowerAt (before before' : List Char) (c : Char) (after after' : List Char) :
    (lowerAt before c after).length = (lowerAt before' c after').length := by
  unfold lowerAt
  by_cases hc : c = '\u03A3'
  · rw [if_pos hc, if_pos hc]; rfl
  · rw [if_neg hc, if_neg hc]

theorem length_lowerIn (before before' cs after after' : List Char) :
    (lowerIn before cs after).length = (lowerIn before' cs after').length := by
  induction cs generalizing before before' with
  | nil => rfl
  | cons c cs ih =>
    rw [lowerIn, lowerIn, List.length_append, List.length_append, ih (c :: before) (c :: before'),
      length_lowerAt before before' c (cs ++ after) (cs ++ after')]

/-- A sigma is the same among two neighbourhoods if it is final in both or in none. -/
theorem lowerAt_sigma_iff (before before' after after' : List Char) :
    lowerAt before '\u03A3' after = lowerAt before' '\u03A3' after'
      ↔ isFinalSigma before after = isFinalSigma before' after' := by
  have hapart : ('\u03C2' : Char) ≠ '\u03C3' := by decide
  unfold lowerAt
  rw [if_pos rfl, if_pos rfl, List.cons.injEq]
  cases isFinalSigma before after <;> cases isFinalSigma before' after' <;>
    simp [hapart, hapart.symm]

theorem lowerAt_other {c : Char} (h : c ≠ '\u03A3') (before after : List Char) :
    lowerAt before c after = lowerChar c := if_neg h

/-- **What stands before a text** matters to its lower-case form only if it starts with a sigma that
may be final, and only in whether it ends at a letter. -/
theorem lowerFrom_before_iff (before before' cs : List Char) :
    lowerFrom before cs = lowerFrom before' cs
      ↔ endsAtLetter before = endsAtLetter before' ∨ startsFinal cs = false := by
  induction cs generalizing before before' with
  | nil => simp [lowerFrom, startsFinal, behindSigma]
  | cons c cs ih =>
    rw [lowerFrom_cons, lowerFrom_cons,
      List.append_eq_append_iff_of_size_eq_left (length_lowerAt before before' c cs cs),
      ih (c :: before) (c :: before')]
    by_cases hskip : isCaseIgnorable c = true
    · have hc := ne_sigma_of_isCaseIgnorable hskip
      rw [lowerAt_other hc, lowerAt_other hc, endsAtLetter_cons_ignorable hskip,
        endsAtLetter_cons_ignorable hskip]
      unfold startsFinal
      rw [behindSigma_cons_ignorable hskip]
      exact and_iff_right rfl
    · have hkeep := eq_false_of_ne_true hskip
      -- a character that is not looked past hides what is before it from all behind it
      rw [endsAtLetter_cons hkeep, endsAtLetter_cons hkeep, and_iff_left (.inl rfl)]
      unfold startsFinal
      rw [behindSigma_cons hkeep]
      by_cases hc : c = '\u03A3'
      · subst hc
        rw [lowerAt_sigma_iff, if_pos rfl, Option.any_some]
        unfold isFinalSigma
        cases endsAtLetter cs <;> simp
      · rw [lowerAt_other hc, lowerAt_other hc, if_neg hc]
        exact iff_of_true rfl (.inr rfl)

/-- **What stands behind a text** matters to its lower-case form only if it ends in a final sigma,
and only in whether it starts with a letter. -/
theorem lowerIn_after_iff (cs after after' : List Char) :
    lowerIn [] cs after = lowerIn [] cs after'
      ↔ endsAtLetter after = endsAtLetter after' ∨ endsFinal cs = false := by
  induction cs using List.reverseRecOn generalizing after after' with
  | nil => simp [lowerIn, endsFinal, behindSigma]
  | append_singleton cs c ih =>
    rw [lowerIn_concat, lowerIn_concat,
      List.append_eq_append_iff_of_size_eq_left (length_lowerIn [] [] cs (c :: after) (c :: after')),
      ih (c :: after) (c :: after')]
    unfold endsFinal
    rw [List.reverse_append, List.reverse_singleton, List.singleton_append, List.append_nil]
    by_cases hskip : isCaseIgnorable c = true
    · have hc := ne_sigma_of_isCaseIgnorable hskip
      rw [lowerAt_other hc, lowerAt_other hc, endsAtLetter_cons_ignorable hskip,
        endsAtLetter_cons_ignorable hskip, behindSigma_cons_ignorable hskip]
      exact and_iff_left rfl
    · have hkeep := eq_false_of_ne_true hskip
      rw [endsAtLetter_cons hkeep, endsAtLetter_cons hkeep, and_iff_right (.inl rfl),
        behindSigma_cons hkeep]
      by_cases hc : c = '\u03A3'
      · subst hc
        rw [lowerAt_sigma_iff, if_pos rfl, Option.any_some]
        unfold isFinalSigma
        cases endsAtLetter cs.reverse <;> simp
      · rw [lowerAt_other hc, lowerAt_other hc, if_neg hc]
        exact iff_of_true rfl (.inr rfl)

/-! ## Lower case twice -/

/-- A character in the lower-case form of a text is its own lower-case form, whatever is around. -/
theorem lowerAt_of_mem_lowerFrom {before cs : List Char} {d : Char} (h : d ∈ lowerFrom before cs)
    (before' after : List Char) : lowerAt before' d after = [d] := by
  obtain ⟨-, hsigma, hfinal, hsmall⟩ := sigmas_cased
  have hself : lowerChar d = [d] := by
    induction cs generalizing before with
    | nil => cases h
    | cons c cs ih =>
      rw [lowerFrom_cons, List.mem_append] at h
      obtain h | h := h
      · by_cases hc : c = '\u03A3'
        · rw [lowerAt, if_pos hc, List.mem_singleton] at h
          split at h
          · rw [h]; exact hfinal
          · rw [h]; exact hsmall
        · rw [lowerAt_other hc] at h
          exact lowerChar_of_mem h
      · exact ih h
  rw [lowerAt_other, hself]
  rintro rfl
  exact hsigma hself

/-- A text of characters that are their own lower-case forms is its own, too. -/
theorem lowerFrom_eq_self {ds : List Char} (h : ∀ d ∈ ds, ∀ before after, lowerAt before d after = [d])
    (before : List Char) : lowerFrom before ds = ds := by
  induction ds generalizing before with
  | nil => rfl
  | cons d ds ih =>
    have hrest := ih (fun e he => h e (.tail _ he)) (d :: before)
    rw [lowerFrom_cons, h d (.head _), hrest, List.singleton_append]

/-- **Lower case stays as it is**, whatever stands before it. -/
theorem lowerFrom_lowerFrom (before before' cs : List Char) :
    lowerFrom before (lowerFrom before' cs) = lowerFrom before' cs :=
  lowerFrom_eq_self (fun _ hd => lowerAt_of_mem_lowerFrom hd) before

/-- **Lower case keeps where words end.** -/
theorem endsAtLetter_lowerFrom (before cs : List Char) :
    endsAtLetter (lowerFrom before cs) = endsAtLetter cs := by
  induction cs generalizing before with
  | nil => rfl
  | cons c cs ih =>
    rw [lowerFrom_cons]
    by_cases hc : c = '\u03A3'
    · obtain ⟨-, hfinal, hsmall⟩ := sigmas_cased.1
      subst hc
      rw [lowerAt, if_pos rfl, endsAtLetter_sigma, List.singleton_append]
      split
      · rw [endsAtLetter_cons (isCaseIgnorable_of_isCased hfinal), hfinal]
      · rw [endsAtLetter_cons (isCaseIgnorable_of_isCased hsmall), hsmall]
    · rw [lowerAt_other hc]
      by_cases hskip : isCaseIgnorable c = true
      · rw [lowerChar_of_isCaseIgnorable hskip, List.singleton_append,
          endsAtLetter_cons_ignorable hskip, endsAtLetter_cons_ignorable hskip, ih]
      · have hkeep := eq_false_of_ne_true hskip
        obtain ⟨d, ds, hd, hskip', hcased⟩ := lowerChar_head hkeep
        rw [hd, List.cons_append, endsAtLetter_cons hskip', endsAtLetter_cons hkeep, hcased]

/-! ## Two texts -/

/-- The second text starts with a sigma that is final once the first one stands before it. -/
def GainsFinal (s t : String) : Prop :=
  endsAtLetter s.toList.reverse = true ∧ startsFinal t.toList = true

/-- The first text ends in a final sigma that is none once the second one stands behind it. -/
def LosesFinal (s t : String) : Prop :=
  endsFinal s.toList = true ∧ endsAtLetter t.toList = true

instance (s t : String) : Decidable (GainsFinal s t) := inferInstanceAs (Decidable (_ ∧ _))

instance (s t : String) : Decidable (LosesFinal s t) := inferInstanceAs (Decidable (_ ∧ _))

theorem GainsFinal.sigma_mem {s t : String} (h : GainsFinal s t) : '\u03A3' ∈ t.toList := by
  refine sigma_mem_of_behindSigma fun hnone => ?_
  have hstarts := h.2
  unfold startsFinal at hstarts
  rw [hnone] at hstarts
  cases hstarts

theorem LosesFinal.sigma_mem {s t : String} (h : LosesFinal s t) : '\u03A3' ∈ s.toList := by
  refine List.mem_reverse.1 (sigma_mem_of_behindSigma fun hnone => ?_)
  have hends := h.1
  unfold endsFinal at hends
  rw [hnone] at hends
  cases hends

theorem toList_lower (s : String) : (lower s).toList = lowerFrom [] s.toList :=
  String.toList_ofList

/-- The second of two texts has its own lower-case form unless it gains a final sigma. -/
theorem lowerFrom_reverse_iff (s t : String) :
    lowerFrom s.toList.reverse t.toList = lowerFrom [] t.toList ↔ ¬ GainsFinal s t := by
  rw [lowerFrom_before_iff, endsAtLetter_nil]
  unfold GainsFinal
  cases endsAtLetter s.toList.reverse <;> simp

/-- The first of two texts has its own lower-case form unless it loses a final sigma. -/
theorem lowerIn_iff (s t : String) :
    lowerIn [] s.toList t.toList = lowerFrom [] s.toList ↔ ¬ LosesFinal s t := by
  rw [← lowerIn_nil_right, lowerIn_after_iff, endsAtLetter_nil]
  unfold LosesFinal
  cases endsFinal s.toList <;> simp

/-- **Two texts** of which the second is in lower case already. -/
theorem toList_lower_append_lower (s t : String) :
    (lower (s ++ lower t)).toList = lowerIn [] s.toList t.toList ++ lowerFrom [] t.toList := by
  rw [toList_lower, String.toList_append, lowerFrom_append, toList_lower, lowerFrom_lowerFrom,
    (lowerIn_after_iff _ _ _).2 (.inl (endsAtLetter_lowerFrom [] t.toList))]

/-! ## ASCII -/

/-- In ASCII each character has a lower-case form of its own. -/
theorem lowerFrom_ascii {cs : List Char} (h : ∀ c ∈ cs, c.toNat < 128) (before : List Char) :
    lowerFrom before cs = cs.map Char.toLower := by
  induction cs generalizing before with
  | nil => rfl
  | cons c cs ih =>
    have hc : c.toNat < 128 := h c List.mem_cons_self
    have hsigma : c ≠ '\u03A3' := by
      rintro rfl
      exact absurd hc (by decide)
    rw [lowerFrom_cons, lowerAt_other hsigma, lowerChar, if_pos hc,
      ih fun d hd => h d (List.mem_cons_of_mem c hd)]
    rfl

theorem toList_lower_ascii {s : String} (h : ∀ c ∈ s.toList, c.toNat < 128) :
    (lower s).toList = s.toList.map Char.toLower := by
  rw [toList_lower, lowerFrom_ascii h]

end Docbase.Text
