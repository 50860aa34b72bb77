import Mathlib.Data.List.Forall2
import Mathlib.Data.List.TakeDrop
import Docbase.Json.Decode
import Docbase.Json.Encode
import Docbase.Proofs.Json.Datum
import Docbase.Proofs.Outcome

/-!
# Reading what was written

The JSON text of a value is read as that value again, wherever it stands in a text.

* `stringBody_flatMap`: the characters of a string are found again behind their escapes.
* `scalar_int`: a whole number is found again in its digits.
* `Spells`: the text of a value, from which the value is read; `Spells.list` and `Spells.mapping` go
  from the parts of a value to the whole.
* `fits`: the whole numbers in a value have no more digits than are written; `Covers`: a reader takes
  as many.
* `decode_encode`, `decode_written`: **the JSON text of a value is read as that value.**
* `encode_long`: a value that says something in JSON has no text only for a number that does not fit.
* `decode_numberText`: an object with one number, which may have more digits than are read.
-/

namespace Docbase.Json

variable {limit : Option Nat} {rest : List Char}

/-! ## Strings -/

/-- The control characters are written with four digits, the first two of them zeros. -/
theorem hexUnit?_hexDigits : ∀ n < 32, ∃ a b, Text.hexDigits 4 n = ['0', '0', a, b] ∧
    hexUnit? '0' '0' a b = some n := by
  have hdigits : ∀ n < 32,
      Text.hexDigits 4 n = ['0', '0', Nat.digitChar (n / 16), Nat.digitChar (n % 16)] ∧
        hexUnit? '0' '0' (Nat.digitChar (n / 16)) (Nat.digitChar (n % 16)) = some n := by decide
  exact fun n hn => ⟨_, _, hdigits n hn⟩

theorem stringBody_simple {e c : Char} (h : simpleEscape? e = some c) (tail : List Char) :
    stringBody ('\\' :: e :: tail) = prepend c (stringBody tail) := by
  have hu : e ≠ 'u' := by
    rintro rfl
    cases h
  rw [stringBody]
  · rw [h]
  · intro a b c d rest he
    exact absurd he hu

theorem stringBody_unit {n : Nat} (hn : n < 32) (tail : List Char) :
    stringBody ('\\' :: 'u' :: (Text.hexDigits 4 n ++ tail)) = prepend (Char.ofNat n) (stringBody tail) := by
  obtain ⟨a, b, hdigits, hunit⟩ := hexUnit?_hexDigits n hn
  have hhigh : isHighSurrogate n = false := by
    rw [isHighSurrogate, Bool.and_eq_false_iff]
    exact .inl (by simp; omega)
  have hlow : isLowSurrogate n = false := by
    rw [isLowSurrogate, Bool.and_eq_false_iff]
    exact .inl (by simp; omega)
  rw [hdigits]
  simp [stringBody, hunit, hhigh, hlow]

theorem stringBody_plain {c : Char} (hquote : c ≠ '"') (hback : c ≠ '\\') (hc : ¬ c.toNat < 32)
    (tail : List Char) : stringBody (c :: tail) = prepend c (stringBody tail) := by
  rw [stringBody]
  · simp [hback, hc]
  · exact hquote
  · intro a b c' d rest he
    exact absurd he hback
  · intro e rest he
    exact absurd he hback

theorem stringBody_escapeChar (c : Char) (tail : List Char) :
    stringBody (escapeChar c ++ tail) = prepend c (stringBody tail) := by
  unfold escapeChar
  have hnumber : ∀ n, c.toNat = n → c = Char.ofNat n := by
    rintro n rfl
    exact (Char.ofNat_toNat c).symm
  split
  · next h => exact stringBody_simple (by rw [h]; rfl) tail
  split
  · next h => exact stringBody_simple (by rw [h]; rfl) tail
  split
  · next h => exact stringBody_simple (by rw [h]; rfl) tail
  split
  · next h => exact stringBody_simple (by rw [h]; rfl) tail
  split
  · next h => exact stringBody_simple (by rw [h]; rfl) tail
  split
  · next h => exact stringBody_simple (by rw [hnumber _ h]; rfl) tail
  split
  · next h => exact stringBody_simple (by rw [hnumber _ h]; rfl) tail
  split
  · next h =>
    have hunit := stringBody_unit h tail
    rwa [Char.ofNat_toNat] at hunit
  · next hquote hback _ _ _ _ _ hc => exact stringBody_plain hquote hback hc tail

/-- The characters of a string are found again behind their escapes. -/
theorem stringBody_flatMap (cs : List Char) (rest : List Char) :
    stringBody (cs.flatMap escapeChar ++ '"' :: rest) = .ok (cs, rest) := by
  induction cs with
  | nil => simp [stringBody]
  | cons c cs ih =>
    rw [List.flatMap_cons, List.append_assoc, stringBody_escapeChar, ih]
    rfl

/-! ## Numbers -/

/-- What may come behind a value in JSON text: nothing, or a mark that stands in no number. -/
def Ends (rest : List Char) : Prop := ∀ c tail, rest = c :: tail → c = ',' ∨ c = ']' ∨ c = '\x7d'

theorem ends_nil : Ends [] := fun _ _ h => by cases h

theorem ends_cons {c : Char} {tail : List Char} (h : c = ',' ∨ c = ']' ∨ c = '\x7d') :
    Ends (c :: tail) := by
  intro d _ he
  cases he
  exact h

theorem toDigits_cons (n : Nat) : ∃ c cs, Nat.toDigits 10 n = c :: cs ∧ c.isDigit = true := by
  obtain ⟨c, cs, hcs⟩ := List.exists_cons_of_ne_nil (Nat.toDigits_ne_nil (n := n) (b := 10))
  have hc : c ∈ Nat.toDigits 10 n := hcs ▸ .head _
  exact ⟨c, cs, hcs, Nat.isDigit_of_mem_toDigits (by omega) (by omega) hc⟩

/-- The digits of a number other than zero start with no zero. -/
theorem toDigits_ne_zero (n : Nat) (hn : 0 < n) {c : Char} {cs : List Char}
    (hcs : Nat.toDigits 10 n = c :: cs) : c ≠ '0' := by
  induction n using Nat.strongRecOn generalizing c cs with
  | ind n ih =>
    by_cases hten : n < 10
    · have hdigit : ∀ k < 10, 0 < k → Nat.digitChar k ≠ '0' := by decide
      rw [Nat.toDigits_of_lt_base hten] at hcs
      cases hcs
      exact hdigit n hten hn
    · obtain ⟨c', cs', hcs', -⟩ := toDigits_cons (n / 10)
      rw [Nat.toDigits_of_base_le (by omega) (by omega), hcs'] at hcs
      cases hcs
      exact ih (n / 10) (by omega) (by omega) hcs'

theorem span_digits {digits : List Char} (hdigits : ∀ c ∈ digits, c.isDigit = true) (h : Ends rest) :
    (digits ++ rest).span Char.isDigit = (digits, rest) := by
  have hrest : rest.takeWhile Char.isDigit = [] ∧ rest.dropWhile Char.isDigit = rest := by
    cases rest with
    | nil => exact ⟨rfl, rfl⟩
    | cons c tail => obtain rfl | rfl | rfl := h c tail rfl <;> exact ⟨rfl, rfl⟩
  rw [List.span_eq_takeWhile_dropWhile, List.takeWhile_append_of_pos hdigits,
    List.dropWhile_append_of_pos hdigits, hrest.1, hrest.2, List.append_nil]

theorem wholeDigits?_toDigits (n : Nat) (h : Ends rest) :
    wholeDigits? (Nat.toDigits 10 n ++ rest) = some (Nat.toDigits 10 n, rest) := by
  obtain rfl | hn := Nat.eq_zero_or_pos n
  · rfl
  · have hdigits : ∀ c ∈ Nat.toDigits 10 n, c.isDigit = true :=
      fun c hc => Nat.isDigit_of_mem_toDigits (by omega) (by omega) hc
    have hspan := span_digits hdigits h
    obtain ⟨c, cs, hcs, -⟩ := toDigits_cons n
    have hc := toDigits_ne_zero n hn hcs
    rw [hcs] at hdigits hspan ⊢
    rw [List.cons_append, wholeDigits?]
    · rw [if_pos (hdigits c (.head _)), ← List.cons_append, hspan]
    · exact hc

/-- What comes behind a value does not go on with a number. -/
theorem no_fraction (h : Ends rest) : fractionDigits rest = none ∧ exponentPart rest = none := by
  cases rest with
  | nil => exact ⟨rfl, rfl⟩
  | cons c tail => obtain rfl | rfl | rfl := h c tail rfl <;> exact ⟨rfl, rfl⟩

/-- A whole number is found again in its digits. -/
theorem number_toDigits (negative : Bool) (n : Nat)
    (hlimit : ∀ k, limit = some k → (Nat.toDigits 10 n).length ≤ k) (h : Ends rest) :
    number limit negative (Nat.toDigits 10 n ++ rest)
      = .ok (.int (if negative then -n else n), rest) := by
  have hshort : limit.any (· < (Nat.toDigits 10 n).length) = false := by
    cases limit with
    | none => rfl
    | some k => simpa using hlimit k rfl
  have hvalue : Nat.ofDigitChars 10 (Nat.toDigits 10 n) 0 = n := Nat.ofDigitChars_ten_toDigits
  rw [number, wholeDigits?_toDigits n h]
  simp [no_fraction h, hshort, hvalue]

/-- One with more digits than are read is refused. -/
theorem number_long (negative : Bool) (n : Nat)
    (hlong : limit.any (· < (Nat.toDigits 10 n).length) = true) (h : Ends rest) :
    number limit negative (Nat.toDigits 10 n ++ rest) = .error .tooManyDigits := by
  rw [number, wholeDigits?_toDigits n h]
  simp [no_fraction h, hlong]

theorem ne_of_isDigit {c d : Char} (hc : c.isDigit = true) (hd : d.isDigit = false) : c ≠ d := by
  rintro rfl
  rw [hc] at hd
  cases hd

/-- Where a digit stands, a number is read, since nothing else starts with one. -/
theorem scalar_digit {c : Char} {cs : List Char} (hc : c.isDigit = true) :
    scalar limit (c :: cs) = number limit false (c :: cs) := by
  rw [scalar]
  all_goals exact fun _ h => absurd (List.cons.inj h).1 (ne_of_isDigit hc (by decide))

/-- So it is behind a minus. -/
theorem scalar_minus {c : Char} {cs : List Char} (hc : c.isDigit = true) :
    scalar limit ('-' :: c :: cs) = number limit true (c :: cs) := by
  rw [scalar]
  exact fun _ h => absurd (List.cons.inj h).1 (ne_of_isDigit hc (by decide))

theorem toString_natCast (n : Nat) : (toString (Int.ofNat n)).toList = Nat.toDigits 10 n := by
  simp [toString, Int.repr]

theorem toString_negSucc (n : Nat) :
    (toString (Int.negSucc n)).toList = '-' :: Nat.toDigits 10 (n + 1) := by
  simp [toString, Int.repr]

/-- What is written of a whole number is read as that number. -/
theorem scalar_int (i : Int) (hlimit : ∀ k, limit = some k → (Nat.toDigits 10 i.natAbs).length ≤ k)
    (h : Ends rest) : scalar limit ((toString i).toList ++ rest) = .ok (.int i, rest) := by
  cases i with
  | ofNat n =>
    obtain ⟨c, cs, hcs, hc⟩ := toDigits_cons n
    have hread := number_toDigits false n hlimit h
    rw [toString_natCast]
    rw [hcs, List.cons_append] at hread ⊢
    rw [scalar_digit hc, hread]
    rfl
  | negSucc n =>
    obtain ⟨c, cs, hcs, hc⟩ := toDigits_cons (n + 1)
    have hread := number_toDigits true (n + 1) hlimit h
    rw [toString_negSucc]
    rw [hcs, List.cons_append] at hread
    rw [hcs, List.cons_append, List.cons_append, scalar_minus hc, hread]
    rfl

/-- It starts with a digit or a minus. -/
theorem toString_int_cons (i : Int) :
    ∃ c cs, (toString i).toList = c :: cs ∧ (c.isDigit = true ∨ c = '-') := by
  cases i with
  | ofNat n =>
    obtain ⟨c, cs, hcs, hc⟩ := toDigits_cons n
    exact ⟨c, cs, (toString_natCast n).trans hcs, .inl hc⟩
  | negSucc n => exact ⟨'-', _, toString_negSucc n, .inr rfl⟩

/-! ## Values -/

/-- A reader with this limit takes as many digits as are written. -/
def Covers (limit : Option Nat) : Prop := ∀ k, limit = some k → digitLimit ≤ k

theorem covers_none : Covers none := nofun

theorem covers_digitLimit : Covers (some digitLimit) := by
  rintro k ⟨⟩
  exact Nat.le_refl _

mutual

/-- The whole numbers in a value have no more digits than are written. -/
def fits : Value → Bool
  | .int i => (Nat.toDigits 10 i.natAbs).length ≤ digitLimit
  | .list vs => itemsFit vs
  | .mapping es => membersFit es
  | _ => true

/-- Those in some values. -/
def itemsFit : List Value → Bool
  | [] => true
  | v :: vs => fits v && itemsFit vs

/-- Those in the values of some members. -/
def membersFit : List (Key × Value) → Bool
  | [] => true
  | (_, v) :: es => fits v && membersFit es

end

theorem wholeChars_eq_ok {i : Int} {cs : List Char} : wholeChars i = .ok cs ↔
    (Nat.toDigits 10 i.natAbs).length ≤ digitLimit ∧ (toString i).toList = cs := by
  unfold wholeChars
  split
  · next hlong => simp [Nat.not_le.2 hlong]
  · next hshort => simp [Nat.not_lt.1 hshort]

mutual

/-- What is written fits. -/
theorem fits_of_written : ∀ {v : Value} {cs : List Char}, encodeChars v = .ok cs → fits v = true
  | .int i, _, h => by
    rw [encodeChars, wholeChars_eq_ok] at h
    rw [fits, decide_eq_true_iff]
    exact h.1
  | .list vs, _, h => by
    rw [encodeChars, bind_eq_ok] at h
    obtain ⟨texts, htexts, -⟩ := h
    rw [fits]
    exact itemsFit_of_written htexts
  | .mapping es, _, h => by
    rw [encodeChars, bind_eq_ok] at h
    obtain ⟨texts, htexts, -⟩ := h
    rw [fits]
    exact membersFit_of_written htexts
  | .null, _, _ | .bool _, _, _ | .float _, _, _ | .str _, _, _ | .bytes _, _, _ | .uuid _, _, _
  | .tuple _, _, _ | .node .., _, _ => by simp [fits]

theorem itemsFit_of_written : ∀ {vs : List Value} {texts : List (List Char)},
    encodeItems vs = .ok texts → itemsFit vs = true
  | [], _, _ => by rw [itemsFit]
  | v :: vs, _, h => by
    simp only [encodeItems, bind_eq_ok] at h
    obtain ⟨item, hitem, items, hitems, -⟩ := h
    rw [itemsFit, Bool.and_eq_true]
    exact ⟨fits_of_written hitem, itemsFit_of_written hitems⟩

theorem membersFit_of_written : ∀ {es : List (Key × Value)} {texts : List (List Char)},
    encodeMembers es = .ok texts → membersFit es = true
  | [], _, _ => by rw [membersFit]
  | (_, v) :: es, _, h => by
    simp only [encodeMembers, bind_eq_ok] at h
    obtain ⟨_, -, value, hvalue, members, hmembers, -⟩ := h
    rw [membersFit, Bool.and_eq_true]
    exact ⟨fits_of_written hvalue, membersFit_of_written hmembers⟩

end

/-- The text starts with no blank, and with nothing that ends a list or an object. -/
def Starts (cs : List Char) : Prop :=
  ∃ c tail, cs = c :: tail ∧ c ∉ [' ', '\t', '\n', '\r', ']', '\x7d']

namespace Starts

variable {cs : List Char}

theorem append (h : Starts cs) (rest : List Char) : Starts (cs ++ rest) := by
  obtain ⟨c, tail, rfl, hc⟩ := h
  exact ⟨c, tail ++ rest, rfl, hc⟩

theorem skipBlanks (h : Starts cs) : skipBlanks cs = cs := by
  obtain ⟨c, tail, rfl, hc⟩ := h
  simp only [List.mem_cons, not_or] at hc
  rw [Json.skipBlanks, if_neg (by simp [hc])]

/-- The blank behind a comma or a colon is skipped. -/
theorem skipBlank (h : Starts cs) : Json.skipBlanks (' ' :: cs) = cs := by
  rw [Json.skipBlanks, if_pos (by decide), h.skipBlanks]

end Starts

theorem joined_cons (text : List Char) {texts : List (List Char)} (h : texts ≠ []) :
    joined (text :: texts) = text ++ ',' :: ' ' :: joined texts := by
  cases texts with
  | nil => exact absurd rfl h
  | cons text' texts => rfl

theorem Starts.joined {text : List Char} (h : Starts text) (texts : List (List Char)) :
    Starts (joined (text :: texts)) := by
  by_cases htexts : texts = []
  · rw [htexts]
    exact h
  · rw [joined_cons text htexts]
    exact h.append _

/-- The text is that of the value, and where it stands in JSON text the value is read. A value takes
at most two steps for each of its characters: one for itself, and one for its place in a list. -/
structure Spells (limit : Option Nat) (cs : List Char) (v : Value) : Prop where
  written : encodeChars v = .ok cs
  starts : Starts cs
  read : ∀ steps rest, 2 * cs.length ≤ steps → Ends rest →
    value limit steps (cs ++ rest) = .ok (v, rest)

namespace Spells

variable {cs : List Char} {v : Value}

/-- A value that is no list and no object is read at once. -/
theorem ofScalar (hwritten : encodeChars v = .ok cs) {c : Char} {tail : List Char}
    (hcs : cs = c :: tail) (hc : c ∉ ['[', '\x7b', ' ', '\t', '\n', '\r', ']', '\x7d'])
    (h : ∀ rest, Ends rest → scalar limit (cs ++ rest) = .ok (v, rest)) :
    Spells limit cs v where
  written := hwritten
  starts := ⟨c, tail, hcs, fun h => hc (.tail _ (.tail _ h))⟩
  read steps rest hsteps hrest := by
    subst hcs
    have hlength : (c :: tail).length = tail.length + 1 := rfl
    obtain ⟨steps, rfl⟩ : ∃ n, steps = n + 1 := ⟨steps - 1, by omega⟩
    have hread := h rest hrest
    rw [List.cons_append] at hread ⊢
    rw [value, hread]
    · intro _ h
      cases h
      exact hc (.head _)
    · intro _ h
      cases h
      exact hc (.tail _ (.head _))

theorem null : Spells limit "null".toList .null :=
  ofScalar rfl rfl (by decide) fun _ _ => rfl

theorem bool (b : Bool) : Spells limit (if b then "true" else "false").toList (.bool b) := by
  cases b with
  | true => exact ofScalar rfl rfl (by decide) fun _ _ => rfl
  | false => exact ofScalar rfl rfl (by decide) fun _ _ => rfl

theorem str (s : String) : Spells limit (stringChars s.toList) (.str s) := by
  refine ofScalar rfl rfl (by decide) fun rest _ => ?_
  have hbody : stringChars s.toList ++ rest = '"' :: (s.toList.flatMap escapeChar ++ '"' :: rest) := by
    simp [stringChars]
  rw [hbody, scalar, stringBody_flatMap]
  simp [Except.map]

theorem int {i : Int} (hlimit : Covers limit)
    (hi : (Nat.toDigits 10 i.natAbs).length ≤ digitLimit) :
    Spells limit (toString i).toList (.int i) := by
  have hwritten : encodeChars (.int i) = .ok (toString i).toList := by
    rw [encodeChars, wholeChars_eq_ok]
    exact ⟨hi, rfl⟩
  obtain ⟨c, cs, hcs, hc⟩ := toString_int_cons i
  refine ofScalar hwritten hcs ?_ fun rest hrest =>
    scalar_int i (fun k hk => Nat.le_trans hi (hlimit k hk)) hrest
  -- none of these marks is a digit or a minus
  have hno : ['[', '\x7b', ' ', '\t', '\n', '\r', ']', '\x7d'].all
      (fun d => !d.isDigit && d != '-') = true := by decide
  intro h
  have hnot := List.all_eq_true.1 hno c h
  rcases hc with hc | rfl
  · simp [hc] at hnot
  · cases hnot

end Spells

/-- The items of a list are read up to its bracket. -/
theorem items_joined {texts : List (List Char)} {vs : List Value}
    (h : List.Forall₂ (Spells limit) texts vs) (hvs : vs ≠ []) {steps : Nat}
    (hsteps : 2 * (joined texts).length + 1 ≤ steps) :
    items limit steps (joined texts ++ ']' :: rest) = .ok (vs, rest) := by
  induction h generalizing steps with
  | nil => exact absurd rfl hvs
  | @cons text v texts vs hv htexts ih =>
    obtain ⟨steps, rfl⟩ : ∃ n, steps = n + 1 := ⟨steps - 1, by omega⟩
    -- behind an item comes the bracket, or the comma in front of the next one
    cases htexts with
    | nil =>
      have hread := hv.read steps (']' :: rest) (by rw [joined] at hsteps; omega)
        (ends_cons (.inr (.inl rfl)))
      rw [joined, items, hread]
      rfl
    | @cons text' v' texts vs hv' htexts =>
      have htext := joined_cons text (List.cons_ne_nil text' texts)
      have hlength := congrArg List.length htext
      simp only [List.length_append, List.length_cons] at hlength
      have hread := hv.read steps (',' :: ' ' :: (joined (text' :: texts) ++ ']' :: rest)) (by omega)
        (ends_cons (.inl rfl))
      have hskip := ((hv'.starts.joined texts).append (']' :: rest)).skipBlank
      have hrest := ih (List.cons_ne_nil v' vs)
        (by omega : 2 * (joined (text' :: texts)).length + 1 ≤ steps)
      have hcomma : skipBlanks (',' :: ' ' :: (joined (text' :: texts) ++ ']' :: rest))
          = ',' :: ' ' :: (joined (text' :: texts) ++ ']' :: rest) := rfl
      rw [htext, List.append_assoc, List.cons_append, List.cons_append, items, hread]
      simp only [bind, Except.bind, hcomma, hskip, hrest]

/-- The text is that of the member. -/
def SpellsMember (limit : Option Nat) (text : List Char) (e : Key × Value) : Prop :=
  ∃ name cs, e.1 = .str name ∧ text = stringChars name.toList ++ ':' :: ' ' :: cs ∧
    Spells limit cs e.2

theorem SpellsMember.starts {text : List Char} {e : Key × Value} (h : SpellsMember limit text e) :
    Starts text := by
  obtain ⟨name, cs, -, rfl, -⟩ := h
  exact ⟨_, _, rfl, by decide⟩

/-- One member is read: its name, and its value. -/
theorem members_spelled {text : List Char} {e : Key × Value} (h : SpellsMember limit text e)
    {read : Entries} (hfresh : e.1 ∉ read.names) {steps : Nat} (hsteps : 2 * text.length ≤ steps)
    (hrest : Ends rest) :
    members limit (steps + 1) read (text ++ rest) = match skipBlanks rest with
      | '\x7d' :: rest => .ok (read ++ [e], rest)
      | ',' :: rest => members limit steps (read ++ [e]) (skipBlanks rest)
      | _ => .error .malformed := by
  obtain ⟨k, v⟩ := e
  obtain ⟨name, cs, rfl, rfl, hv⟩ := h
  have hname : stringChars name.toList ++ ':' :: ' ' :: cs ++ rest
      = '"' :: (name.toList.flatMap escapeChar ++ '"' :: ':' :: ' ' :: (cs ++ rest)) := by
    simp [stringChars]
  have hlength := congrArg List.length hname
  simp only [List.length_append, List.length_cons] at hlength hsteps
  have hcolon : skipBlanks (':' :: ' ' :: (cs ++ rest)) = ':' :: ' ' :: (cs ++ rest) := rfl
  have hread := hv.read steps rest (by omega) hrest
  have hput : Entries.put read (.str name) v = read ++ [(.str name, v)] :=
    Entries.put_fresh fun n hn => by
      rw [Bool.eq_false_iff]
      intro hsame
      rw [Key.same_str.1 hsame] at hn
      exact hfresh hn
  rw [hname, members, stringBody_flatMap]
  simp only [bind, Except.bind, hcolon, (hv.starts.append rest).skipBlank, hread]
  rw [String.ofList_toList]
  exact hput ▸ rfl

/-- The members of an object are read up to its brace, behind those already read. -/
theorem members_joined {texts : List (List Char)} {es : Entries}
    (h : List.Forall₂ (SpellsMember limit) texts es) (hes : es ≠ []) {read : Entries}
    (hnames : (Entries.names (read ++ es)).Nodup) {steps : Nat}
    (hsteps : 2 * (joined texts).length + 1 ≤ steps) :
    members limit steps read (joined texts ++ '\x7d' :: rest) = .ok (read ++ es, rest) := by
  induction h generalizing steps read with
  | nil => exact absurd rfl hes
  | @cons text e texts es he htexts ih =>
    obtain ⟨steps, rfl⟩ : ∃ n, steps = n + 1 := ⟨steps - 1, by omega⟩
    have hfresh : e.1 ∉ read.names := by
      rw [Entries.names, List.map_append, List.map_cons] at hnames
      exact fun h => (List.nodup_append.1 hnames).2.2 _ h _ (.head _) rfl
    -- the member goes to those already read, which is what the induction is for
    cases htexts with
    | nil =>
      rw [joined] at hsteps ⊢
      rw [members_spelled he hfresh (by omega) (ends_cons (.inr (.inr rfl)))]
      rfl
    | @cons text' e' texts es he' htexts =>
      have htext := joined_cons text (List.cons_ne_nil text' texts)
      have hlength := congrArg List.length htext
      simp only [List.length_append, List.length_cons] at hlength
      have hskip := (((SpellsMember.starts he').joined texts).append ('\x7d' :: rest)).skipBlank
      have hcomma : skipBlanks (',' :: ' ' :: (joined (text' :: texts) ++ '\x7d' :: rest))
          = ',' :: ' ' :: (joined (text' :: texts) ++ '\x7d' :: rest) := rfl
      have hnames' : (Entries.names (read ++ [e] ++ e' :: es)).Nodup := by simpa using hnames
      have hrest := ih (List.cons_ne_nil e' es) hnames'
        (by omega : 2 * (joined (text' :: texts)).length + 1 ≤ steps)
      rw [htext, List.append_assoc, List.cons_append, List.cons_append,
        members_spelled he hfresh (by omega) (ends_cons (.inl rfl)), hcomma]
      simp only [hskip, hrest, List.append_assoc, List.singleton_append]

theorem value_list {cs : List Char} (h : Starts cs) (steps : Nat) :
    value limit (steps + 1) ('[' :: cs)
      = (items limit steps cs).map fun (vs, rest) => (.list vs, rest) := by
  have hskip := h.skipBlanks
  obtain ⟨c, tail, rfl, hc⟩ := h
  rw [value, hskip]
  split
  · next h =>
    cases h
    exact absurd hc (by decide)
  · rfl

theorem value_object {cs : List Char} (h : Starts cs) (steps : Nat) :
    value limit (steps + 1) ('\x7b' :: cs)
      = (members limit steps [] cs).map fun (es, rest) => (.mapping es, rest) := by
  have hskip := h.skipBlanks
  obtain ⟨c, tail, rfl, hc⟩ := h
  rw [value, hskip]
  split
  · next h =>
    cases h
    exact absurd hc (by decide)
  · rfl

namespace Spells

/-- A list is read if its items are. -/
theorem list {texts : List (List Char)} {vs : List Value}
    (h : List.Forall₂ (Spells limit) texts vs) :
    Spells limit ('[' :: (joined texts ++ [']'])) (.list vs) where
  written := by
    have hitems : encodeItems vs = .ok texts := by
      induction h with
      | nil => rfl
      | cons hv _ ih =>
        rw [encodeItems, hv.written, ih]
        rfl
    rw [encodeChars, hitems]
    rfl
  starts := ⟨_, _, rfl, by decide⟩
  read steps rest hsteps hrest := by
    simp only [List.length_cons, List.length_append] at hsteps
    obtain ⟨steps, rfl⟩ : ∃ n, steps = n + 1 := ⟨steps - 1, by omega⟩
    rw [List.cons_append, List.append_assoc, List.singleton_append]
    cases h with
    | nil => rfl
    | @cons text v texts vs hv htexts =>
      have hread : items limit steps (joined (text :: texts) ++ ']' :: rest) = .ok (v :: vs, rest) :=
        items_joined (.cons hv htexts) (List.cons_ne_nil v vs) (by omega)
      rw [value_list ((hv.starts.joined texts).append _), hread]
      rfl

/-- An object is read if its members are, and no two of them have the same name. -/
theorem mapping {texts : List (List Char)} {es : Entries}
    (h : List.Forall₂ (SpellsMember limit) texts es) (hnames : es.names.Nodup) :
    Spells limit ('\x7b' :: (joined texts ++ ['\x7d'])) (.mapping es) where
  written := by
    have hmembers : encodeMembers es = .ok texts := by
      clear hnames
      induction h with
      | nil => rfl
      | @cons text e _ _ he _ ih =>
        obtain ⟨k, v⟩ := e
        obtain ⟨name, cs, rfl, rfl, hv⟩ := he
        have hwritten : encodeChars v = .ok cs := hv.written
        rw [encodeMembers, memberName, hwritten, ih]
        rfl
    rw [encodeChars, hmembers]
    rfl
  starts := ⟨_, _, rfl, by decide⟩
  read steps rest hsteps hrest := by
    simp only [List.length_cons, List.length_append] at hsteps
    obtain ⟨steps, rfl⟩ : ∃ n, steps = n + 1 := ⟨steps - 1, by omega⟩
    rw [List.cons_append, List.append_assoc, List.singleton_append]
    cases h with
    | nil => rfl
    | @cons text e texts es he htexts =>
      have hread : members limit steps [] (joined (text :: texts) ++ '\x7d' :: rest)
          = .ok (e :: es, rest) :=
        members_joined (.cons he htexts) (List.cons_ne_nil e es) hnames (by omega)
      rw [value_object (((SpellsMember.starts he).joined texts).append _), hread]
      rfl

end Spells

mutual

/-- A value that says something in JSON has a text. -/
theorem exists_spells (hlimit : Covers limit) : ∀ {v : Value} {d : Datum}, v.datum? = some d →
    fits v = true → ∃ cs, Spells limit cs v
  | .null, _, _, _ => ⟨_, .null⟩
  | .bool b, _, _, _ => ⟨_, .bool b⟩
  | .int i, _, _, hfits => ⟨_, .int hlimit (by rwa [fits, decide_eq_true_iff] at hfits)⟩
  | .str s, _, _, _ => ⟨_, .str s⟩
  | .list vs, _, h, hfits => by
    rw [Value.datum?, Option.map_eq_some_iff] at h
    obtain ⟨items, hitems, -⟩ := h
    rw [fits] at hfits
    obtain ⟨texts, htexts⟩ := exists_spells_items hlimit hitems hfits
    exact ⟨_, .list htexts⟩
  | .mapping es, _, h, hfits => by
    rw [Value.datum?, Option.map_eq_some_iff] at h
    obtain ⟨o, ho, -⟩ := h
    rw [fits] at hfits
    obtain ⟨texts, htexts⟩ := exists_spells_members hlimit ho hfits
    exact ⟨_, .mapping htexts (Value.object?_nodup ho)⟩

theorem exists_spells_items (hlimit : Covers limit) : ∀ {vs : List Value} {items : List Datum},
    Value.datums? vs = some items → itemsFit vs = true →
    ∃ texts, List.Forall₂ (Spells limit) texts vs
  | [], _, _, _ => ⟨[], .nil⟩
  | v :: vs, _, h, hfits => by
    rw [Value.datums?] at h
    simp only [Option.bind_eq_bind, Option.bind_eq_some_iff] at h
    obtain ⟨d, hd, ds, hds, -⟩ := h
    rw [itemsFit, Bool.and_eq_true] at hfits
    obtain ⟨text, htext⟩ := exists_spells hlimit hd hfits.1
    obtain ⟨texts, htexts⟩ := exists_spells_items hlimit hds hfits.2
    exact ⟨text :: texts, .cons htext htexts⟩

theorem exists_spells_members (hlimit : Covers limit) : ∀ {es : Entries} {o : Object},
    Value.object? es = some o → membersFit es = true →
    ∃ texts, List.Forall₂ (SpellsMember limit) texts es
  | [], _, _, _ => ⟨[], .nil⟩
  | (k, v) :: es, _, h, hfits => by
    obtain ⟨name, d, o, hname, hd, ho, -, -⟩ := Value.object?_cons h
    rw [membersFit, Bool.and_eq_true] at hfits
    obtain ⟨text, htext⟩ := exists_spells hlimit hd hfits.1
    obtain ⟨texts, htexts⟩ := exists_spells_members hlimit ho hfits.2
    exact ⟨_ :: texts, .cons ⟨name, text, hname, rfl, htext⟩ htexts⟩

end

/-- **The JSON text of a value is read as that value.** A value has one if its numbers fit. -/
theorem decode_encode {v : Value} {d : Datum} (hlimit : Covers limit) (h : v.datum? = some d)
    (hfits : fits v = true) : ∃ text, encode v = .ok text ∧ decode limit text = .ok v := by
  obtain ⟨cs, hcs⟩ := exists_spells hlimit h hfits
  refine ⟨String.ofList cs, ?_, ?_⟩
  · rw [encode, hcs.written]
    rfl
  · have hread := hcs.read (2 * cs.length + 2) [] (by omega) ends_nil
    rw [List.append_nil] at hread
    rw [decode, String.toList_ofList, hcs.starts.skipBlanks, hread]
    rfl

/-- What has a text is read from it. -/
theorem decode_written {v : Value} {d : Datum} {text : String} (hlimit : Covers limit)
    (h : v.datum? = some d) (hwritten : encode v = .ok text) : decode limit text = .ok v := by
  obtain ⟨cs, hcs, -⟩ := map_eq_ok.1 hwritten
  obtain ⟨text', htext', hread⟩ := decode_encode hlimit h (fits_of_written hcs)
  rw [hwritten] at htext'
  rwa [← Except.ok.inj htext'] at hread

/-! ## What is not written -/

mutual

/-- Of a value that says something in JSON only whole numbers are not written. -/
theorem error_of_datum : ∀ {v : Value} {d : Datum} {o : Obstacle}, v.datum? = some d →
    encodeChars v = .error o → o = .tooManyDigits
  | .int i, _, _, _, h => by
    rw [encodeChars, wholeChars] at h
    split at h
    · exact (Except.error.inj h).symm
    · cases h
  | .list vs, _, _, hd, h => by
    rw [Value.datum?, Option.map_eq_some_iff] at hd
    obtain ⟨items, hitems, -⟩ := hd
    rw [encodeChars] at h
    exact error_of_datums hitems (map_eq_error.1 h)
  | .mapping es, _, _, hd, h => by
    rw [Value.datum?, Option.map_eq_some_iff] at hd
    obtain ⟨ob, hob, -⟩ := hd
    rw [encodeChars] at h
    exact error_of_object hob (map_eq_error.1 h)
  | .null, _, _, _, h | .bool _, _, _, _, h | .float _, _, _, _, h | .str _, _, _, _, h => by cases h

theorem error_of_datums : ∀ {vs : List Value} {items : List Datum} {o : Obstacle},
    Value.datums? vs = some items → encodeItems vs = .error o → o = .tooManyDigits
  | [], _, _, _, h => by cases h
  | v :: vs, _, _, hd, h => by
    rw [Value.datums?] at hd
    simp only [Option.bind_eq_bind, Option.bind_eq_some_iff] at hd
    obtain ⟨d, hv, ds, hvs, -⟩ := hd
    rw [encodeItems, bind_eq_error] at h
    rcases h with h | ⟨item, -, h⟩
    · exact error_of_datum hv h
    · exact error_of_datums hvs (map_eq_error.1 h)

theorem error_of_object : ∀ {es : Entries} {ob : Object} {o : Obstacle},
    Value.object? es = some ob → encodeMembers es = .error o → o = .tooManyDigits
  | [], _, _, _, h => by cases h
  | (k, v) :: es, _, _, hd, h => by
    obtain ⟨name, d, ob, rfl, hv, hes, -, -⟩ := Value.object?_cons hd
    -- a text is a name, so that the value or a later member is to blame
    have hname : memberName (.str name) = .ok name.toList := rfl
    rw [encodeMembers, bind_ok hname, bind_eq_error] at h
    rcases h with h | ⟨value, -, h⟩
    · exact error_of_datum hv h
    · exact error_of_object hes (map_eq_error.1 h)

end

/-- **A value that says something in JSON is not written if a whole number in it is too long.** -/
theorem encode_long {v : Value} {d : Datum} (h : v.datum? = some d) (hlong : fits v = false) :
    encode v = .error .tooManyDigits := by
  unfold encode
  cases hchars : encodeChars v with
  | ok cs =>
    rw [fits_of_written hchars] at hlong
    cases hlong
  | error o =>
    rw [error_of_datum h hchars]
    rfl

/-! ## What is not read -/

/-- The text of an object with a whole number. -/
def numberText (n : Nat) : List Char :=
  '\x7b' :: '"' :: 'n' :: '"' :: ':' :: ' ' :: (Nat.toDigits 10 n ++ ['\x7d'])

theorem starts_digits (n : Nat) : Starts (Nat.toDigits 10 n ++ rest) := by
  obtain ⟨c, cs, hcs, hc⟩ := toDigits_cons n
  rw [hcs]
  refine ⟨c, _, rfl, fun hmem => ?_⟩
  have hno : [' ', '\t', '\n', '\r', ']', '\x7d'].all (fun d => !d.isDigit) = true := by decide
  simpa [hc] using List.all_eq_true.1 hno c hmem

theorem value_digits (n steps : Nat) :
    value limit (steps + 1) (Nat.toDigits 10 n ++ rest)
      = number limit false (Nat.toDigits 10 n ++ rest) := by
  obtain ⟨c, cs, hcs, hc⟩ := toDigits_cons n
  rw [hcs, List.cons_append, value, scalar_digit hc]
  all_goals exact fun _ h => absurd (List.cons.inj h).1 (ne_of_isDigit hc (by decide))

/-- **An object with a number is read as its number is.** -/
theorem decode_numberText {n : Nat} {x : Except Fault Value}
    (h : number limit false (Nat.toDigits 10 n ++ ['\x7d']) = x.map (·, ['\x7d'])) :
    decode limit (String.ofList (numberText n)) = x.map fun v => .mapping [(.str "n", v)] := by
  have hmembers : ∀ steps, members limit (steps + 2) []
      ('"' :: 'n' :: '"' :: ':' :: ' ' :: (Nat.toDigits 10 n ++ ['\x7d']))
        = x.map fun v => ([(.str "n", v)], []) := by
    intro steps
    have hname : stringBody ('n' :: '"' :: ':' :: ' ' :: (Nat.toDigits 10 n ++ ['\x7d']))
        = .ok (['n'], ':' :: ' ' :: (Nat.toDigits 10 n ++ ['\x7d'])) :=
      stringBody_flatMap ['n'] _
    have hcolon : skipBlanks (':' :: ' ' :: (Nat.toDigits 10 n ++ ['\x7d']))
        = ':' :: ' ' :: (Nat.toDigits 10 n ++ ['\x7d']) := rfl
    rw [members, hname]
    simp only [bind, Except.bind, hcolon, (starts_digits n).skipBlank, value_digits, h]
    -- a fault of the number is passed on, and behind the number the object is closed
    cases x <;> rfl
  have hobject : ∀ steps, value limit (steps + 3) (numberText n)
      = x.map fun v => (.mapping [(.str "n", v)], []) := by
    intro steps
    rw [numberText, value_object ⟨_, _, rfl, by decide⟩, hmembers]
    cases x <;> rfl
  -- an object takes three steps, and there are more than that for its characters
  obtain ⟨steps, hsteps⟩ : ∃ steps, 2 * (numberText n).length + 2 = steps + 3 :=
    ⟨2 * (Nat.toDigits 10 n).length + 13, by simp [numberText]; omega⟩
  have hskip : skipBlanks (numberText n) = numberText n := rfl
  rw [decode, String.toList_ofList]
  simp only [hsteps, hskip, hobject]
  cases x <;> rfl

end Docbase.Json
