import Docbase.Proofs.Index.Levels
import Docbase.Proofs.Value.Keys

/-!
# Uniqueness in index data

Whether an index is unique can be given to its declaration directly, or in data that the declaration is
read from. The declaration takes truth values, the numbers 0 and 1 and the usual words for true and
false. The data takes anything, and says that the index is unique if it is not empty.

* `Index.SaysTruth`: the values for which this comes to the same.
* `Index.ofData_alike_iff`: **data and declaration have the same outcome exactly for these values**,
  or if another part is not accepted.
* `Index.unique_of_stated`, `Index.multi_unique_of_stated`: what the declaration makes unique is unique
  by the data as well.
-/

namespace Docbase

open Sql Input

/-! ## Whole numbers among the real ones -/

namespace Binary64

variable {x : Binary64} {i : Int}

/-- The whole part of a whole number is the number. -/
theorem truncate?_of_sameInt (h : x.sameInt i = true) : x.truncate? = some i := by
  cases x with
  | finite s m e =>
    rw [sameInt_finite] at h
    have hwhole : ∀ j : Int, ((m * 2 ^ e.toNat : Nat) : Int) = j * (2 ^ (-e).toNat : Nat) →
        ((m * 2 ^ e.toNat / 2 ^ (-e).toNat : Nat) : Int) = j := by
      intro j hj
      rw [Int.natCast_ediv, hj, Int.mul_ediv_cancel _ (pow_ne_zero _)]
    cases s with
    | false =>
      have hi := hwhole i (by rw [Int.natCast_mul]; exact h)
      exact congrArg some hi
    | true =>
      have hneg : ((m * 2 ^ e.toNat : Nat) : Int) = -i * (2 ^ (-e).toNat : Nat) := by
        simp only [signed, if_true] at h
        rw [Int.neg_mul, ← h, Int.neg_mul, Int.neg_neg, Int.natCast_mul]
      have hi := hwhole (-i) hneg
      have hwritten : -((m * 2 ^ e.toNat / 2 ^ (-e).toNat : Nat) : Int) = i := by omega
      exact congrArg some hwritten
  | _ => cases h

theorem isZero_iff : x.isZero = true ↔ x.sameInt 0 = true := by
  cases x with
  | finite s m e =>
    rw [sameInt_finite, Int.zero_mul, Int.mul_eq_zero, or_iff_left (pow_ne_zero _)]
    cases s <;> simp [isZero, signed]
  | _ => simp [isZero, sameInt]

end Binary64

/-! ## Truth values -/

namespace Index

/-- The text is one of the words for true. -/
def IsTrueWord (s : String) : Prop := String.ofList (s.toList.map Char.toLower) ∈ trueWords

instance (s : String) : Decidable (IsTrueWord s) := inferInstanceAs (Decidable (_ ∈ trueWords))

/-- The value says as a truth value what it says by not being empty. -/
def SaysTruth : Value → Prop
  | .bool _ => True
  | .int i => i = 0 ∨ i = 1
  | .float x => x.sameInt 0 = true ∨ x.sameInt 1 = true
  | .str s => IsTrueWord s
  | .bytes bs => ∃ s, utf8Text? bs = some s ∧ IsTrueWord s
  | _ => False

theorem boolOfInt_eq_ok {i : Int} {b : Bool} :
    boolOfInt i = .ok b ↔ (i = 0 ∧ b = false) ∨ (i = 1 ∧ b = true) := by
  unfold boolOfInt
  split
  · simp [*, eq_comm]
  · split
    · simp [*, eq_comm]
    · simp [*, Checked.fault]

theorem intOfFloat_eq_ok {x : Binary64} {i : Int} :
    intOfFloat x = .ok i ↔ x.sameInt i = true ∧ -wordBound < i ∧ i < wordBound := by
  constructor
  · intro h
    unfold intOfFloat at h
    split at h
    · split at h
      · cases h
      · split at h
        · cases h
          simp_all
        · cases h
    · cases h
  · rintro ⟨hx, hlow, hhigh⟩
    simp [intOfFloat, Binary64.truncate?_of_sameInt hx, hx, hlow, hhigh]

theorem readBool_int {i : Int} {b : Bool} :
    readBool (.int i) = .ok b ↔ (i = 0 ∧ b = false) ∨ (i = 1 ∧ b = true) := by
  rw [← boolOfInt_eq_ok, readBool]
  by_cases hword : -wordBound ≤ i ∧ i < wordBound
  · simp [hword]
  · -- a number that does not fit in a word is neither 0 nor 1
    have hne : ∀ b, boolOfInt i ≠ .ok b := by
      intro b h
      rcases boolOfInt_eq_ok.1 h with ⟨rfl, -⟩ | ⟨rfl, -⟩ <;> exact hword (by decide)
    simp [hword, hne, Checked.fault]

theorem readBool_float {x : Binary64} {b : Bool} : readBool (.float x) = .ok b ↔
    (x.sameInt 0 = true ∧ b = false) ∨ (x.sameInt 1 = true ∧ b = true) := by
  have hread : readBool (.float x) = .ok b ↔ ∃ i, intOfFloat x = .ok i ∧ boolOfInt i = .ok b := by
    rw [readBool]
    cases hx : intOfFloat x <;> simp [Checked.fault]
  rw [hread]
  simp only [intOfFloat_eq_ok, boolOfInt_eq_ok]
  constructor
  · rintro ⟨i, ⟨hx, -⟩, ⟨rfl, rfl⟩ | ⟨rfl, rfl⟩⟩
    · exact .inl ⟨hx, rfl⟩
    · exact .inr ⟨hx, rfl⟩
  · rintro (⟨hx, rfl⟩ | ⟨hx, rfl⟩)
    · exact ⟨0, ⟨hx, by decide⟩, .inl ⟨rfl, rfl⟩⟩
    · exact ⟨1, ⟨hx, by decide⟩, .inr ⟨rfl, rfl⟩⟩

/-- Only the words for true are read as true. -/
theorem boolOfText_true_iff {s : String} : boolOfText s = .ok true ↔ IsTrueWord s := by
  have hapart : ∀ word ∈ trueWords, word ∉ falseWords := by decide
  unfold boolOfText IsTrueWord
  dsimp only
  generalize String.ofList (s.toList.map Char.toLower) = word
  by_cases hfalse : word ∈ falseWords
  · have hnot : word ∉ trueWords := fun h => hapart word h hfalse
    simp [hfalse, hnot]
  · by_cases htrue : word ∈ trueWords <;> simp [hfalse, htrue, Checked.fault]

/-- A text without characters is no word. -/
theorem boolOfText_empty (b : Bool) : boolOfText "" ≠ .ok b := nofun

/-- A word, given in some form, is taken for what it says if the form is not empty. -/
theorem boolOfText_truthy_iff {s : String} {empty : Bool} (h : empty = true ↔ s = "") :
    boolOfText s = .ok (!empty) ↔ IsTrueWord s := by
  cases empty with
  | false => exact boolOfText_true_iff
  | true =>
    obtain rfl := h.1 rfl
    have hno : ¬ IsTrueWord "" := fun hword => boolOfText_empty _ (boolOfText_true_iff.2 hword)
    exact iff_of_false (boolOfText_empty _) hno

/-- What is read as true is not empty. -/
theorem saysTruth_of_true {v : Value} (h : readBool v = .ok true) : SaysTruth v := by
  cases v with
  | bool b => trivial
  | int i =>
    have hone : i = 1 := by simpa using readBool_int.1 h
    exact .inr hone
  | float x =>
    have hone : x.sameInt 1 = true := by simpa using readBool_float.1 h
    exact .inr hone
  | str s => exact boolOfText_true_iff.1 h
  | bytes bs =>
    rw [readBool] at h
    cases htext : utf8Text? bs with
    | none =>
      rw [htext] at h
      cases h
    | some s =>
      rw [htext] at h
      exact ⟨s, htext, boolOfText_true_iff.1 h⟩
  | _ => cases h

/-- Bytes are empty exactly if their text is. -/
theorem utf8Text?_isEmpty {bs : List UInt8} {s : String} (h : utf8Text? bs = some s) :
    bs.isEmpty = true ↔ s = "" := by
  have hbytes : s.toByteArray = ⟨bs.toArray⟩ := by
    unfold utf8Text? String.fromUTF8? at h
    split at h
    · cases h
      rfl
    · cases h
  rw [← String.toByteArray_eq_empty_iff, hbytes, List.isEmpty_iff]
  constructor
  · rintro rfl
    rfl
  · intro hempty
    have hlist := congrArg (fun b => b.data.toList) hempty
    exact hlist

/-- **A value is read as a truth value by whether it is empty exactly if it says so.** -/
theorem readBool_truthy_iff (v : Value) : readBool v = .ok v.truthy ↔ SaysTruth v := by
  cases v with
  | bool b => exact iff_of_true rfl trivial
  | int i =>
    rw [readBool_int]
    simp [Value.truthy, SaysTruth]
    omega
  | float x =>
    have hone : x.sameInt 1 = true → x.sameInt 0 ≠ true := by
      intro h h'
      cases Binary64.eq_of_sameInt h h'
    rw [readBool_float]
    simp only [Value.truthy, SaysTruth, Bool.not_eq_true', ← Bool.not_eq_true,
      Binary64.isZero_iff]
    tauto
  | str s => exact boolOfText_truthy_iff String.isEmpty_iff
  | bytes bs =>
    rw [readBool]
    cases htext : utf8Text? bs with
    | none => simp [SaysTruth, htext, Checked.fault]
    | some s =>
      have hempty := utf8Text?_isEmpty htext
      simp [SaysTruth, htext, Value.truthy, boolOfText_truthy_iff hempty]
  | _ => exact iff_of_false (by simp [readBool, Checked.fault]) id

/-- What is read as true is so by not being empty, too. -/
theorem readBool_stated {v : Value} (h : readBool v = .ok true) :
    readBool (.bool v.truthy) = readBool v :=
  ((readBool_truthy_iff v).2 (saysTruth_of_true h)).symm

end Index

/-! ## Outcomes of declarations -/

/-- Two declarations have the same outcome: the same result, or each of them fails. -/
def Alike {α : Type} (x y : Except Error α) : Prop :=
  (∃ a, x = .ok a ∧ y = .ok a) ∨ (∃ e, x = .error e) ∧ ∃ e, y = .error e

section Alike

variable {α β γ : Type} {x y : Except Error α}

theorem alike_iff : Alike x y ↔ ∀ a, x = .ok a ↔ y = .ok a := by
  cases x with
  | error e =>
    cases y with
    | error e' => simp [Alike]
    | ok b => simp [Alike]
  | ok a =>
    cases y with
    | error e => simp [Alike]
    | ok b =>
      have hsame : Alike (.ok a) (.ok b) ↔ a = b := by simp [Alike, eq_comm]
      rw [hsame]
      constructor
      · rintro rfl
        exact fun _ => Iff.rfl
      · intro h
        exact Except.ok.inj ((h b).2 rfl)

/-- In another form, outcomes are as alike as before. -/
theorem alike_map {f : α → β} (hf : ∀ a b, f a = f b → a = b) :
    Alike (do let a ← x; pure (f a)) (y.map f) ↔ Alike x y := by
  cases x with
  | error e => cases y <;> simp [Alike, bind, Except.bind, Except.map]
  | ok a =>
    cases y with
    | error e => simp [Alike, bind, Except.bind, pure, Except.pure, Except.map]
    | ok b =>
      have hinj : f b = f a ↔ b = a := ⟨hf b a, congrArg f⟩
      simp [Alike, bind, Except.bind, pure, Except.pure, Except.map, hinj]

namespace Checked

theorem toExcept_eq_ok {x : Checked α} {a : α} : x.toExcept = .ok a ↔ x = .ok a := by
  cases x <;> simp [toExcept]

theorem map_eq_ok {x : Checked α} {f : α → β} {b : β} :
    x.map f = .ok b ↔ ∃ a, x = .ok a ∧ f a = b := by
  cases x <;> simp [map]

theorem named_eq_ok {x : Checked α} {name : String} {a : α} : x.named name = .ok a ↔ x = .ok a := by
  cases x <;> simp [named, within]

theorem both_eq_ok {x : Checked α} {y : Checked β} {p : α × β} :
    x.both y = .ok p ↔ x = .ok p.1 ∧ y = .ok p.2 := by
  cases x <;> cases y <;> simp [both, Prod.ext_iff]

end Checked

open Checked

/-- A declaration that says whether it is unique between its other parts and its name. -/
def declare (parts : Checked α) (unique : Checked Bool) (name : Checked β) (make : α × Bool × β → γ) :
    Except Error γ :=
  ((parts.both ((unique.named "unique").both (name.named "name"))).map make).toExcept

variable {parts : Checked α} {unique : Checked Bool} {name : Checked β} {make : α × Bool × β → γ}

theorem declare_eq_ok {c : γ} : declare parts unique name make = .ok c ↔
    ∃ p, (parts = .ok p.1 ∧ unique = .ok p.2.1 ∧ name = .ok p.2.2) ∧ make p = c := by
  rw [declare, toExcept_eq_ok, Checked.map_eq_ok]
  simp only [both_eq_ok, named_eq_ok]

/-- **Two declarations that are only told apart by what makes them unique** have the same outcome
exactly if this is the same, or if the other parts are not accepted. -/
theorem declare_alike_iff {b : Bool}
    (hmake : ∀ a b b' n, make (a, b, n) = make (a, b', n) → b = b') :
    Alike (declare parts (.ok b) name make) (declare parts unique name make) ↔
      unique = .ok b ∨ ∃ e, declare parts (.ok b) name make = .error e := by
  rw [alike_iff]
  constructor
  · intro h
    cases hdeclared : declare parts (.ok b) name make with
    | error e => exact .inr ⟨e, rfl⟩
    | ok c =>
      obtain ⟨⟨a, b₀, n⟩, ⟨hparts, hb, hname⟩, rfl⟩ := declare_eq_ok.1 hdeclared
      cases hb
      obtain ⟨⟨a', b', n'⟩, ⟨hparts', hunique, hname'⟩, hsame⟩ := declare_eq_ok.1 ((h _).1 hdeclared)
      -- all but the uniqueness is read from the same, so the results can only differ in it
      cases hparts.symm.trans hparts'
      cases hname.symm.trans hname'
      rw [hunique, hmake _ _ _ _ hsame]
      exact .inl rfl
  · rintro (rfl | ⟨e, he⟩) c
    · exact Iff.rfl
    · refine iff_of_false (by simp [he]) fun hc => ?_
      obtain ⟨⟨a, b', n⟩, ⟨hparts, -, hname⟩, -⟩ := declare_eq_ok.1 hc
      have hdeclared : declare parts (.ok b) name make = .ok (make (a, b, n)) :=
        declare_eq_ok.2 ⟨(a, b, n), ⟨hparts, rfl, hname⟩, rfl⟩
      cases he.symm.trans hdeclared

end Alike

/-! ## Data and declarations -/

section Forms

variable {field direction fields name unique : Value}

theorem FieldIndex.of_alike_iff :
    Alike (FieldIndex.of field direction (.bool unique.truthy) name).toExcept
        (FieldIndex.of field direction unique name).toExcept ↔
      Index.SaysTruth unique ∨
        ∃ e, (FieldIndex.of field direction (.bool unique.truthy) name).toExcept = .error e := by
  rw [← Index.readBool_truthy_iff]
  refine declare_alike_iff fun a b b' n h => ?_
  cases h
  rfl

theorem MultiFieldIndex.of_alike_iff {given : List GivenField} :
    Alike (MultiFieldIndex.of given (.bool unique.truthy) name)
        (MultiFieldIndex.of given unique name) ↔
      Index.SaysTruth unique ∨
        ∃ e, MultiFieldIndex.of given (.bool unique.truthy) name = .error e := by
  rw [← Index.readBool_truthy_iff]
  unfold MultiFieldIndex.of
  cases given.mapM GivenField.read with
  | error e => simp [Alike, bind, Except.bind]
  | ok fs =>
    refine declare_alike_iff fun a b b' n h => ?_
    cases h
    rfl

namespace Index

/-- The data of an index on one field. -/
def fieldForm (field direction unique name : Value) : Value :=
  .object [("type", .str "field"), ("field", field), ("sort", direction), ("unique", unique),
    ("name", name)]

/-- The data of an index on several fields. -/
def multiForm (fields unique name : Value) : Value :=
  .object [("type", .str "multi_field"), ("fields", fields), ("unique", unique), ("name", name)]

theorem ofData_fieldForm : ofData (fieldForm field direction unique name) = (do
    let index ← (FieldIndex.of field direction (.bool unique.truthy) name).toExcept
    pure (.plain (.field index))) := rfl

theorem ofData_multiForm : ofData (multiForm fields unique name) = (do
    let given ← fieldsOfData fields
    let index ← MultiFieldIndex.of given (.bool unique.truthy) name
    pure (.plain (.multi index))) := ofData_multi rfl rfl

/-- **Data and declaration have the same outcome** exactly if the value that is given for uniqueness
says as a truth value what it says by not being empty, or if the data is not accepted anyway. -/
theorem ofData_alike_iff (field direction unique name fields : Value) :
    (Alike (ofData (fieldForm field direction unique name))
        ((FieldIndex.of field direction unique name).toExcept.map fun i => .plain (.field i)) ↔
      SaysTruth unique ∨ ∃ e, ofData (fieldForm field direction unique name) = .error e) ∧
    ∀ given, fieldsOfData fields = .ok given →
      (Alike (ofData (multiForm fields unique name))
          ((MultiFieldIndex.of given unique name).map fun i => .plain (.multi i)) ↔
        SaysTruth unique ∨ ∃ e, ofData (multiForm fields unique name) = .error e) := by
  constructor
  · rw [ofData_fieldForm, map_isError, ← FieldIndex.of_alike_iff]
    exact alike_map fun i j h => by cases h; rfl
  · intro given hgiven
    rw [ofData_multiForm, bind_ok hgiven, map_isError, ← MultiFieldIndex.of_alike_iff]
    exact alike_map fun i j h => by cases h; rfl

/-- The word for true is taken for true by the data as well. -/
theorem ofData_alike_yes :
    Alike (ofData (multiForm (.list [.str "age"]) (.str "yes") .null))
      ((MultiFieldIndex.of [.value (.str "age")] (.str "yes") .null).map
        fun i => .plain (.multi i)) := by
  have hword : IsTrueWord "yes" := by decide +kernel
  exact ((ofData_alike_iff (.str "age") (.str "ASC") (.str "yes") .null (.list [.str "age"])).2 _
    rfl).2 (.inl hword)

/-- A word for false makes an index unique if it stands in the data. -/
theorem ofData_unlike_false :
    ofData (fieldForm (.str "age") (.str "ASC") (.str "false") .null) =
        .ok (.plain (.field ⟨"age", .asc, true, none⟩)) ∧
      (FieldIndex.of (.str "age") (.str "ASC") (.str "false") .null).toExcept =
        .ok ⟨"age", .asc, false, none⟩ ∧
      ¬ Alike (ofData (fieldForm (.str "age") (.str "ASC") (.str "false") .null))
        ((FieldIndex.of (.str "age") (.str "ASC") (.str "false") .null).toExcept.map
          fun i => .plain (.field i)) := by
  have hdata : ofData (fieldForm (.str "age") (.str "ASC") (.str "false") .null) =
      .ok (.plain (.field ⟨"age", .asc, true, none⟩)) := rfl
  have hdeclared : (FieldIndex.of (.str "age") (.str "ASC") (.str "false") .null).toExcept =
      .ok ⟨"age", .asc, false, none⟩ := rfl
  refine ⟨hdata, hdeclared, ?_⟩
  rw [hdata, hdeclared]
  simp [Alike, Except.map]

/-- **What the declaration makes unique is unique by the data as well.** -/
theorem unique_of_stated {i : FieldIndex}
    (h : (FieldIndex.of field direction unique name).toExcept = .ok i) (hunique : i.unique = true) :
    ofData (fieldForm field direction unique name) = .ok (.plain (.field i)) := by
  obtain ⟨⟨parts, b, n⟩, ⟨-, hread, -⟩, rfl⟩ := declare_eq_ok.1 h
  obtain rfl : b = true := hunique
  have hsame : FieldIndex.of field direction (.bool unique.truthy) name =
      FieldIndex.of field direction unique name := by
    rw [FieldIndex.of, FieldIndex.of, readBool_stated hread]
  rw [ofData_fieldForm, hsame, bind_ok h]
  rfl

theorem multi_unique_of_stated {given : List GivenField} {i : MultiFieldIndex}
    (hgiven : fieldsOfData fields = .ok given) (h : MultiFieldIndex.of given unique name = .ok i)
    (hunique : i.unique = true) :
    ofData (multiForm fields unique name) = .ok (.plain (.multi i)) := by
  obtain ⟨fs, -, hdeclared⟩ := bind_eq_ok.1 h
  obtain ⟨⟨parts, b, n⟩, ⟨-, hread, -⟩, rfl⟩ := declare_eq_ok.1 hdeclared
  obtain rfl : b = true := hunique
  have hsame : MultiFieldIndex.of given (.bool unique.truthy) name =
      MultiFieldIndex.of given unique name := by
    rw [MultiFieldIndex.of, MultiFieldIndex.of, readBool_stated hread]
  rw [ofData_multiForm, bind_ok hgiven, hsame, bind_ok h]
  rfl

end Index

end Forms

end Docbase
