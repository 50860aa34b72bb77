import Docbase.Proofs.Sql.Identifier
import Docbase.Proofs.Sql.Reading

/-!
# What a condition comes to

A condition in SQL is true or false, or neither if it speaks of a null. Here a text is worked out
that speaks of one expression, from what the expression comes to beside each bound value.

* `Truth`: the three outcomes, with `AND`, `OR` and `NOT`.
* `Truth.among`, `Truth.notAmong`: `IN` and `NOT IN`, from what the comparisons with the members
  come to; `among_append` and `notAmong_append`: a longer list is a disjunction or a conjunction.
* `Printed.truth`: what a text with its bound values comes to, if it is read to its end.
* `read_test`, `read_not_test`, `read_among`: what tests of the expression come to.
-/

namespace Docbase.Sql

/-- What a condition comes to. -/
inductive Truth
  | no
  /-- It speaks of a null. -/
  | unknown
  | yes
  deriving DecidableEq, Repr

namespace Truth

def not : Truth → Truth
  | no => yes
  | unknown => unknown
  | yes => no

def and : Truth → Truth → Truth
  | no, _ | _, no => no
  | yes, yes => yes
  | unknown, _ | _, unknown => unknown

def or : Truth → Truth → Truth
  | yes, _ | _, yes => yes
  | no, no => no
  | unknown, _ | _, unknown => unknown

/-- A value is in a list if it equals a member. It is not if it differs from all of them, and
otherwise this is not known. -/
def among (ts : List Truth) : Truth :=
  if yes ∈ ts then yes else if unknown ∈ ts then unknown else no

/-- A value is outside a list if it differs from all members. It is not if it equals one of them,
and otherwise this is not known. -/
def notAmong (ts : List Truth) : Truth :=
  if yes ∈ ts then no else if unknown ∈ ts then unknown else yes

/-- Beside a null nothing is known. -/
def equal {α : Type} (equals : α → Value → Truth) : Option α → Value → Truth
  | none, _ => unknown
  | some x, v => equals x v

theorem notAmong_eq (ts : List Truth) : notAmong ts = (among ts).not := by
  unfold notAmong among
  split
  · rfl
  · split <;> rfl

theorem among_singleton (t : Truth) : among [t] = t := by cases t <;> rfl

theorem notAmong_singleton (t : Truth) : notAmong [t] = t.not := by cases t <;> rfl

/-- `IN` of a longer list is a disjunction. -/
theorem among_append (ts us : List Truth) : among (ts ++ us) = (among ts).or (among us) := by
  unfold among
  by_cases h₁ : yes ∈ ts <;> by_cases h₂ : yes ∈ us <;>
    by_cases h₃ : unknown ∈ ts <;> by_cases h₄ : unknown ∈ us <;>
    simp [h₁, h₂, h₃, h₄, or]

theorem not_or (t u : Truth) : (t.or u).not = t.not.and u.not := by cases t <;> cases u <;> rfl

/-- `NOT IN` of a longer list is a conjunction. -/
theorem notAmong_append (ts us : List Truth) :
    notAmong (ts ++ us) = (notAmong ts).and (notAmong us) := by
  rw [notAmong_eq, among_append, not_or, notAmong_eq, notAmong_eq]

/-- Beside a null member nothing is known to be outside of a list. -/
example : notAmong [no, unknown] = unknown ∧ notAmong [yes, unknown] = no := by decide

end Truth

/-! ## Working out a text -/

variable (e : String) (holds : Value → Truth) (params : Params)

/-- What the comparisons with the members of a list come to, up to its closing bracket. -/
def readList (s : List Char) : Option (List Truth × List Char) := do
  let (names, s) ← readHoles s
  let values ← names.mapM params.get?
  let s ← behind? ")" s
  some (values.map holds, s)

/-- What is said of the expression. -/
def readSaid (s : List Char) : Option (Truth × List Char) :=
  match behind? " = " s, behind? " IN(" s, behind? " NOT IN(" s with
  | some s, _, _ => do
    let (name, s) ← readHole s
    let value ← params.get? name
    some (holds value, s)
  | _, some s, _ => (readList holds params s).map fun p => (.among p.1, p.2)
  | _, _, some s => (readList holds params s).map fun p => (.notAmong p.1, p.2)
  | _, _, _ => none

/-- Conditions that speak of the expression `e`, worked out from what it comes to beside a value. -/
def truths : Grammar Truth where
  leaf s :=
    match behind? "1 = 1" s, behind? "1 != 1" s, behind? e s with
    | some s, _, _ => some (.yes, s)
    | _, some s, _ => some (.no, s)
    | _, _, some s => readSaid holds params s
    | _, _, _ => none
  both := .and
  either := .or
  negate := .not

/-- What a text with its bound values comes to, if it is read to its end. -/
def Printed.truth (p : Printed) : Option Truth :=
  match (truths e holds p.params).read p.text.toList with
  | some (t, []) => some t
  | _ => none

/-- An expression that a reader tells apart from the words around it. -/
structure Legible (e : String) : Prop where
  start : ∃ c cs, e.toList = c :: cs ∧ isNameStart c = true
  /-- `NOT` and a blank are not the start of it. -/
  solid : ' ' ∉ e.toList.take 4

variable {e holds params}

namespace Legible

/-- It starts with no other character. -/
theorem behind?_none (h : Legible e) {c : Char} (hc : isNameStart c = false) (s : List Char) :
    behind? e (c :: s) = none := by
  obtain ⟨d, ds, he, hd⟩ := h.start
  have hne : d ≠ c := by
    rintro rfl
    rw [hc] at hd
    cases hd
  rw [behind?, he]
  simp [List.isPrefixOf?, hne]

/-- A text that starts with the expression says something of it. -/
theorem leaf_append (h : Legible e) (s : List Char) :
    (truths e holds params).leaf (e.toList ++ s) = readSaid holds params s := by
  obtain ⟨c, cs, he, hc⟩ := h.start
  have hone : '1' ≠ c := by
    rintro rfl
    revert hc
    decide
  have htrue : behind? "1 = 1" (e.toList ++ s) = none := by
    simp [behind?, he, List.isPrefixOf?, hone]
  have hfalse : behind? "1 != 1" (e.toList ++ s) = none := by
    simp [behind?, he, List.isPrefixOf?, hone]
  simp only [truths, htrue, hfalse, behind?_append]

theorem leaf_open (h : Legible e) (s : List Char) :
    (truths e holds params).leaf ("(".toList ++ s) = none := by
  have he : behind? e ("(".toList ++ s) = none := h.behind?_none (by decide) s
  have htrue : behind? "1 = 1" ("(".toList ++ s) = none := rfl
  have hfalse : behind? "1 != 1" ("(".toList ++ s) = none := rfl
  simp only [truths, htrue, hfalse, he]

/-- A negated test is not read as a test, whatever the expression is called. -/
theorem leaf_not (h : Legible e) (s : List Char) :
    (truths e holds params).leaf ("NOT ".toList ++ (e.toList ++ (" = ".toList ++ s))) = none := by
  set t := "NOT ".toList ++ (e.toList ++ (" = ".toList ++ s)) with ht
  have htrue : behind? "1 = 1" t = none := rfl
  have hfalse : behind? "1 != 1" t = none := rfl
  simp only [truths, htrue, hfalse]
  cases hu : behind? e t with
  | none => rfl
  | some u =>
    -- nothing is said behind the start of `NOT`, and a longer expression has the blank in it
    have hsplit : e.toList ++ u = t := List.isPrefixOf?_eq_some_iff_append_eq.1 hu
    have hsolid := h.solid
    obtain ⟨c, cs, he, -⟩ := h.start
    rw [ht, he] at hsplit
    rw [he] at hsolid
    simp only [String.reduceToList, List.cons_append, List.nil_append] at hsplit
    match cs with
    | [] => cases hsplit; rfl
    | [_] => cases hsplit; rfl
    | [_, _] => cases hsplit; rfl
    | _ :: _ :: _ :: _ =>
      simp only [List.cons_append, List.cons.injEq] at hsplit
      simp [hsplit.2.2.2.1] at hsolid

end Legible

theorem legible_id : Legible Operand.id.text := ⟨⟨'i', ['d'], rfl, by decide⟩, by decide⟩

theorem legible_column (name : Identifier) : Legible (Operand.column name).text := by
  obtain ⟨c, cs, he, hc, -⟩ := name.start
  have hblank : ' ' ∉ name.text.toList := name.notMem (by decide) (by decide)
  exact ⟨⟨c, cs, he, hc⟩, fun h => hblank (List.mem_of_mem_take h)⟩

/-- In a place of the document an arrow stands right behind the column. -/
theorem legible_json (keys : List String) : Legible (Operand.json docColumn keys).text := by
  refine ⟨⟨'d', 'o' :: 'c' :: (arrows keys).toList, by simp [Operand.text, docColumn], by decide⟩, ?_⟩
  cases keys with
  | nil => decide
  | cons => simp [Operand.text, docColumn, arrows]

/-! ## Tests of the expression -/

/-- The values are bound under the numbers from `number` on. -/
def Params.Holds (params : Params) (number : Nat) (vs : List Value) : Prop :=
  (paramNames number vs.length).map params.get? = vs.map some

namespace Params

theorem holds_numbered (number : Nat) (vs : List Value) : Holds (numbered number vs) number vs := by
  have hnodup : (numbered number vs).names.Nodup := by
    rw [names_numbered]
    exact nodup_paramNames number vs.length
  have h := map_get?_names hnodup
  rw [names_numbered] at h
  have hvalues : (numbered number vs).map (fun p => some p.2) = vs.map some := by
    rw [← values_numbered number vs, List.map_map, values_numbered]
    rfl
  rw [Holds, h, hvalues]

theorem Holds.append {number : Nat} {vs ws : List Value} (h : params.Holds number (vs ++ ws)) :
    params.Holds number vs ∧ params.Holds (number + vs.length) ws := by
  rw [Holds, List.length_append, ← paramNames_append, List.map_append, List.map_append] at h
  exact List.append_inj h (by simp [paramNames])

theorem Holds.mapM {number : Nat} {vs : List Value} (h : params.Holds number vs) :
    (paramNames number vs.length).mapM params.get? = some vs := by
  unfold Holds at h
  generalize paramNames number vs.length = names at h
  induction names generalizing vs with
  | nil =>
    have hvs : vs = [] := by simpa using h.symm
    rw [hvs]
    rfl
  | cons name names ih =>
    cases vs with
    | nil => cases h
    | cons v vs =>
      obtain ⟨hv, hvs⟩ := List.cons.inj h
      rw [List.mapM_cons, hv, ih hvs]
      rfl

end Params

variable {operand : Operand} {number : Nat}

/-- The text of a test behind its expression. -/
theorem print_test (operand : Operand) (v : Value) (number : Nat) (rest : List Char) :
    ((Condition.test operand .eq v).print number).text.toList ++ rest =
      operand.text.toList ++ (" = ".toList ++ ((placeholder (paramName number)).toList ++ rest)) := by
  have hp : (Condition.test operand .eq v).print number =
      ⟨operand.text ++ " " ++ Operator.eq.symbol ++ " " ++ placeholder (paramName number),
        [(paramName number, v)], number + 1⟩ := rfl
  rw [hp]
  simp [Operator.symbol]

/-- A test of the expression comes to what its comparison comes to. -/
theorem read_test (h : Legible operand.text) {v : Value} (hv : params.Holds number [v])
    (rest : List Char) :
    (truths operand.text holds params).read
      (((Condition.test operand .eq v).print number).text.toList ++ rest) =
        some (holds v, rest) := by
  have hget : params.get? (paramName number) = some v := List.singleton_inj.1 hv
  refine Grammar.read_leaf ?_
  rw [print_test, h.leaf_append, readSaid, behind?_append]
  simp [readHole_placeholder, hget]

/-- A negated test comes to the opposite. -/
theorem read_not_test (h : Legible operand.text) {v : Value} (hv : params.Holds number [v])
    (rest : List Char) :
    (truths operand.text holds params).read
      (((Condition.negate (.test operand .eq v)).print number).text.toList ++ rest) =
        some ((holds v).not, rest) := by
  have hs : ((Condition.negate (.test operand .eq v)).print number).text.toList ++ rest =
      "NOT ".toList ++ (((Condition.test operand .eq v).print number).text.toList ++ rest) := by
    have hp : (Condition.negate (.test operand .eq v)).print number =
        ⟨"NOT " ++ ((Condition.test operand .eq v).print number).text,
          ((Condition.test operand .eq v).print number).params,
          ((Condition.test operand .eq v).print number).next⟩ := rfl
    rw [hp, String.toList_append, List.append_assoc]
  rw [hs]
  refine Grammar.read_negate ?_ (read_test h hv rest)
  rw [print_test]
  exact h.leaf_not _

theorem readList_placeholders {vs : List Value} (hne : vs ≠ []) (hvs : params.Holds number vs)
    (rest : List Char) :
    readList holds params ((placeholders number vs).toList ++ (")".toList ++ rest)) =
      some (vs.map holds, rest) := by
  have hc : behind? ", " (")".toList ++ rest) = none := rfl
  rw [readList, readHoles_placeholders vs number hne hc]
  simp only [Option.bind_eq_bind, Option.bind_some, hvs.mapM, behind?_append]

/-- A set test without members is constant, whatever it speaks of. -/
theorem read_among_nil (negated : Bool) (rest : List Char) :
    (truths e holds params).read
      (((Condition.among operand [] negated).print number).text.toList ++ rest) =
        some (if negated then .yes else .no, rest) := by
  have hp : (Condition.among operand [] negated).print number =
      ⟨if negated then "1 = 1" else "1 != 1", [], number⟩ := rfl
  rw [hp]
  refine Grammar.read_leaf ?_
  cases negated with
  | false =>
    have htrue : behind? "1 = 1" ("1 != 1".toList ++ rest) = none := rfl
    simp only [truths, if_neg Bool.false_ne_true, htrue, behind?_append]
  | true => simp only [truths, if_true, behind?_append]

/-- A set test comes to what its comparisons come to together. -/
theorem read_among (h : Legible operand.text) {vs : List Value} (hvs : params.Holds number vs)
    (negated : Bool) (rest : List Char) :
    (truths operand.text holds params).read
      (((Condition.among operand vs negated).print number).text.toList ++ rest) =
        some ((if negated then Truth.notAmong else Truth.among) (vs.map holds), rest) := by
  by_cases he : vs = []
  · subst he
    rw [read_among_nil]
    cases negated <;> rfl
  · have hp : (Condition.among operand vs negated).print number =
        printAmong operand vs negated number := rfl
    refine Grammar.read_leaf ?_
    rw [hp, printAmong, if_neg (by simpa using he)]
    simp only [String.toList_append, List.append_assoc]
    rw [h.leaf_append]
    cases negated with
    | false =>
      have hsaid : ∀ s, readSaid holds params (" IN(".toList ++ s) =
          (readList holds params s).map fun p => (.among p.1, p.2) := fun _ => rfl
      rw [if_neg Bool.false_ne_true, hsaid, readList_placeholders he hvs rest]
      rfl
    | true =>
      have hsaid : ∀ s, readSaid holds params (" NOT IN(".toList ++ s) =
          (readList holds params s).map fun p => (.notAmong p.1, p.2) := fun _ => rfl
      rw [if_pos rfl, hsaid, readList_placeholders he hvs rest]
      rfl

end Docbase.Sql
