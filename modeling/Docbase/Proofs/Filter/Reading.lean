import Docbase.Proofs.Field
import Docbase.Proofs.Filter.Numbering
import Docbase.Proofs.Sql.Reading

/-!
# Reading a condition back

Without promoted columns the text of a condition says all about the filter but its values: a reader
for such texts gives the outline of the filter.

* `readCondition`: the reader. `NOT` goes with what stands right behind it, and what is joined by
  `AND` or `OR` stands in brackets.
* `Filter.outline`: the tree of a filter with names in the place of values.
* `StandsFor.read`: **the text of an accepted filter is read as its outline**.
-/

namespace Docbase

open Sql

/-- What a test speaks of. -/
inductive Subject
  | id
  /-- The place behind some keys. -/
  | json (keys : List String)
  /-- The text behind some keys. -/
  | text (keys : List String)
  deriving DecidableEq, Repr

/-- The tree of a filter, with names in the place of values. -/
inductive Outline
  | both (a b : Outline)
  | either (a b : Outline)
  | negate (inner : Outline)
  | test (subject : Subject) (operator : Operator) (param : String)
  | among (subject : Subject) (params : List String) (negated : Bool)
  | present (keys : List String)
  /-- A set test without values. -/
  | constant (truth : Bool)
  deriving DecidableEq, Repr

/-! ## The reader -/

/-- The id column or a path. -/
def readSubject (s : List Char) : Option (Subject × List Char) :=
  match behind? "id" s with
  | some s => some (.id, s)
  | none => do
    let s ← behind? "doc" s
    let (keys, s) := readArrows s
    match (behind? "->>'" s).bind readQuoted with
    | some (last, s) => some (.text (keys ++ [String.ofList last]), s)
    | none => some (.json keys, s)

/-- All operators. -/
def operators : List Operator := [.eq, .gt, .ge, .lt, .le, .like, .contains]

/-- An operator between blanks. -/
def readOperator (s : List Char) : Option (Operator × List Char) :=
  operators.findSome? fun o => (behind? (" " ++ o.symbol ++ " ") s).map (o, ·)

/-- The places of a set test, up to its closing bracket. -/
def readMembers (subject : Subject) (negated : Bool) (s : List Char) :
    Option (Outline × List Char) := do
  let (names, s) ← readHoles s
  let s ← behind? ")" s
  some (.among subject names negated, s)

/-- What is said of a subject. -/
def readTest (subject : Subject) (s : List Char) : Option (Outline × List Char) :=
  match readOperator s, behind? " IN(" s, behind? " NOT IN(" s with
  | some (operator, s), _, _ => (readHole s).map fun p => (.test subject operator p.1, p.2)
  | _, some s, _ => readMembers subject false s
  | _, _, some s => readMembers subject true s
  | _, _, _ => none

/-- The path of a key that is looked for, up to the closing bracket. -/
def readPresent (s : List Char) : Option (Outline × List Char) := do
  let (keys, s) := readArrows s
  let (key, s) ← (behind? ", '" s).bind readQuoted
  let s ← behind? ")" s
  some (.present (keys ++ [String.ofList key]), s)

/-- A condition without parts. -/
def readLeaf (s : List Char) : Option (Outline × List Char) :=
  match behind? "1 = 1" s, behind? "1 != 1" s, behind? "JSONB_EXISTS(doc" s with
  | some s, _, _ => some (.constant true, s)
  | _, some s, _ => some (.constant false, s)
  | _, _, some s => readPresent s
  | _, _, _ => (readSubject s).bind fun p => readTest p.1 p.2

/-- How outlines are read. -/
def outlines : Grammar Outline := ⟨readLeaf, .both, .either, .negate⟩

/-- A condition, and what follows it. -/
def readCondition (s : List Char) : Option (Outline × List Char) := outlines.read s

/-- The outline of a condition, if the text is nothing but a condition. -/
def readOutline (text : String) : Option Outline :=
  match readCondition text.toList with
  | some (outline, []) => some outline
  | _ => none

/-! ## Reading leaves -/

theorem readOperator_symbol (o : Operator) (rest : List Char) :
    readOperator ((" " ++ o.symbol ++ " ").toList ++ rest) = some (o, rest) := by
  cases o <;> rfl

theorem readSubject_id (rest : List Char) :
    readSubject ("id".toList ++ rest) = some (.id, rest) := by
  rw [readSubject, behind?_append]

theorem readSubject_json (keys : List String) {rest : List Char} (hq : rest.head? ≠ some '\'')
    (ha : behind? "->'" rest = none) (ht : behind? "->>'" rest = none) :
    readSubject ("doc".toList ++ ((arrows keys).toList ++ rest)) = some (.json keys, rest) := by
  have hid : behind? "id" ("doc".toList ++ ((arrows keys).toList ++ rest)) = none := rfl
  rw [readSubject, hid, behind?_append]
  simp [readArrows_arrows keys hq ha, ht]

theorem readSubject_text (keys : List String) (last : String) {rest : List Char}
    (hq : rest.head? ≠ some '\'') :
    readSubject ("doc".toList ++ ((arrows keys).toList ++
      ("->>".toList ++ ((quoteLiteral last).toList ++ rest)))) =
        some (.text (keys ++ [last]), rest) := by
  set t := "->>".toList ++ ((quoteLiteral last).toList ++ rest) with ht
  have hid : behind? "id" ("doc".toList ++ ((arrows keys).toList ++ t)) = none := rfl
  have hs : t = "->>'".toList ++ (doubled '\'' last.toList ++ '\'' :: rest) := by
    simp [ht, toList_quoteLiteral]
  have hlast : (behind? "->>'" t).bind readQuoted = some (last.toList, rest) := by
    rw [hs, behind?_append, Option.bind_some, readQuoted_doubled _ hq]
  rw [readSubject, hid, behind?_append]
  have harrows : readArrows ((arrows keys).toList ++ t) = (keys, t) :=
    readArrows_arrows keys (by simp [ht]) rfl
  simp [harrows, hlast]

theorem readTest_operator (subject : Subject) (o : Operator) (n : Nat) (rest : List Char) :
    readTest subject ((" " ++ o.symbol ++ " ").toList ++
      ((placeholder (paramName n)).toList ++ rest)) = some (.test subject o (paramName n), rest) := by
  rw [readTest, readOperator_symbol]
  simp only [readHole_placeholder, Option.map_some]

theorem readMembers_placeholders (subject : Subject) (negated : Bool) {vs : List Value} (n : Nat)
    (rest : List Char) (h : vs ≠ []) :
    readMembers subject negated ((placeholders n vs).toList ++ (")".toList ++ rest)) =
      some (.among subject (paramNames n vs.length) negated, rest) := by
  have hc : behind? ", " (")".toList ++ rest) = none := rfl
  rw [readMembers, readHoles_placeholders vs n h hc]
  simp only [Option.bind_eq_bind, Option.bind_some, behind?_append]

theorem readTest_among (subject : Subject) (negated : Bool) {vs : List Value} (n : Nat)
    (rest : List Char) (h : vs ≠ []) :
    readTest subject ((if negated then " NOT IN(" else " IN(").toList ++
      ((placeholders n vs).toList ++ (")".toList ++ rest))) =
        some (.among subject (paramNames n vs.length) negated, rest) := by
  rw [← readMembers_placeholders subject negated n rest h]
  cases negated <;> rfl

/-! ## Outlines of filters -/

namespace Filter

/-- The outline of a set test. -/
def setOutline (subject : Subject) (count number : Nat) (negated : Bool) : Outline :=
  if count = 0 then .constant negated else .among subject (paramNames number count) negated

/-- The outline of a leaf. What is no leaf has none, and gets a constant. -/
def leafOutline (negated : Bool) (number : Nat) : Filter → Outline
  | compare comparison path _ =>
    .test (.json (Text.split '.' path)) comparison.operator (paramName number)
  | like path _ => .test (.text (Text.split '.' path)) .like (paramName number)
  | contains path _ => .test (.json (Text.split '.' path)) .contains (paramName number)
  | present path => .present (Text.split '.' path)
  | id _ => .test .id .eq (paramName number)
  | idIn values => setOutline .id values.length number negated
  | oneOf path values => setOutline (.json (Text.split '.' path)) values.length number negated
  | _ => .constant negated

/-- The outline of a filter whose values are numbered from `number` on. -/
def outline : Filter → Nat → Outline
  | both a b, number =>
    .both (a.outline number) (b.outline (number + (a.bindings .plain).length))
  | either a b, number =>
    .either (a.outline number) (b.outline (number + (a.bindings .plain).length))
  | negate inner, number =>
    if inner.isSetTest then inner.leafOutline true number
    else .negate (inner.leafOutline false number)
  | f, number => f.leafOutline false number

end Filter

/-- An operand is read as a subject, if a blank follows. -/
def ReadAs (operand : Operand) (subject : Subject) : Prop :=
  ∀ t : List Char, t.head? = some ' ' →
    readLeaf (operand.text.toList ++ t) = readTest subject t

theorem readAs_id : ReadAs .id .id := by
  intro t _
  have h : readLeaf (Operand.id.text.toList ++ t) =
      (readSubject ("id".toList ++ t)).bind fun p => readTest p.1 p.2 := rfl
  rw [h, readSubject_id, Option.bind_some]

theorem readLeaf_doc (t : List Char) :
    readLeaf (docColumn.toList ++ t) =
      (readSubject ("doc".toList ++ t)).bind fun p => readTest p.1 p.2 := rfl

theorem readAs_json (keys : List String) : ReadAs (.json docColumn keys) (.json keys) := by
  intro t ht
  obtain ⟨u, rfl⟩ := List.head?_eq_some_iff.1 ht
  rw [Operand.text, String.toList_append, List.append_assoc, readLeaf_doc,
    readSubject_json keys (by simp) rfl rfl, Option.bind_some]

theorem readAs_text (keys : List String) (last : String) :
    ReadAs (.jsonText docColumn keys last) (.text (keys ++ [last])) := by
  intro t ht
  obtain ⟨u, rfl⟩ := List.head?_eq_some_iff.1 ht
  rw [Operand.text]
  simp only [String.toList_append, List.append_assoc]
  rw [readLeaf_doc, readSubject_text keys last (by simp), Option.bind_some]

theorem readLeaf_test {operand : Operand} {subject : Subject} (hsub : ReadAs operand subject)
    (o : Operator) (v : Value) (n : Nat) (rest : List Char) :
    readLeaf (((Condition.test operand o v).print n).text.toList ++ rest) =
      some (.test subject o (paramName n), rest) := by
  have hs : ((Condition.test operand o v).print n).text.toList ++ rest =
      operand.text.toList ++ ((" " ++ o.symbol ++ " ").toList ++
        ((placeholder (paramName n)).toList ++ rest)) := by
    have hp : (Condition.test operand o v).print n =
        ⟨operand.text ++ " " ++ o.symbol ++ " " ++ placeholder (paramName n),
          [(paramName n, v)], n + 1⟩ := rfl
    rw [hp]
    simp only [String.toList_append, List.append_assoc]
  rw [hs, hsub _ (by simp), readTest_operator]

theorem readLeaf_among {operand : Operand} {subject : Subject} (hsub : ReadAs operand subject)
    (vs : List Value) (negated : Bool) (n : Nat) (rest : List Char) :
    readLeaf (((Condition.among operand vs negated).print n).text.toList ++ rest) =
      some (Filter.setOutline subject vs.length n negated, rest) := by
  have hp : (Condition.among operand vs negated).print n = printAmong operand vs negated n := rfl
  rw [hp, printAmong, Filter.setOutline]
  by_cases he : vs = []
  · subst he
    simp only [List.isEmpty_nil, List.length_nil, if_true]
    cases negated <;> rfl
  · have hlen : vs.length ≠ 0 := by simpa using he
    rw [if_neg (by simpa using he), if_neg hlen, ← readTest_among subject negated n rest he]
    simp only [String.toList_append, List.append_assoc]
    refine hsub _ ?_
    cases negated <;> rfl

theorem readLeaf_hasKey (keys : List String) (key : String) (n : Nat) (rest : List Char) :
    readLeaf (((Condition.hasKey docColumn keys key).print n).text.toList ++ rest) =
      some (.present (keys ++ [key]), rest) := by
  set t := ", '".toList ++ (doubled '\'' key.toList ++ '\'' :: (")".toList ++ rest)) with ht
  have hs : ((Condition.hasKey docColumn keys key).print n).text.toList ++ rest =
      "JSONB_EXISTS(doc".toList ++ ((arrows keys).toList ++ t) := by
    have hp : (Condition.hasKey docColumn keys key).print n =
        ⟨"JSONB_EXISTS(" ++ docColumn ++ arrows keys ++ ", " ++ quoteLiteral key ++ ")", [], n⟩ := rfl
    rw [hp]
    simp [ht, docColumn, toList_quoteLiteral]
  have hleaf : ∀ u, readLeaf ("JSONB_EXISTS(doc".toList ++ u) = readPresent u := fun _ => rfl
  have hkey : (behind? ", '" t).bind readQuoted = some (key.toList, ")".toList ++ rest) := by
    rw [ht, behind?_append, Option.bind_some, readQuoted_doubled _ (by simp)]
  rw [hs, hleaf, readPresent, readArrows_arrows keys (by simp [ht]) rfl]
  simp only [hkey, Option.bind_eq_bind, Option.bind_some, behind?_append, String.ofList_toList]

namespace Filter

/-- **The text of a leaf is read as its outline**, whatever follows it. -/
theorem LeafStandsFor.read {negated : Bool} {f : Filter} {c : Condition}
    (h : LeafStandsFor .plain negated f c) (n : Nat) (rest : List Char) :
    readLeaf ((c.print n).text.toList ++ rest) = some (f.leafOutline negated n, rest) := by
  cases h with
  | compare ho hb =>
    rw [Resolver.operand_plain ho]
    exact readLeaf_test (readAs_json _) _ _ n rest
  | like ho =>
    obtain ⟨keys, key, rfl, hkeys⟩ := Resolver.textOperand_plain ho
    rw [leafOutline, ← hkeys]
    exact readLeaf_test (readAs_text keys key) _ _ n rest
  | contains ho hb =>
    rw [Resolver.operand_plain ho]
    exact readLeaf_test (readAs_json _) _ _ n rest
  | filled hp => cases hp
  | hasKey hp hs =>
    rw [leafOutline, ← Resolver.splitParent_ok hs]
    exact readLeaf_hasKey _ _ n rest
  | id => exact readLeaf_test readAs_id _ _ n rest
  | @idIn values =>
    have hlen : (values.map Value.str).length = values.length := List.length_map _
    rw [leafOutline, ← hlen]
    exact readLeaf_among readAs_id _ negated n rest
  | oneOf ho hb =>
    have hlen := congrArg List.length (bindValues_ok hb)
    simp only [List.length_map] at hlen
    rw [Resolver.operand_plain ho, leafOutline, hlen]
    exact readLeaf_among (readAs_json _) _ negated n rest

/-- **The text of an accepted filter is read as its outline**, whatever follows it. -/
theorem StandsFor.read {f : Filter} {c : Condition} (h : StandsFor .plain f c) (n : Nat)
    (rest : List Char) :
    readCondition ((c.print n).text.toList ++ rest) = some (f.outline n, rest) := by
  induction h generalizing n rest with
  | @both f g c d hf hg ihf ihg =>
    have hp : (Condition.both c d).print n = (c.print n).join "AND" (d.print (c.print n).next) := rfl
    rw [hp, outline, (numbering_of_stands hf n).next]
    exact outlines.read_join "AND" .both (fun _ => rfl) (fun _ => rfl) (ihf n) (ihg _) rest
  | @either f g c d hf hg ihf ihg =>
    have hp : (Condition.either c d).print n = (c.print n).join "OR" (d.print (c.print n).next) := rfl
    rw [hp, outline, (numbering_of_stands hf n).next]
    exact outlines.read_join "OR" .either (fun _ => rfl) (fun _ => rfl) (ihf n) (ihg _) rest
  | @negate f c hset hf =>
    have hs : ((Condition.negate c).print n).text.toList ++ rest =
        "NOT ".toList ++ ((c.print n).text.toList ++ rest) := by
      have hp : (Condition.negate c).print n =
          ⟨"NOT " ++ (c.print n).text, (c.print n).params, (c.print n).next⟩ := rfl
      rw [hp, String.toList_append, List.append_assoc]
    rw [hs, outline, if_neg (by simp [hset])]
    exact Grammar.read_negate rfl (Grammar.read_leaf (hf.read n rest))
  | @negatedSet f c hset hf =>
    rw [outline, if_pos hset]
    exact Grammar.read_leaf (hf.read n rest)
  | @leaf f c hf =>
    have hout : f.outline n = f.leafOutline false n := by cases hf <;> rfl
    rw [hout]
    exact Grammar.read_leaf (hf.read n rest)

end Filter

end Docbase
