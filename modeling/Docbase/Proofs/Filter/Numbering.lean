import Docbase.Proofs.Filter.Accepted
import Docbase.Proofs.Sql.Params
import Docbase.Proofs.Sql.Pieces

/-!
# Numbers of the values that a filter binds

The values of a filter are bound under numbers that run through the whole tree. These lemmas say
what a condition prints from any first number on, and which values of the filter stand behind it.

* `Condition.pieces`: the text of a condition in pieces, its places numbered from a first number on.
* `Condition.print_eq`: what a condition prints, in one equation.
* `Filter.bindings`: the values that the leaves of a filter bind, from left to right.
* `filter_numbered`: **no number is left out and none is used twice**, whatever the first one is.
-/

namespace Docbase

namespace Sql

namespace Condition

/-- The values that a condition binds, from left to right. -/
def values : Condition → List Value
  | both a b | either a b => a.values ++ b.values
  | negate inner => inner.values
  | test _ _ value => [value]
  | among _ values _ => values
  | filled _ | hasKey .. => []

/-- The pieces of a condition in SQL. Its bound values are numbered from `number` on. -/
def pieces : Condition → Nat → List (Piece Nat)
  | both a b, number =>
    .text "(" :: (a.pieces number
      ++ .text " AND " :: (b.pieces (number + a.values.length) ++ [.text ")"]))
  | either a b, number =>
    .text "(" :: (a.pieces number
      ++ .text " OR " :: (b.pieces (number + a.values.length) ++ [.text ")"]))
  | negate inner, number => .text "NOT " :: inner.pieces number
  | test operand operator _, number =>
    operand.pieces ++ [.text (" " ++ operator.symbol ++ " "), .hole number]
  | among operand values negated, number =>
    if values.isEmpty then [.text (if negated then "1 = 1" else "1 != 1")]
    else operand.pieces ++ .text (if negated then " NOT IN(" else " IN(")
      :: (Piece.holes (List.range' number values.length) ++ [.text ")"])
  | filled column, _ => [.text (column.text ++ " IS NOT NULL")]
  | hasKey base keys key, _ =>
    .text "JSONB_EXISTS(" :: .text base :: (arrowPieces keys ++ [.text ", ", .key key, .text ")"])

/-- The pieces with the names of the bound values. -/
def named (c : Condition) (number : Nat) : List (Piece String) :=
  (c.pieces number).map (Piece.map paramName)

/-- **What a condition prints.** Its pieces, its values under the numbers from the first one on, and
the number behind the last. -/
theorem print_eq (c : Condition) (number : Nat) :
    c.print number =
      ⟨Piece.concat (c.named number), numbered number c.values, number + c.values.length⟩ := by
  -- each case starts from what `print` says of it, as its general equation is slow to work out
  induction c generalizing number with
  | both a b iha ihb =>
    have hp : (both a b).print number =
        (a.print number).join "AND" (b.print (a.print number).next) := rfl
    rw [hp, iha, ihb, Printed.join, merge_numbered]
    simp [named, pieces, values, Piece.concat, Piece.map, Piece.print, String.append_assoc,
      Nat.add_assoc]
  | either a b iha ihb =>
    have hp : (either a b).print number =
        (a.print number).join "OR" (b.print (a.print number).next) := rfl
    rw [hp, iha, ihb, Printed.join, merge_numbered]
    simp [named, pieces, values, Piece.concat, Piece.map, Piece.print, String.append_assoc,
      Nat.add_assoc]
  | negate inner ih =>
    have hp : (negate inner).print number = ⟨"NOT " ++ (inner.print number).text,
        (inner.print number).params, (inner.print number).next⟩ := rfl
    rw [hp, ih]
    rfl
  | test operand operator value =>
    have hp : (test operand operator value).print number =
        ⟨operand.text ++ " " ++ operator.symbol ++ " " ++ placeholder (paramName number),
          [(paramName number, value)], number + 1⟩ := rfl
    rw [hp]
    simp [named, pieces, values, Piece.concat, Piece.map, Piece.print, numbered,
      String.append_assoc]
  | among operand vs negated =>
    have hp : (among operand vs negated).print number = printAmong operand vs negated number := rfl
    rw [hp, printAmong, named, pieces, values]
    split
    · rename_i he
      have : vs = [] := by simpa using he
      subst this
      simp [Piece.concat, Piece.map, Piece.print, numbered]
    · rw [bindAll_eq number vs [] (by simp)]
      simp [Piece.concat, Piece.map, Piece.print, Piece.map_holes, Piece.concat_holes, placeholders,
        Function.comp_def, String.append_assoc]
  | filled column =>
    have hp : (filled column).print number = ⟨column.text ++ " IS NOT NULL", [], number⟩ := rfl
    rw [hp]
    simp [named, pieces, values, Piece.concat, Piece.map, Piece.print, numbered]
  | hasKey base keys key =>
    have hp : (hasKey base keys key).print number =
        ⟨"JSONB_EXISTS(" ++ base ++ arrows keys ++ ", " ++ quoteLiteral key ++ ")", [], number⟩ := rfl
    rw [hp]
    simp [named, pieces, values, Piece.concat, Piece.map, Piece.print, numbered,
      String.append_assoc]

/-- The places of a condition have the numbers of its values, each once. -/
theorem labels_pieces (c : Condition) (number : Nat) :
    Piece.labels (c.pieces number) = List.range' number c.values.length := by
  induction c generalizing number with
  | both a b iha ihb => simp [pieces, values, Piece.labels, iha, ihb]
  | either a b iha ihb => simp [pieces, values, Piece.labels, iha, ihb]
  | negate inner ih => simpa [pieces, values, Piece.labels] using ih number
  | test operand operator value => simp [pieces, values, Piece.labels]
  | among operand vs negated =>
    rw [pieces, values]
    split
    · rename_i he
      have : vs = [] := by simpa using he
      subst this
      rfl
    · simp [Piece.labels]
  | filled column => rfl
  | hasKey base keys key => simp [pieces, values, Piece.labels]

/-- The first number raises all places, and changes nothing else. -/
theorem raise_pieces (c : Condition) (number amount : Nat) :
    (c.pieces number).map (Piece.map (amount + ·)) = c.pieces (amount + number) := by
  induction c generalizing number with
  | both a b iha ihb => simp [pieces, Piece.map, iha, ihb, Nat.add_assoc]
  | either a b iha ihb => simp [pieces, Piece.map, iha, ihb, Nat.add_assoc]
  | negate inner ih => simp [pieces, Piece.map, ih]
  | test operand operator value => simp [pieces, Piece.map]
  | among operand vs negated =>
    rw [pieces, pieces]
    split
    · rfl
    · simp [Piece.map, Piece.map_holes, List.map_add_range']
  | filled column => rfl
  | hasKey base keys key => simp [pieces, Piece.map]

end Condition

end Sql

open Sql

/-! ## The values of a filter -/

/-- How a value of a filter is bound. -/
inductive Binding
  /-- As it is. -/
  | native (value : Value)
  /-- As its JSON text. -/
  | json (value : Value)

/-- The value that is bound in the end, if there is one. -/
def Binding.bound? : Binding → Option Value
  | native value => some value
  | json value => (Json.encode value).toOption.map .str

namespace Filter

variable (r : Resolver)

/-- How a value beside a path is bound. -/
def bindingAt (path : String) (value : Value) : Binding :=
  if r.isPromoted path then .native value else .json value

/-- The values that the leaves of a filter bind, from left to right. An element of a list is bound
as a list of its own, also beside a promoted path. -/
def bindings : Filter → List Binding
  | both a b | either a b => a.bindings ++ b.bindings
  | negate inner => inner.bindings
  | compare _ path value => [bindingAt r path value]
  | like _ pattern => [.native pattern]
  | contains _ element => [.json (.list [element])]
  | id value => [.native (.str value)]
  | idIn values => values.map fun v => .native (.str v)
  | oneOf path values => values.map (bindingAt r path)
  | any | present _ | unknown _ => []

variable {r}

theorem jsonText_ok {v w : Value} (h : Resolver.jsonText v = .ok w) :
    (Binding.json v).bound? = some w := by
  obtain ⟨text, htext, rfl⟩ := Resolver.jsonText_eq_ok.1 h
  rw [Binding.bound?, htext]
  rfl

theorem bind_ok {path : String} {v w : Value} (h : r.bind v path = .ok w) :
    (bindingAt r path v).bound? = some w := by
  unfold Resolver.bind Resolver.encodes at h
  unfold bindingAt
  cases hp : r.isPromoted path with
  | false => rw [hp] at h; exact jsonText_ok h
  | true => rw [hp] at h; cases h; rfl

theorem bindValues_ok {path : String} {vs ws : List Value} (h : bindValues r path vs = .ok ws) :
    (vs.map (bindingAt r path)).map Binding.bound? = ws.map some := by
  induction vs generalizing ws with
  | nil => cases h; rfl
  | cons v vs ih =>
    obtain ⟨w, hw, h⟩ := bind_eq_ok.1 h
    obtain ⟨ws', hws, h⟩ := bind_eq_ok.1 h
    cases h
    rw [List.map_cons, List.map_cons, bind_ok hw, ih hws, List.map_cons]

/-- A leaf binds the values that it holds. -/
theorem LeafStandsFor.values {negated : Bool} {f : Filter} {c : Condition}
    (h : LeafStandsFor r negated f c) :
    (f.bindings r).map Binding.bound? = c.values.map some := by
  cases h with
  | compare _ hb => rw [bindings, List.map_singleton, bind_ok hb]; rfl
  | like => rfl
  | contains _ hb => rw [bindings, List.map_singleton, jsonText_ok hb]; rfl
  | filled | hasKey | id => rfl
  | idIn => simp [bindings, Condition.values, Binding.bound?]
  | oneOf _ hb => exact bindValues_ok hb

/-- An accepted filter binds the values of its leaves, from left to right. -/
theorem StandsFor.values {f : Filter} {c : Condition} (h : StandsFor r f c) :
    (f.bindings r).map Binding.bound? = c.values.map some := by
  induction h with
  | both _ _ iha ihb => simp only [bindings, Condition.values, List.map_append, iha, ihb]
  | either _ _ iha ihb => simp only [bindings, Condition.values, List.map_append, iha, ihb]
  | negate _ h => exact h.values
  | negatedSet _ h => exact h.values
  | leaf h => exact h.values

/-- An accepted filter has a clause, the print of its condition. -/
theorem clause_of_condition {f : Filter} {c : Condition} (h : f.condition r = .ok c) :
    f.clause r = .ok ⟨some (c.print 0).text, (c.print 0).params⟩ := by
  cases f with
  | any => cases h
  | both | either | negate | compare | like | contains | present | id | idIn | oneOf | unknown =>
    exact bind_eq_ok.2 ⟨c, h, rfl⟩

/-- And a clause is no other than that. -/
theorem condition_of_clause {f : Filter} {cl : Clause} (h : f.clause r = .ok cl) (hf : f ≠ .any) :
    ∃ c, f.condition r = .ok c ∧ ⟨some (c.print 0).text, (c.print 0).params⟩ = cl := by
  cases f with
  | any => exact absurd rfl hf
  | both | either | negate | compare | like | contains | present | id | idIn | oneOf | unknown =>
    obtain ⟨c, hc, he⟩ := bind_eq_ok.1 h
    exact ⟨c, hc, Except.ok.inj he⟩

end Filter

/-- What a filter with a condition prints from a number on. -/
structure Numbering (r : Resolver) (f : Filter) (c : Condition) (number : Nat) : Prop where
  /-- The next free number is behind all that the leaves use. -/
  next : (c.print number).next = number + (f.bindings r).length
  /-- The bound names are those of the numbers up to there, in order. -/
  names : (c.print number).params.names = paramNames number (f.bindings r).length
  /-- The values under them are those of the leaves, from left to right. -/
  values : (c.print number).params.map (fun p => some p.2) = (f.bindings r).map Binding.bound?
  /-- The text is that of the pieces. -/
  text : (c.print number).text = Piece.concat (c.named number)
  /-- The places in it have the same numbers in the same order. -/
  holes : Piece.labels (c.pieces number) = List.range' number (f.bindings r).length
  /-- Another first number changes the numbers of the places and nothing else. -/
  raised : c.pieces number = (c.pieces 0).map (Piece.map (number + ·))
  /-- And the names of the bound values, not the values. -/
  same_values : (c.print number).params.map (·.2) = (c.print 0).params.map (·.2)
  /-- No value of one side takes the place of one of the other. -/
  merged : ∀ a b, c = .both a b ∨ c = .either a b →
    (c.print number).params = (a.print number).params ++ (b.print (a.print number).next).params

theorem numbering_of_stands {r : Resolver} {f : Filter} {c : Condition}
    (h : Filter.StandsFor r f c) (number : Nat) : Numbering r f c number := by
  have hlen : c.values.length = (f.bindings r).length := by
    simpa using (congrArg List.length h.values).symm
  refine ⟨?_, ?_, ?_, ?_, ?_, ?_, ?_, ?_⟩
  · rw [c.print_eq, hlen]
  · rw [c.print_eq, names_numbered, hlen]
  · rw [c.print_eq, h.values, ← values_numbered number c.values, List.map_map]
    rw [values_numbered]
    rfl
  · rw [c.print_eq]
  · rw [c.labels_pieces, hlen]
  · rw [c.raise_pieces, Nat.add_zero]
  · rw [c.print_eq, c.print_eq, values_numbered, values_numbered]
  · rintro a b (rfl | rfl)
    · simp only [Condition.print_eq, Condition.values, numbered_append]
    · simp only [Condition.print_eq, Condition.values, numbered_append]

/-- **No number is left out and none is used twice.** From any first number on, an accepted filter
binds the values of its leaves from left to right under successive numbers, and its text shows
their places in the same order; the clause of a statement starts at zero. The filter for every
document binds nothing. -/
theorem filter_numbered (r : Resolver) (f : Filter) :
    (f = .any → f.clause r = .ok ⟨none, []⟩ ∧ f.bindings r = []) ∧
      ∀ c, f.condition r = .ok c →
        f.clause r = .ok ⟨some (c.print 0).text, (c.print 0).params⟩ ∧
          ∀ number, Numbering r f c number := by
  constructor
  · rintro rfl
    exact ⟨rfl, rfl⟩
  · intro c h
    exact ⟨Filter.clause_of_condition h, numbering_of_stands (Filter.stands_of_condition h)⟩

/-- Three leaves behind a promoted path, a list and a negated set test, from five on. -/
theorem filter_numbered_from_five :
    let r : Resolver := { promote := true }
    let f := Filter.both (.compare .greater "metadata.v" (.int 1))
      (.either (.contains "metadata.tags" (.str "x")) (.negate (.oneOf "b" [.int 2, .null])))
    let c := Condition.both (.test (.column ⟨"v", rfl⟩) .gt (.int 1))
      (.either (.test (.column ⟨"tags", rfl⟩) .contains (.str "[\"x\"]"))
        (.among (.json "doc" ["b"]) [.str "2", .str "null"] true))
    f.condition r = .ok c ∧
      Piece.concat (c.named 5) =
        "(v > %(a5)s AND (tags @> %(a6)s OR doc->'b' NOT IN(%(a7)s, %(a8)s)))" ∧
      Numbering r f c 5 := by
  intro r f c
  have h : f.condition r = .ok c := rfl
  exact ⟨h, rfl, ((filter_numbered r f).2 c h).2 5⟩

end Docbase
