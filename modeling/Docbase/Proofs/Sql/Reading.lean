import Docbase.Proofs.Sql.Params

/-!
# Reading texts of a caller back out of SQL

The keys of a path and the names of bound values stand inside the text of a statement. Here they
are read back by the rules of SQL: a literal ends at the first single quote that is not followed by
another, and two of them stand for one.

* `readQuoted_doubled`: a literal is read to its end and no further, whatever is in it.
* `readArrows_arrows`: the arrows of a path give its keys.
* `readHoles_placeholders`: the places of bound values give their names.
* `Grammar.read`: conditions put together by `AND`, `OR` and `NOT`, whatever they are made of.
  `NOT` goes with what stands right behind it, and what is joined stands in brackets.
-/

namespace Docbase.Sql

/-- What stands behind a start. -/
def behind? (start : String) (s : List Char) : Option (List Char) := start.toList.isPrefixOf? s

@[simp] theorem behind?_append (start : String) (s : List Char) :
    behind? start (start.toList ++ s) = some s :=
  List.isPrefixOf?_eq_some_iff_append_eq.2 rfl

/-- A step of a reader, taken only if it gets ahead, so that reading comes to an end. -/
def ahead {α : Type} (s : List Char) :
    Option (α × List Char) → Option (α × { t : List Char // t.length < s.length })
  | some (a, t) => if h : t.length < s.length then some (a, ⟨t, h⟩) else none
  | none => none

theorem ahead_some {α : Type} {s t : List Char} (a : α) (h : t.length < s.length) :
    ahead s (some (a, t)) = some (a, ⟨t, h⟩) := by
  simp [ahead, h]

/-! ## Literals -/

/-- The text of a literal behind its opening quote, and what follows the closing one. -/
def readQuoted : List Char → Option (List Char × List Char)
  | [] => none
  | '\'' :: '\'' :: cs => (readQuoted cs).map fun p => ('\'' :: p.1, p.2)
  | '\'' :: cs => some ([], cs)
  | c :: cs => (readQuoted cs).map fun p => (c :: p.1, p.2)

/-- **No text ends its literal early.** -/
theorem readQuoted_doubled (cs : List Char) {rest : List Char} (h : rest.head? ≠ some '\'') :
    readQuoted (doubled '\'' cs ++ '\'' :: rest) = some (cs, rest) := by
  induction cs with
  | nil =>
    cases rest with
    | nil => rfl
    | cons c rest =>
      have hc : c ≠ '\'' := by simpa using h
      simp [doubled, readQuoted, hc]
  | cons c cs ih =>
    by_cases hc : c = '\''
    · subst hc
      simp [doubled, readQuoted, ih]
    · simp [doubled, hc, readQuoted, ih]

theorem toList_quoteLiteral (s : String) :
    (quoteLiteral s).toList = '\'' :: (doubled '\'' s.toList ++ ['\'']) := by
  rw [quoteLiteral, String.toList_ofList, quoted]

/-! ## Keys of a path -/

/-- The keys behind arrows, and what follows the last of them. -/
def readArrows (s : List Char) : List String × List Char :=
  match ahead s ((behind? "->'" s).bind readQuoted) with
  | some (key, ⟨t, _⟩) =>
    let p := readArrows t
    (String.ofList key :: p.1, p.2)
  | none => ([], s)
termination_by s.length

/-- **The arrows of a path give its keys**, whatever characters are in them. -/
theorem readArrows_arrows (keys : List String) {rest : List Char}
    (hq : rest.head? ≠ some '\'') (ha : behind? "->'" rest = none) :
    readArrows ((arrows keys).toList ++ rest) = (keys, rest) := by
  induction keys with
  | nil =>
    rw [arrows, readArrows]
    simp [ha, ahead]
  | cons key keys ih =>
    set t := (arrows keys).toList ++ rest with ht
    -- a quote behind the key would go on with it
    have hhead : t.head? ≠ some '\'' := by
      cases keys with
      | nil => simpa [ht, arrows] using hq
      | cons => simp [ht, arrows]
    have hs : (arrows (key :: keys)).toList ++ rest =
        "->'".toList ++ (doubled '\'' key.toList ++ '\'' :: t) := by
      simp [arrows, toList_quoteLiteral, ht]
    have hstep : (behind? "->'" ((arrows (key :: keys)).toList ++ rest)).bind readQuoted =
        some (key.toList, t) := by
      rw [hs, behind?_append, Option.bind_some, readQuoted_doubled _ hhead]
    have hlen : t.length < ((arrows (key :: keys)).toList ++ rest).length := by
      rw [hs]; simp; omega
    rw [readArrows, hstep, ahead_some _ hlen]
    simp [ih]

/-! ## Places of bound values -/

/-- The name of a bound value at its place, and what follows it. -/
def readHole (s : List Char) : Option (String × List Char) := do
  let name ← behind? "%(" s
  let rest ← behind? ")s" (name.dropWhile (· != ')'))
  some (String.ofList (name.takeWhile (· != ')')), rest)

/-- The names of bound values with commas between their places, and what follows the last. -/
def readHoles (s : List Char) : Option (List String × List Char) :=
  match ahead s ((readHole s).bind fun p => (behind? ", " p.2).map (p.1, ·)) with
  | some (name, ⟨t, _⟩) => (readHoles t).map fun p => (name :: p.1, p.2)
  | none => (readHole s).map fun p => ([p.1], p.2)
termination_by s.length

/-- The name of a bound value has no bracket in it. -/
theorem bracket_notMem_paramName (n : Nat) : ')' ∉ (paramName n).toList := by
  intro h
  have := mem_paramName h
  revert this
  decide

theorem readHole_placeholder (n : Nat) (rest : List Char) :
    readHole ((placeholder (paramName n)).toList ++ rest) = some (paramName n, rest) := by
  have hs : (placeholder (paramName n)).toList ++ rest =
      "%(".toList ++ ((paramName n).toList ++ (")s".toList ++ rest)) := by
    simp [placeholder]
  have hne : ∀ c ∈ (paramName n).toList, (c != ')') = true := by
    intro c hc
    have hne : c ≠ ')' := fun he => bracket_notMem_paramName n (he ▸ hc)
    simpa using hne
  have hdrop : ((paramName n).toList ++ (")s".toList ++ rest)).dropWhile (· != ')') =
      ")s".toList ++ rest := by
    rw [List.dropWhile_append_of_pos hne]; rfl
  have htake : ((paramName n).toList ++ (")s".toList ++ rest)).takeWhile (· != ')') =
      (paramName n).toList := by
    rw [List.takeWhile_append_of_pos hne]; simp
  rw [hs, readHole, behind?_append]
  simp only [Option.bind_eq_bind, Option.bind_some]
  rw [hdrop, htake, behind?_append, Option.bind_some, String.ofList_toList]

/-- **The places of bound values give their names.** -/
theorem readHoles_placeholders (vs : List Value) (n : Nat) {rest : List Char} (h : vs ≠ [])
    (hc : behind? ", " rest = none) :
    readHoles ((placeholders n vs).toList ++ rest) = some (paramNames n vs.length, rest) := by
  induction vs generalizing n with
  | nil => exact absurd rfl h
  | cons v vs ih =>
    cases vs with
    | nil =>
      have hs : placeholders n [v] = placeholder (paramName n) := rfl
      rw [hs, readHoles, readHole_placeholder]
      simp [hc, ahead, paramNames]
    | cons w vs =>
      set t := (placeholders (n + 1) (w :: vs)).toList ++ rest with ht
      have hs : (placeholders n (v :: w :: vs)).toList ++ rest =
          (placeholder (paramName n)).toList ++ (", ".toList ++ t) := by
        simp [ht, placeholders, List.range'_succ, String.intercalate_cons_cons]
      have hlen : t.length < ((placeholders n (v :: w :: vs)).toList ++ rest).length := by
        rw [hs]; simp; omega
      have hrest : readHoles t = some (paramNames (n + 1) (w :: vs).length, rest) :=
        ih (n + 1) (by simp)
      rw [readHoles, hs, readHole_placeholder, Option.bind_some, behind?_append, Option.map_some,
        ← hs, ahead_some _ hlen]
      simp only [hrest, Option.map_some]
      simp [paramNames, List.range'_succ]

/-! ## Joined conditions -/

/-- How conditions are read: those without parts, and what is made of the parts of the others. -/
structure Grammar (α : Type) where
  leaf : List Char → Option (α × List Char)
  both : α → α → α
  either : α → α → α
  negate : α → α

namespace Grammar

variable {α : Type} (g : Grammar α)

/-- What joins two conditions. -/
def connector (s : List Char) : Option ((α → α → α) × List Char) :=
  match behind? " AND " s, behind? " OR " s with
  | some s, _ => some (g.both, s)
  | _, some s => some (g.either, s)
  | _, _ => none

/-- A condition, and what follows it. -/
def read (s : List Char) : Option (α × List Char) :=
  match g.leaf s, ahead s ((behind? "(" s).map ((), ·)),
    ahead s ((behind? "NOT " s).map ((), ·)) with
  | some p, _, _ => some p
  | _, some (_, ⟨t, _⟩), _ =>
    match ahead s (read t) with
    | none => none
    | some (a, ⟨t, _⟩) =>
      match ahead s (g.connector t) with
      | none => none
      | some (join, ⟨t, _⟩) =>
        (read t).bind fun p => (behind? ")" p.2).map (join a p.1, ·)
  | _, _, some (_, ⟨t, _⟩) => (read t).map fun p => (g.negate p.1, p.2)
  | _, _, _ => none
termination_by s.length

variable {g} {s rest : List Char} {a b : α}

theorem read_leaf (h : g.leaf s = some (a, rest)) : g.read s = some (a, rest) := by
  rw [read, h]

theorem read_negate (hleaf : g.leaf ("NOT ".toList ++ s) = none) (h : g.read s = some (a, rest)) :
    g.read ("NOT ".toList ++ s) = some (g.negate a, rest) := by
  have hopen : behind? "(" ("NOT ".toList ++ s) = none := rfl
  have hlen : s.length < ("NOT ".toList ++ s).length := by simp; omega
  rw [read, hleaf, hopen, behind?_append, Option.map_some, ahead_some _ hlen]
  simp [ahead, h]

/-- Two conditions in brackets are read one after the other. -/
theorem read_join (word : String) (join : α → α → α) {x y : Printed}
    (hleaf : ∀ s, g.leaf ("(".toList ++ s) = none)
    (hj : ∀ u, g.connector ((" " ++ word ++ " ").toList ++ u) = some (join, u))
    (ha : ∀ rest, g.read (x.text.toList ++ rest) = some (a, rest))
    (hb : ∀ rest, g.read (y.text.toList ++ rest) = some (b, rest)) (rest : List Char) :
    g.read ((x.join word y).text.toList ++ rest) = some (join a b, rest) := by
  set u := y.text.toList ++ (")".toList ++ rest) with hu
  set t := (" " ++ word ++ " ").toList ++ u with ht
  set s := x.text.toList ++ t with hs
  have hprint : (x.join word y).text.toList ++ rest = "(".toList ++ s := by
    simp [Printed.join, hs, ht, hu]
  have hopen : ("(".toList ++ s).length = 1 + s.length := List.length_append
  have hst : s.length = x.text.toList.length + t.length := by rw [hs, List.length_append]
  have htu : t.length = (" " ++ word ++ " ").toList.length + u.length := by
    rw [ht, List.length_append]
  have hs' : s.length < ("(".toList ++ s).length := by omega
  have ht' : t.length < ("(".toList ++ s).length := by omega
  have hu' : u.length < ("(".toList ++ s).length := by omega
  have hfirst : g.read s = some (a, t) := ha t
  have hbetween : g.connector t = some (join, u) := hj u
  have hsecond : g.read u = some (b, ")".toList ++ rest) := hb _
  rw [hprint, read, hleaf, behind?_append, Option.map_some, ahead_some _ hs']
  simp only [hfirst, ahead_some _ ht', hbetween, ahead_some _ hu', hsecond, Option.bind_some,
    behind?_append, Option.map_some]

end Grammar

end Docbase.Sql
