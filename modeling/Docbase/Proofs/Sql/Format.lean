import Mathlib.Data.List.Basic
import Docbase.Proofs.Sql.Pieces
import Docbase.Proofs.Sql.Reading

/-!
# Placeholders in a text

How a driver finds the places of bound values in the text of a statement: it goes through the text
once, `%%` being a percent sign, `%(name)s` a place, and any other percent sign an error.

* `scan`: the names of the places from left to right, if there is no error; `WellFormed`: they are
  the names of the bound values.
* `Innocent`, `Inert`: a text of a caller adds no name, or is not read as anything but text.
* `Assembled`: a text is put together from pieces.
* `Assembled.wellFormed_iff`: **exactly the innocent texts of callers leave it well formed.**
* `Assembled.scan_iff`: **exactly the inert ones are read as nothing but text.**
-/

namespace Docbase.Sql

/-- Where a scan is. -/
inductive Scan
  /-- In the text. -/
  | text
  /-- Behind a percent sign. -/
  | percent
  /-- In a name, of which some characters were read. -/
  | name (read : List Char)
  /-- Behind a name. -/
  | closed (name : List Char)

namespace Scan

/-- A character of a text: where the scan is behind it, and the name that ends there, if any. -/
def step : Scan → Char → Option (Scan × List String)
  | text, c => if c = '%' then some (percent, []) else some (text, [])
  | percent, c => if c = '%' then some (text, []) else if c = '(' then some (name [], []) else none
  | name read, c => if c = ')' then some (closed read, []) else some (name (read ++ [c]), [])
  | closed read, c => if c = 's' then some (text, [String.ofList read]) else none

/-- A scan of some characters. -/
def run : Scan → List Char → Option (Scan × List String)
  | m, [] => some (m, [])
  | m, c :: cs => (m.step c).bind fun p => (run p.1 cs).map fun q => (q.1, p.2 ++ q.2)

end Scan

/-- The names of the places in a text, from left to right, if it can be read at all. -/
def scan (s : List Char) : Option (List String) :=
  match Scan.run .text s with
  | some (.text, names) => some names
  | _ => none

/-- The places in a text are those of the bound values. -/
def WellFormed (text : String) (params : Params) : Prop :=
  ∃ names, scan text.toList = some names ∧ ∀ n, n ∈ names ↔ n ∈ params.names

/-- A text on its own is well formed, with no places but those of some names. -/
def Innocent (names : List String) (s : String) : Prop :=
  ∃ found, scan s.toList = some found ∧ ∀ n ∈ found, n ∈ names

/-- A text on its own is well formed, without any places. -/
def Inert (s : String) : Prop := scan s.toList = some []

/-! ## Scans of texts in parts -/

namespace Scan

theorem run_append (m : Scan) (a b : List Char) :
    m.run (a ++ b) = (m.run a).bind fun p => (p.1.run b).map fun q => (q.1, p.2 ++ q.2) := by
  induction a generalizing m with
  | nil => simp [run]
  | cons c cs ih =>
    cases hs : m.step c with
    | none => simp [run, hs]
    | some p =>
      simp only [List.cons_append, run, hs, Option.bind_some, ih]
      cases hr : p.1.run cs with
      | none => rfl
      | some q =>
        cases ht : q.1.run b with
        | none => simp [ht]
        | some t => simp [ht]

/-- A name that was begun ends up among the names, if the scan comes back to the text. -/
theorem closed_mem {read s : List Char} {names : List String}
    (h : (closed read).run s = some (text, names)) : String.ofList read ∈ names := by
  cases s with
  | nil => cases h
  | cons c s =>
    by_cases hc : c = 's'
    · subst hc
      cases hr : text.run s with
      | none => simp [run, step, hr] at h
      | some q =>
        simp only [run, step, if_true, hr, Option.bind_some, Option.map_some, Option.some.injEq,
          Prod.mk.injEq] at h
        simp [← h.2]
    · simp [run, step, hc] at h

theorem name_mem {read s : List Char} {names : List String}
    (h : (name read).run s = some (text, names)) :
    ∃ more, String.ofList (read ++ more) ∈ names := by
  induction s generalizing read with
  | nil => cases h
  | cons c s ih =>
    by_cases hc : c = ')'
    · subst hc
      have hclosed : (closed read).run s = some (text, names) := by
        simpa [run, step] using h
      exact ⟨[], by simpa using closed_mem hclosed⟩
    · have hname : (name (read ++ [c])).run s = some (text, names) := by
        simpa [run, step, hc] using h
      obtain ⟨more, hm⟩ := ih hname
      exact ⟨c :: more, by simpa using hm⟩

end Scan

/-- The places of a text that may only be those of some names. -/
def scanFor (names : List String) (s : List Char) : Option (List String) :=
  (scan s).filter fun found => found.all (names.contains ·)

/-- The names in two texts, if both can be read. -/
def joined (a b : Option (List String)) : Option (List String) :=
  a.bind fun ns => b.map fun ms => ns ++ ms

/-- The character ends every name that was begun, and is none of a place. -/
structure Ends (names : List String) (c : Char) : Prop where
  plain : c ≠ '%' ∧ c ≠ '(' ∧ c ≠ ')' ∧ c ≠ 's'
  foreign : ∀ n ∈ names, c ∉ n.toList

section Parts

variable {names : List String}

@[simp] theorem joined_nil (a : Option (List String)) : joined (some []) a = a := by
  cases a <;> rfl

@[simp] theorem joined_none (a : Option (List String)) : joined a none = none := by
  cases a <;> rfl

theorem scanFor_nil : scanFor names [] = some [] := rfl

theorem scanFor_eq_some {s : List Char} {found : List String} :
    scanFor names s = some found ↔ scan s = some found ∧ ∀ n ∈ found, n ∈ names := by
  simp [scanFor, Option.filter_eq_some_iff]

/-- A text that can be read on its own is read on its own before any other. -/
theorem scan_append {a : List Char} {found : List String}
    (h : Scan.run .text a = some (.text, found)) (b : List Char) :
    scan (a ++ b) = (scan b).map (found ++ ·) := by
  rw [scan, scan, Scan.run_append, h, Option.bind_some]
  cases hb : Scan.run .text b with
  | none => rfl
  | some p =>
    obtain ⟨m, more⟩ := p
    cases m <;> rfl

theorem scanFor_append {a : List Char} {found : List String}
    (h : Scan.run .text a = some (.text, found)) (b : List Char) :
    scanFor names (a ++ b) = joined (scanFor names a) (scanFor names b) := by
  have ha : scan a = some found := by rw [scan, h]
  rw [scanFor, scanFor, scanFor, scan_append h, ha]
  cases scan b with
  | none => simp
  | some more =>
    simp only [Option.filter_some, Option.map_some, List.all_append]
    cases found.all (names.contains ·) with
    | false => rfl
    | true =>
      cases more.all (names.contains ·) with
      | false => rfl
      | true => rfl

/-- What is not finished before a character that ends names is not finished behind it. -/
theorem scanFor_unfinished {c : Char} (hc : Ends names c) {a : List Char} {m : Scan}
    {found : List String} (ha : Scan.run .text a = some (m, found)) (hm : m ≠ .text)
    (b : List Char) : scanFor names (a ++ c :: b) = none := by
  obtain ⟨hpercent, hopen, hclose, hs⟩ := hc.plain
  have hrun : Scan.run .text (a ++ c :: b) = (m.run (c :: b)).map fun q => (q.1, found ++ q.2) := by
    rw [Scan.run_append, ha, Option.bind_some]
  rw [Option.eq_none_iff_forall_not_mem]
  intro all hall
  obtain ⟨hscan, hin⟩ := scanFor_eq_some.1 hall
  rw [scan, hrun] at hscan
  cases m with
  | text => exact hm rfl
  | percent => simp [Scan.run, Scan.step, hpercent, hopen] at hscan
  | closed read => simp [Scan.run, Scan.step, hs] at hscan
  | name read =>
    cases hr : (Scan.name read).run (c :: b) with
    | none => rw [hr] at hscan; cases hscan
    | some q =>
      obtain ⟨m, more⟩ := q
      rw [hr] at hscan
      cases m with
      | text =>
        -- the name is closed further on, and by then the character has become one of its own
        have hname : (Scan.name (read ++ [c])).run b = some (.text, more) := by
          simpa [Scan.run, Scan.step, hclose] using hr
        obtain ⟨rest, hmem⟩ := Scan.name_mem hname
        have hfound : all = found ++ more := by simpa using hscan.symm
        have hn := hin _ (by rw [hfound]; exact List.mem_append_right _ hmem)
        exact absurd (by simp) (hc.foreign _ hn)
      | percent | name | closed => cases hscan

/-- **What stands before a character that ends names is read on its own.** -/
theorem scanFor_before {c : Char} (hc : Ends names c) (a b : List Char) :
    scanFor names (a ++ c :: b) = joined (scanFor names a) (scanFor names b) := by
  have hbroken : scan a = none → scanFor names (a ++ c :: b) = none →
      scanFor names (a ++ c :: b) = joined (scanFor names a) (scanFor names b) := by
    intro ha hall
    have hnone : scanFor names a = none := by rw [scanFor, ha]; rfl
    rw [hall, hnone]
    rfl
  cases ha : Scan.run .text a with
  | none =>
    refine hbroken (by rw [scan, ha]) ?_
    rw [scanFor, scan, Scan.run_append, ha]
    rfl
  | some p =>
    obtain ⟨m, found⟩ := p
    cases m with
    | text =>
      -- the character is read as text, behind what was read before it
      have hac : Scan.run .text (a ++ [c]) = some (.text, found) := by
        rw [Scan.run_append, ha]
        simp [Scan.run, Scan.step, hc.plain.1]
      have hsame : scanFor names (a ++ [c]) = scanFor names a := by
        rw [scanFor, scanFor, scan, scan, hac, ha]
      rw [← List.singleton_append, ← List.append_assoc, scanFor_append hac, hsame]
    | percent | name | closed =>
      exact hbroken (by rw [scan, ha]) (scanFor_unfinished hc ha (by simp) b)

/-- Doubled quotes change nothing, as no name has a quote in it. -/
theorem scanFor_doubled (hq : Ends names '\'') (s : List Char) :
    scanFor names (doubled '\'' s) = scanFor names s := by
  have h : ∀ a, scanFor names (a ++ doubled '\'' s) = scanFor names (a ++ s) := by
    induction s with
    | nil => intro a; rfl
    | cons c cs ih =>
      intro a
      by_cases hc : c = '\''
      · subst hc
        have hempty := scanFor_before hq [] (doubled '\'' cs)
        rw [List.nil_append, scanFor_nil, joined_nil] at hempty
        have hrest : scanFor names (doubled '\'' cs) = scanFor names cs := ih []
        rw [doubled, if_pos rfl, scanFor_before hq, scanFor_before hq, hempty, hrest]
      · have := ih (a ++ [c])
        rw [doubled, if_neg hc]
        simpa using this
  exact h []

theorem scanFor_quoted (hq : Ends names '\'') (s : String) (rest : List Char) :
    scanFor names ((quoteLiteral s).toList ++ rest) =
      joined (scanFor names s.toList) (scanFor names rest) := by
  have hopen := scanFor_before hq [] (doubled '\'' s.toList ++ '\'' :: rest)
  rw [List.nil_append, scanFor_nil, joined_nil] at hopen
  rw [toList_quoteLiteral]
  simp only [List.cons_append, List.append_assoc, List.nil_append]
  rw [hopen, scanFor_before hq, scanFor_doubled hq]

/-- A text without percent signs has no places. -/
theorem run_plain {s : List Char} (h : '%' ∉ s) : Scan.run .text s = some (.text, []) := by
  induction s with
  | nil => rfl
  | cons c cs ih =>
    obtain ⟨hc, hcs⟩ : c ≠ '%' ∧ '%' ∉ cs := by simpa [eq_comm] using h
    simp [Scan.run, Scan.step, hc, ih hcs]

theorem run_name {read s rest : List Char} (h : ')' ∉ s) :
    (Scan.name read).run (s ++ ')' :: rest) = (Scan.closed (read ++ s)).run rest := by
  induction s generalizing read with
  | nil => simp [Scan.run, Scan.step]
  | cons c cs ih =>
    obtain ⟨hc, hcs⟩ : c ≠ ')' ∧ ')' ∉ cs := by simpa [eq_comm] using h
    simp [Scan.run, Scan.step, hc, ih hcs]

/-- A place is found under its name. -/
theorem run_placeholder {n : String} (h : ')' ∉ n.toList) :
    Scan.run .text (placeholder n).toList = some (.text, [n]) := by
  have ht : (placeholder n).toList = '%' :: '(' :: (n.toList ++ ')' :: ['s']) := by
    simp [placeholder]
  have hname : (Scan.name []).run (n.toList ++ ')' :: ['s']) = some (.text, [n]) := by
    rw [run_name h]
    simp [Scan.run, Scan.step]
  rw [ht, Scan.run, Scan.step]
  simp [Scan.run, Scan.step, hname]

/-! ## Scans of pieces -/

/-- A name without quotes, blanks and brackets. -/
def Bare (n : String) : Prop := '\'' ∉ n.toList ∧ ' ' ∉ n.toList ∧ ')' ∉ n.toList

instance (n : String) : Decidable (Bare n) :=
  inferInstanceAs (Decidable ('\'' ∉ n.toList ∧ ' ' ∉ n.toList ∧ ')' ∉ n.toList))

/-- The piece is of a caller, or else there is nothing in it that could be misread. -/
def Piece.Plain : Piece String → Prop
  | text s => '%' ∉ s.toList
  | hole n => Bare n
  | key _ | table _ => True

theorem Piece.holes_plain {ns : List String} (h : ∀ n ∈ ns, Bare n) :
    ∀ p ∈ Piece.holes ns, p.Plain := by
  fun_induction Piece.holes ns with
  | case1 => simp
  | case2 n => simpa [Plain] using h
  | case3 n ns _ ih =>
    obtain ⟨hn, hns⟩ : Bare n ∧ ∀ n ∈ ns, Bare n := by simpa using h
    simpa [Plain, hn] using ih hns

/-- The places in a piece that may only be those of some names. -/
def Piece.found (names : List String) : Piece String → Option (List String)
  | text _ => some []
  | hole n => some [n]
  | key s | table s => scanFor names s.toList

/-- The places in pieces, if all can be read. -/
def foundIn (names : List String) : List (Piece String) → Option (List String)
  | [] => some []
  | p :: ps => joined (p.found names) (foundIn names ps)

/-- The text of a statement is put together from pieces, for some bound names. -/
structure Assembled (names : List String) (text : String) (ps : List (Piece String)) : Prop where
  /-- A table may come last, so the text has a blank behind it. -/
  concat : Piece.concat ps = text ++ " "
  plain : ∀ p ∈ ps, p.Plain
  /-- The bound names have places, and no others have. -/
  bound : ∀ n, n ∈ names ↔ n ∈ Piece.labels ps

theorem scanFor_concat {ps : List (Piece String)} (hq : Ends names '\'') (hb : Ends names ' ')
    (hplain : ∀ p ∈ ps, p.Plain) (hin : ∀ n ∈ Piece.labels ps, n ∈ names) :
    scanFor names (Piece.concat ps).toList = foundIn names ps := by
  induction ps with
  | nil => exact scanFor_nil
  | cons p ps ih =>
    obtain ⟨hp, hps⟩ : p.Plain ∧ ∀ p ∈ ps, p.Plain := by simpa using hplain
    have hrest : ∀ n ∈ Piece.labels ps, n ∈ names := by
      intro n hn
      refine hin n ?_
      cases p with
      | hole m => exact List.mem_cons_of_mem m hn
      | _ => exact hn
    rw [Piece.concat, String.toList_append, foundIn, ← ih hps hrest]
    cases p with
    | text s =>
      rw [Piece.print, scanFor_append (run_plain hp), scanFor, scan, run_plain hp]
      rfl
    | key s => exact scanFor_quoted hq s _
    | table s =>
      have hs : (Piece.table s).print.toList = s.toList ++ [' '] := by simp [Piece.print]
      rw [hs, List.append_assoc, List.singleton_append, scanFor_before hb]
      rfl
    | hole n =>
      have hn : n ∈ names := hin n List.mem_cons_self
      have hrun := run_placeholder hp.2.2
      have hfound : scanFor names (placeholder n).toList = some [n] := by
        have hscan : scan (placeholder n).toList = some [n] := by rw [scan, hrun]
        exact scanFor_eq_some.2 ⟨hscan, by simpa using hn⟩
      rw [Piece.print, scanFor_append hrun, hfound]
      rfl

/-- Pieces can be read if the texts of the callers can be. -/
theorem foundIn_isSome {ps : List (Piece String)} :
    (∃ found, foundIn names ps = some found) ↔ ∀ s ∈ Piece.callers ps, Innocent names s := by
  induction ps with
  | nil => simp [foundIn, Piece.callers]
  | cons p ps ih =>
    have hjoined : ∀ a b, (∃ found, joined a b = some found) ↔
        (∃ found, a = some found) ∧ ∃ found, b = some found := by
      intro a b
      cases a <;> cases b <;> simp [joined]
    have hinnocent : ∀ s : String, (∃ found, scanFor names s.toList = some found) ↔
        Innocent names s := fun s => exists_congr fun found => scanFor_eq_some
    rw [foundIn, hjoined, ih]
    cases p with
    | text s => simp [Piece.found, Piece.callers]
    | hole n => simp [Piece.found, Piece.callers]
    | key s => simp [Piece.found, Piece.callers, hinnocent]
    | table s => simp [Piece.found, Piece.callers, hinnocent]

/-- The places of the library are among those that are found, in their order. -/
theorem labels_sublist {ps : List (Piece String)} {found : List String}
    (h : foundIn names ps = some found) : (Piece.labels ps).Sublist found := by
  induction ps generalizing found with
  | nil => cases h; exact List.Sublist.refl _
  | cons p ps ih =>
    rw [foundIn] at h
    cases hp : p.found names with
    | none => rw [hp] at h; cases h
    | some a =>
      cases hps : foundIn names ps with
      | none => rw [hps, joined_none] at h; cases h
      | some b =>
        have hf : found = a ++ b := by rw [hp, hps] at h; simpa [joined] using h.symm
        rw [hf]
        cases p with
        | hole n => cases hp; exact (ih hps).cons_cons n
        | text s => cases hp; exact ih hps
        | key s => exact (ih hps).trans (List.sublist_append_right a b)
        | table s => exact (ih hps).trans (List.sublist_append_right a b)

/-- A text of a caller that is followed by the places of the library, and no others, has none. -/
theorem joined_labels {ps : List (Piece String)} {s : String} :
    joined (scanFor names s.toList) (foundIn names ps) = some (Piece.labels ps) ↔
      Inert s ∧ foundIn names ps = some (Piece.labels ps) := by
  constructor
  · intro h
    cases ha : scanFor names s.toList with
    | none => rw [ha] at h; cases h
    | some a =>
      cases hb : foundIn names ps with
      | none => rw [hb, joined_none] at h; cases h
      | some b =>
        have hab : a ++ b = Piece.labels ps := by rw [ha, hb] at h; simpa [joined] using h
        -- the places of the library alone are as many as all that are found
        have hlen := (labels_sublist hb).length_le
        rw [← hab, List.length_append] at hlen
        have hnil : a = [] := List.length_eq_zero_iff.1 (by omega)
        subst hnil
        exact ⟨(scanFor_eq_some.1 ha).1, congrArg some hab⟩
  · rintro ⟨hs, hb⟩
    have ha : scanFor names s.toList = some [] := scanFor_eq_some.2 ⟨hs, by simp⟩
    rw [ha, hb]
    rfl

/-- No other places are found if the texts of the callers are inert. -/
theorem foundIn_labels {ps : List (Piece String)} :
    foundIn names ps = some (Piece.labels ps) ↔ ∀ s ∈ Piece.callers ps, Inert s := by
  induction ps with
  | nil => simp [foundIn, Piece.labels, Piece.callers]
  | cons p ps ih =>
    rw [foundIn]
    cases p with
    | text s => simpa [Piece.found, Piece.labels, Piece.callers] using ih
    | hole n =>
      have hcons : joined (some [n]) (foundIn names ps) = some (n :: Piece.labels ps) ↔
          foundIn names ps = some (Piece.labels ps) := by
        cases foundIn names ps <;> simp [joined]
      rw [Piece.found, Piece.labels, hcons, ih]
      rfl
    | key s => simp [Piece.found, Piece.labels, Piece.callers, joined_labels, ih]
    | table s => simp [Piece.found, Piece.labels, Piece.callers, joined_labels, ih]

namespace Assembled

variable {text : String} {ps : List (Piece String)}

/-- The bound names are bare, as they have places. -/
theorem bare (h : Assembled names text ps) : ∀ n ∈ names, Bare n := by
  have hlabels : ∀ {qs : List (Piece String)}, (∀ p ∈ qs, p.Plain) →
      ∀ n ∈ Piece.labels qs, Bare n := by
    intro qs hqs
    induction qs with
    | nil => simp [Piece.labels]
    | cons p qs ih =>
      obtain ⟨hp, hps⟩ : p.Plain ∧ ∀ p ∈ qs, p.Plain := by simpa using hqs
      cases p with
      | hole n =>
        intro m hm
        rcases List.mem_cons.1 hm with rfl | hm
        · exact hp
        · exact ih hps m hm
      | _ => exact ih hps
  exact fun n hn => hlabels h.plain n ((h.bound n).1 hn)

theorem scanFor_eq (h : Assembled names text ps) :
    scanFor names text.toList = foundIn names ps := by
  have hq : Ends names '\'' := ⟨by decide, fun n hn => (h.bare n hn).1⟩
  have hb : Ends names ' ' := ⟨by decide, fun n hn => (h.bare n hn).2.1⟩
  have hconcat := scanFor_concat hq hb h.plain fun n hn => (h.bound n).2 hn
  have htext : (text ++ " ").toList = text.toList ++ ' ' :: [] := by simp
  rw [h.concat, htext, scanFor_before hb, scanFor_nil] at hconcat
  rw [← hconcat]
  cases scanFor names text.toList <;> simp [joined]

/-- **Exactly the innocent texts of callers leave a statement well formed.** -/
theorem wellFormed_iff {params : Params} (h : Assembled params.names text ps) :
    WellFormed text params ↔ ∀ s ∈ Piece.callers ps, Innocent params.names s := by
  rw [← foundIn_isSome, ← h.scanFor_eq]
  constructor
  · rintro ⟨found, hscan, hsame⟩
    exact ⟨found, scanFor_eq_some.2 ⟨hscan, fun n hn => (hsame n).1 hn⟩⟩
  · rintro ⟨found, hfound⟩
    obtain ⟨hscan, hin⟩ := scanFor_eq_some.1 hfound
    have hsub := labels_sublist (h.scanFor_eq ▸ hfound)
    exact ⟨found, hscan, fun n => ⟨hin n, fun hn => hsub.subset ((h.bound n).1 hn)⟩⟩

/-- **Exactly the inert texts of callers are read as nothing but text.** -/
theorem scan_iff (h : Assembled names text ps) :
    scan text.toList = some (Piece.labels ps) ↔ ∀ s ∈ Piece.callers ps, Inert s := by
  have hlabels : foundIn names ps = some (Piece.labels ps) ↔ ∀ s ∈ Piece.callers ps, Inert s :=
    foundIn_labels
  rw [← hlabels, ← h.scanFor_eq, scanFor_eq_some]
  exact ⟨fun hs => ⟨hs, fun n hn => (h.bound n).2 hn⟩, fun hs => hs.1⟩

end Assembled

end Parts

end Docbase.Sql
