import Docbase.Proofs.Sql.Fragments
import Docbase.Proofs.Sql.Identifier

/-!
# What an alteration of a table says

Behind the name of the table an `ALTER TABLE` has items with commas between them, each of which adds
a column or drops one. A comma ends an item unless it stands in brackets or quotes. The type of a
column is part of its item; so a type with a comma of its own may be read as more than a type.

* `items?`: the items of a text; `items?_append`: a text that is one item ends where a comma follows.
* `Alteration`, `readItem`: what an item says.
* `readAlterations`: what a text says; `readAlterations_append`: **what is read alone is read the
  same before others**.
* `readAlterations_intercalate`, `readAlterations_drop`: texts of one item each, and columns that are
  dropped.
-/

namespace Docbase.Sql

/-! ## Items -/

/-- How far a scan has got: how many brackets are open, and which quote is still to be closed. -/
structure Spot where
  depth : Nat
  quote : Option Char
  deriving DecidableEq

namespace Spot

/-- Outside of brackets and quotes. -/
def outside : Spot := ⟨0, none⟩

/-- Where a scan is behind a character, given what comes next. Comments, dollar quotes and backslashes
are not read, nor is a bracket that closes none. -/
def next? (s : Spot) (c : Char) (ahead : Option Char) : Option Spot :=
  match s.quote with
  | some q => if c = q then some ⟨s.depth, none⟩ else if c = '\\' then none else some s
  | none =>
    if c = '\'' ∨ c = '"' then some ⟨s.depth, some c⟩
    else if c = '(' ∨ c = '[' then some ⟨s.depth + 1, none⟩
    else if c = ')' ∨ c = ']' then if s.depth = 0 then none else some ⟨s.depth - 1, none⟩
    else if c = '$' ∨ c = '\\' ∨ (c = '-' ∧ ahead = some '-') ∨ (c = '/' ∧ ahead = some '*') then none
    else some s

/-- A comma behind a character begins nothing with it. -/
theorem next?_comma (s : Spot) (c : Char) : s.next? c (some ',') = s.next? c none := by
  simp [next?]

/-- A character of names, or white space, leaves a scan where it is. -/
theorem next?_plain {c : Char} (h : isNameChar c = true ∨ isSqlBlank c = true)
    (ahead : Option Char) : outside.next? c ahead = some outside := by
  have hne : ∀ d ∈ ['\'', '"', '(', '[', ')', ']', '$', '\\', '-', '/'], c ≠ d := by
    rintro d hd rfl
    revert h
    simp only [List.mem_cons, List.not_mem_nil, or_false] at hd
    rcases hd with rfl | rfl | rfl | rfl | rfl | rfl | rfl | rfl | rfl | rfl <;> decide
  simp only [List.forall_mem_cons] at hne
  simp [next?, outside, hne]

end Spot

/-- The items of a text from some spot on. -/
def items? (s : Spot) : List Char → Option (List (List Char))
  | [] => if s = .outside then some [[]] else none
  | c :: cs =>
    if c = ',' ∧ s = .outside then (items? .outside cs).map ([] :: ·)
    else (s.next? c cs.head?).bind fun t => (items? t cs).map (prepend [c])

theorem items?_ne_nil (s : Spot) (cs : List Char) : items? s cs ≠ some [] := by
  cases cs with
  | nil =>
    rw [items?]
    split <;> simp
  | cons c cs =>
    rw [items?]
    split
    · simp
    · intro h
      obtain ⟨t, -, h⟩ := Option.bind_eq_some_iff.1 h
      obtain ⟨items, -, h⟩ := Option.map_eq_some_iff.1 h
      cases items <;> cases h

/-- **A text that is one item ends where a comma follows.** -/
theorem items?_append {s : Spot} {cs item : List Char} (h : items? s cs = some [item])
    (ds : List Char) :
    item = cs ∧ items? s (cs ++ ',' :: ds) = (items? .outside ds).map (cs :: ·) := by
  induction cs generalizing s item with
  | nil =>
    rw [items?] at h
    split at h
    · next hs =>
      subst hs
      obtain rfl : [] = item := by simpa using h
      exact ⟨rfl, by simp [items?]⟩
    · cases h
  | cons c cs ih =>
    rw [items?] at h
    split at h
    · -- a comma would begin a second item
      obtain ⟨items, hitems, h⟩ := Option.map_eq_some_iff.1 h
      obtain rfl : items = [] := by simpa using (List.cons.inj h).2
      exact absurd hitems (items?_ne_nil _ _)
    · next hcomma =>
      obtain ⟨t, ht, h⟩ := Option.bind_eq_some_iff.1 h
      obtain ⟨items, hitems, h⟩ := Option.map_eq_some_iff.1 h
      obtain ⟨first, rfl, rfl⟩ : ∃ first, items = [first] ∧ item = c :: first := by
        match items, h with
        | [], _ => exact absurd hitems (items?_ne_nil _ _)
        | [first], h => exact ⟨first, rfl, (List.cons.inj h).1.symm⟩
      obtain ⟨rfl, hrest⟩ := ih hitems
      have hahead : s.next? c (first ++ ',' :: ds).head? = some t := by
        cases first with
        | nil => exact (s.next?_comma c).trans ht
        | cons d first => exact ht
      refine ⟨rfl, ?_⟩
      rw [List.cons_append, items?, if_neg hcomma, hahead, Option.bind_some, hrest, Option.map_map]
      rfl

/-- A text of names and white space is one item. -/
theorem items?_plain {cs : List Char} (h : ∀ c ∈ cs, isNameChar c = true ∨ isSqlBlank c = true) :
    items? .outside cs = some [cs] := by
  induction cs with
  | nil => rfl
  | cons c cs ih =>
    obtain ⟨hc, hcs⟩ := List.forall_mem_cons.1 h
    have hcomma : ¬ (c = ',' ∧ Spot.outside = .outside) := by
      rintro ⟨rfl, -⟩
      revert hc
      decide
    rw [items?, if_neg hcomma, Spot.next?_plain hc, Option.bind_some, ih hcs]
    rfl

/-! ## What items say -/

/-- What an item says: a column is added, or one is dropped. -/
inductive Alteration
  | add (name : String)
  | drop (name : String)
  deriving DecidableEq

/-- The words of a text. -/
def words (cs : List Char) : List String :=
  ((cs.splitOnP isSqlBlank).filter (· ≠ [])).map String.ofList

/-- What an item says. `IF NOT` in the place of a name and a type does not stand for them. -/
def readItem (item : List Char) : Option Alteration :=
  match words item with
  | "ADD" :: "COLUMN" :: name :: type :: _ =>
    if name.toUpper = "IF" ∧ type.toUpper = "NOT" then none else some (.add name)
  | ["DROP", "COLUMN", name] => some (.drop name)
  | _ => none

/-- What items say, if all of them can be read. -/
def readItems : List (List Char) → Option (List Alteration)
  | [] => some []
  | item :: items => (readItem item).bind fun a => (readItems items).map (a :: ·)

/-- What the items of a text say. -/
def readAlterations (s : String) : Option (List Alteration) :=
  (items? .outside s.toList).bind readItems

theorem readItems_eq_singleton {items : List (List Char)} {a : Alteration}
    (h : readItems items = some [a]) : ∃ item, items = [item] ∧ readItem item = some a := by
  cases items with
  | nil => cases h
  | cons item items =>
    obtain ⟨b, hb, h⟩ := Option.bind_eq_some_iff.1 h
    obtain ⟨rest, hrest, h⟩ := Option.map_eq_some_iff.1 h
    obtain ⟨rfl, rfl⟩ := List.cons.inj h
    cases items with
    | nil => exact ⟨item, rfl, hb⟩
    | cons more items =>
      obtain ⟨c, -, hmore⟩ := Option.bind_eq_some_iff.1 hrest
      obtain ⟨others, -, hmore⟩ := Option.map_eq_some_iff.1 hmore
      exact absurd hmore (List.cons_ne_nil c others)

theorem words_blank {c : Char} (hc : isSqlBlank c = true) (cs ds : List Char) :
    words (cs ++ c :: ds) = words cs ++ words ds := by
  unfold words
  rw [List.splitOnP_append_cons cs ds hc, List.filter_append, List.map_append]

/-- A text without white space is one word. -/
theorem words_of_chars {cs : List Char} (hne : cs ≠ []) (h : ∀ c ∈ cs, isSqlBlank c = false) :
    words cs = [String.ofList cs] := by
  rw [words, List.splitOnP_eq_singleton h]
  simp [hne]

/-- The word that an identifier is. -/
def Identifier.word (i : Identifier) : String := String.ofList (chomped i.text.toList)

theorem Identifier.words_text (i : Identifier) : words i.text.toList = [i.word] := by
  obtain ⟨hchars, hcases⟩ := i.chomped_chars
  have hblank : ∀ c ∈ chomped i.text.toList, isSqlBlank c = false :=
    fun c hc => isNameChar_not_blank (hchars c hc)
  have hne : chomped i.text.toList ≠ [] := by
    intro hnil
    obtain ⟨c, cs, htext, hc, -⟩ := i.start
    rw [hnil, htext] at hcases
    rcases hcases with h | h
    · cases h
    · obtain ⟨rfl, -⟩ := List.cons.inj h
      exact absurd hc (by decide)
  have hword := words_of_chars hne hblank
  rcases hcases with h | h
  · rw [h]
    exact hword
  · have hempty : words [] = [] := rfl
    rw [h, words_blank (by decide), hempty, List.append_nil]
    exact hword

/-- **What is read alone as one item is read the same before others.** -/
theorem readAlterations_append {s : String} {a : Alteration} (h : readAlterations s = some [a])
    (t : String) : readAlterations (s ++ ", " ++ t) = (readAlterations t).map (a :: ·) := by
  obtain ⟨items, hitems, hread⟩ := Option.bind_eq_some_iff.1 h
  obtain ⟨item, rfl, hitem⟩ := readItems_eq_singleton hread
  obtain ⟨rfl, happend⟩ := items?_append hitems (' ' :: t.toList)
  have htext : (s ++ ", " ++ t).toList = s.toList ++ ',' :: ' ' :: t.toList := by simp
  -- the blank behind the comma is no part of what the next item says
  have hblank : items? .outside (' ' :: t.toList)
      = (items? .outside t.toList).map (prepend [' ']) := by
    rw [items?, if_neg (by simp), Spot.next?_plain (.inr rfl), Option.bind_some]
  have hread : ∀ cs, readItem (' ' :: cs) = readItem cs := by
    intro cs
    have hwords : words (' ' :: cs) = words cs := words_blank (by decide) [] cs
    rw [readItem, readItem, hwords]
  rw [readAlterations, readAlterations, htext, happend, hblank]
  cases hrest : items? .outside t.toList with
  | none => rfl
  | some items =>
    cases items with
    | nil => exact absurd hrest (items?_ne_nil _ _)
    | cons first items => simp [prepend, readItems, hitem, hread]

/-- Texts that are read alone as one item are read one after the other. -/
theorem readAlterations_intercalate {ι : Type} {text : ι → String} {result : ι → Alteration}
    {is : List ι} (hne : is ≠ []) (h : ∀ i ∈ is, readAlterations (text i) = some [result i]) :
    readAlterations (", ".intercalate (is.map text)) = some (is.map result) := by
  induction is with
  | nil => exact absurd rfl hne
  | cons i is ih =>
    obtain ⟨hi, his⟩ := List.forall_mem_cons.1 h
    cases is with
    | nil => simpa using hi
    | cons j is =>
      have hrest := ih (by simp) his
      rw [List.map_cons, List.map_cons] at hrest ⊢
      rw [String.intercalate_cons_cons, readAlterations_append hi, hrest]
      rfl

/-- A column that is dropped by its name. -/
theorem readAlterations_drop (i : Identifier) :
    readAlterations ("DROP COLUMN " ++ i.text) = some [.drop i.word] := by
  have hplain : ∀ c ∈ ("DROP COLUMN " ++ i.text).toList,
      isNameChar c = true ∨ isSqlBlank c = true := by
    intro c hc
    rw [String.toList_append, List.mem_append] at hc
    rcases hc with hc | hc
    · have hverb : "DROP COLUMN ".toList.all (fun c => isNameChar c || isSqlBlank c) = true := by
        decide
      simpa using List.all_eq_true.1 hverb c hc
    · rcases i.mem_chars hc with hc | rfl
      · exact .inl hc
      · exact .inr rfl
  have hwords : words ("DROP COLUMN " ++ i.text).toList = ["DROP", "COLUMN", i.word] := by
    have htext : ("DROP COLUMN " ++ i.text).toList
        = "DROP".toList ++ ' ' :: ("COLUMN".toList ++ ' ' :: i.text.toList) := by simp
    rw [htext, words_blank (by decide), words_blank (by decide), i.words_text]
    rfl
  rw [readAlterations, items?_plain hplain, Option.bind_some, readItems, readItem, hwords]
  rfl

end Docbase.Sql
