import Docbase.Order.SortKey
import Docbase.Proofs.Sql.Reading

/-!
# Fragments between commas

Sort keys stand behind `ORDER BY` with commas between them, and their texts may have commas of their
own, but only inside literals.

* `splitFragments`: the pieces of a text between the commas that are outside literals.
* `Whole`: a text that is not split, whatever stands behind it.
* `readOrderBy_text`: **sort keys that are whole are read back**.
-/

namespace Docbase.Sql

/-- The first of some pieces with characters put before it. -/
def prepend (front : List Char) : List (List Char) → List (List Char)
  | [] => [front]
  | piece :: pieces => (front ++ piece) :: pieces

/-- The pieces of a text between the commas outside literals. A quote opens a literal or closes it:
two of them inside a literal close it and open it again at once. -/
def splitFragments (inside : Bool) : List Char → List (List Char)
  | [] => [[]]
  | c :: cs =>
    if c = ',' ∧ inside = false then [] :: splitFragments false cs
    else prepend [c] (splitFragments (inside != (c == '\'')) cs)

/-- The sort keys of a text. A blank stands before each of them. -/
def readOrderBy (text : String) : Option (List String) :=
  (behind? "ORDER BY" text.toList).map fun s =>
    (splitFragments false s).map fun piece => String.ofList (piece.drop 1)

theorem prepend_prepend (a b : List Char) (ps : List (List Char)) :
    prepend a (prepend b ps) = prepend (a ++ b) ps := by
  cases ps with
  | nil => rfl
  | cons p ps => simp [prepend]

theorem prepend_nil_split (inside : Bool) (cs : List Char) :
    prepend [] (splitFragments inside cs) = splitFragments inside cs := by
  cases cs with
  | nil => rfl
  | cons c cs =>
    rw [splitFragments]
    split
    · rfl
    · exact prepend_prepend [] [c] _

/-- A text that is outside literals at its end, and is not split. -/
def Whole (cs : List Char) : Prop :=
  ∀ t, splitFragments false (cs ++ t) = prepend cs (splitFragments false t)

namespace Whole

variable {cs ds : List Char}

theorem append (hc : Whole cs) (hd : Whole ds) : Whole (cs ++ ds) := by
  intro t
  rw [List.append_assoc, hc, hd, prepend_prepend]

/-- A text without commas and quotes. -/
theorem plain (h : ∀ c ∈ cs, c ≠ ',' ∧ c ≠ '\'') : Whole cs := by
  induction cs with
  | nil => exact fun t => (prepend_nil_split false t).symm
  | cons c cs ih =>
    obtain ⟨⟨hcomma, hquote⟩, hcs⟩ := List.forall_mem_cons.1 h
    intro t
    have hinside : (false != (c == '\'')) = false := by simpa using hquote
    rw [List.cons_append, splitFragments, if_neg fun hc => hcomma hc.1, hinside, ih hcs t,
      prepend_prepend]
    rfl

/-- Inside a literal nothing is split, up to the quote that closes it. -/
theorem inside (cs t : List Char) :
    splitFragments true (doubled '\'' cs ++ '\'' :: t) =
      prepend (doubled '\'' cs ++ ['\'']) (splitFragments false t) := by
  induction cs with
  | nil => simp [doubled, splitFragments]
  | cons c cs ih =>
    by_cases hc : c = '\''
    · simp [hc, doubled, splitFragments, ih, prepend_prepend]
    · have hinside : (true != (c == '\'')) = true := by simpa using hc
      rw [doubled, if_neg hc, List.cons_append, splitFragments, if_neg (by simp), hinside, ih,
        prepend_prepend]
      rfl

/-- **A literal is whole**, whatever is in it. -/
theorem literal (s : String) : Whole (quoteLiteral s).toList := by
  intro t
  have hquote : (false != (('\'' : Char) == '\'')) = true := rfl
  rw [toList_quoteLiteral, List.cons_append, splitFragments, if_neg (by simp), hquote,
    List.append_assoc, List.singleton_append, inside, prepend_prepend]
  rfl

theorem arrows (keys : List String) : Whole (arrows keys).toList := by
  induction keys with
  | nil => exact plain (by simp [Sql.arrows])
  | cons key keys ih =>
    have harrow : Whole "->".toList := plain (by simp)
    simpa [Sql.arrows] using (harrow.append (literal key)).append ih

/-- Whole texts with commas between them are split at these commas. -/
theorem split {pieces : List (List Char)} (hne : pieces ≠ []) (h : ∀ p ∈ pieces, Whole p) :
    splitFragments false ([','].intercalate pieces) = pieces := by
  induction pieces with
  | nil => exact absurd rfl hne
  | cons p pieces ih =>
    obtain ⟨hp, hpieces⟩ := List.forall_mem_cons.1 h
    cases pieces with
    | nil =>
      have hlast := hp []
      simpa [splitFragments, prepend] using hlast
    | cons q pieces =>
      rw [List.intercalate_cons_cons, List.append_assoc, hp, List.singleton_append, splitFragments,
        if_pos ⟨rfl, rfl⟩, ih (by simp) hpieces]
      simp [prepend]

end Whole

/-- A blank before the first of some texts and before every comma's next one. -/
theorem blank_intercalate {texts : List (List Char)} (hne : texts ≠ []) :
    ' ' :: [',', ' '].intercalate texts = [','].intercalate (texts.map (' ' :: ·)) := by
  induction texts with
  | nil => exact absurd rfl hne
  | cons t texts ih =>
    cases texts with
    | nil => simp
    | cons u texts =>
      have hrest := ih (by simp)
      simp only [List.map_cons, List.intercalate_cons_cons] at hrest ⊢
      simp [← hrest]

end Docbase.Sql

namespace Docbase

open Sql

/-- **Sort keys that are whole are read back**, in their order. -/
theorem readOrderBy_text {keys : List SortKey} (hne : keys ≠ [])
    (h : ∀ k ∈ keys, Whole k.text.toList) :
    readOrderBy (orderByText keys) = some (keys.map SortKey.text) := by
  have hs : (orderByText keys).toList =
      "ORDER BY".toList ++ [','].intercalate (keys.map fun k => ' ' :: k.text.toList) := by
    have htexts : keys.map (fun k => k.text.toList) ≠ [] := by simpa using hne
    have hblank := blank_intercalate htexts
    rw [List.map_map] at hblank
    have hempty : keys.isEmpty = false := by simpa using hne
    rw [orderByText, hempty, if_neg Bool.false_ne_true]
    simpa [String.toList_intercalate, Function.comp_def] using hblank
  have hwhole : ∀ p ∈ keys.map (fun k => ' ' :: k.text.toList), Whole p := by
    intro p hp
    obtain ⟨k, hk, rfl⟩ := List.mem_map.1 hp
    have hb : Whole [' '] := Whole.plain (by simp)
    exact hb.append (h k hk)
  rw [readOrderBy, hs, behind?_append, Option.map_some, Whole.split (by simpa using hne) hwhole]
  simp [Function.comp_def]

end Docbase
