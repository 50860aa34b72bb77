import Docbase.Field
import Docbase.Proofs.Outcome

/-!
# Paths and their keys, and values beside them

* `Text.intercalate_split`: the keys of a path, joined by points, are the path;
  `Text.mark_notMem_split`: there is no point in them.
* `Resolver.plain`: the resolver without promoted columns; `operand_plain` and `textOperand_plain`
  say what an accepted path stands for then.
* `Resolver.jsonText_eq_ok`, `Resolver.jsonText_eq_error`: a value is bound as its JSON text, or refused
  for what keeps it from having one.
-/

namespace Docbase

namespace Text

theorem splitChars_ne_nil (mark : Char) (cs : List Char) : splitChars mark cs ≠ [] := by
  cases cs with
  | nil => simp [splitChars]
  | cons c cs =>
    rw [splitChars]
    split
    · simp
    · split <;> simp

theorem intercalate_splitChars (mark : Char) (cs : List Char) :
    [mark].intercalate (splitChars mark cs) = cs := by
  induction cs with
  | nil => rfl
  | cons c cs ih =>
    rw [splitChars]
    cases hp : splitChars mark cs with
    | nil => exact absurd hp (splitChars_ne_nil mark cs)
    | cons piece pieces =>
      rw [hp] at ih
      split
      · rename_i hc
        rw [List.intercalate_cons_cons, ih, hc]
        rfl
      · cases pieces with
        | nil => simpa using ih
        | cons next pieces =>
          simp only [List.intercalate_cons_cons] at ih ⊢
          rw [← ih]
          rfl

/-- The mark is in none of the pieces. -/
theorem mark_notMem_splitChars {mark : Char} {cs piece : List Char}
    (h : piece ∈ splitChars mark cs) : mark ∉ piece := by
  induction cs generalizing piece with
  | nil =>
    rw [List.mem_singleton.1 h]
    exact List.not_mem_nil
  | cons c cs ih =>
    rw [splitChars] at h
    cases hp : splitChars mark cs with
    | nil => exact absurd hp (splitChars_ne_nil mark cs)
    | cons first pieces =>
      rw [hp] at h ih
      split at h
      · rcases List.mem_cons.1 h with rfl | h
        · exact List.not_mem_nil
        · exact ih h
      · rename_i hc
        rcases List.mem_cons.1 h with rfl | h
        · simpa [Ne.symm hc] using ih List.mem_cons_self
        · exact ih (List.mem_cons_of_mem _ h)

theorem mark_notMem_split {mark : Char} {s piece : String} (h : piece ∈ split mark s) :
    mark ∉ piece.toList := by
  obtain ⟨cs, hcs, rfl⟩ := List.mem_map.1 h
  simpa using mark_notMem_splitChars hcs

theorem split_ne_nil (mark : Char) (s : String) : split mark s ≠ [] := by
  simpa [split] using splitChars_ne_nil mark s.toList

/-- The pieces of a text, with the mark between them again, are the text. -/
theorem intercalate_split (mark : Char) (s : String) :
    (String.singleton mark).intercalate (split mark s) = s := by
  rw [← String.toList_inj, String.toList_intercalate, split, List.map_map]
  have : (String.toList ∘ String.ofList) = id := by
    funext cs
    simp
  rw [this, List.map_id]
  simpa using intercalate_splitChars mark s.toList

end Text

namespace Json

variable {v : Value} {text : String}

theorem encode_eq_ok :
    encode v = .ok text ↔ ∃ cs, encodeChars v = .ok cs ∧ String.ofList cs = text := map_eq_ok

/-- The text of a list of one element is the text of the element in brackets. -/
theorem encode_singleton : encode (.list [v]) = .ok text ↔
    ∃ cs, encodeChars v = .ok cs ∧ String.ofList ('[' :: (cs ++ [']'])) = text := by
  rw [encode_eq_ok, encodeChars, encodeItems, encodeItems]
  cases encodeChars v with
  | error o => simp [bind, Except.bind]
  | ok cs => simp [bind, Except.bind, pure, Except.pure, joined]

end Json

namespace Resolver

open Sql

/-- An accepted path has the keys between its points. -/
theorem segments_ok {path : String} {keys : List String} (h : segments path = .ok keys) :
    keys = Text.split '.' path := by
  unfold segments at h
  split at h
  · cases h
  · simp only at h
    split at h
    · cases h
    · cases h; rfl

/-- The parent and the last key make up the keys of a path. -/
theorem splitParent_ok {path key : String} {keys : List String}
    (h : splitParent path = .ok (keys, key)) : keys ++ [key] = Text.split '.' path := by
  obtain ⟨all, hall, h⟩ := bind_eq_ok.1 h
  cases h
  rw [segments_ok hall]
  have hne := Text.split_ne_nil '.' path
  rw [List.getLast?_eq_some_getLast hne, Option.getD_some, List.dropLast_concat_getLast hne]

/-- The resolver of stores without promoted columns. -/
def plain : Resolver := { promote := false }

theorem operand_plain {path : String} {operand : Operand} (h : plain.operand path = .ok operand) :
    operand = .json docColumn (Text.split '.' path) := by
  obtain ⟨keys, hkeys, rfl⟩ := map_eq_ok.1 h
  rw [segments_ok hkeys]
  rfl

theorem textOperand_plain {path : String} {operand : Operand}
    (h : plain.textOperand path = .ok operand) :
    ∃ keys key, operand = .jsonText docColumn keys key ∧ keys ++ [key] = Text.split '.' path := by
  obtain ⟨⟨keys, key⟩, hp, rfl⟩ := map_eq_ok.1 h
  exact ⟨keys, key, rfl, splitParent_ok hp⟩

theorem jsonText_eq_ok {v w : Value} :
    jsonText v = .ok w ↔ ∃ text, Json.encode v = .ok text ∧ .str text = w := by
  rw [jsonText, map_eq_ok]
  simp only [encodeText, mapError_eq_ok]

theorem jsonText_eq_error {v : Value} {x : Error} :
    jsonText v = .error x ↔ ∃ o, Json.encode v = .error o ∧ .misuse o.misuse = x := by
  unfold jsonText encodeText
  cases Json.encode v with
  | error o => simp [Except.map, Except.mapError]
  | ok text => simp [Except.map, Except.mapError]

end Resolver

end Docbase
