import Docbase.Proofs.Field.Faults
import Docbase.Proofs.Sql.Reading

/-!
# Accessors of a path

A path that is not promoted leads into the JSON column by one arrow for each key. Every text is
allowed as a key, also one that looks like SQL, so the accessors have to be read back by the rules of
SQL to see that they say what the path says.

* `readHops`: the keys behind arrows of either kind, up to a number of them.
* `readHops_arrows`: the arrows of a path give its keys, whatever follows them.
* `ReadsBack`: an accessor gives some keys and ends behind them.
* `Resolver.Accessors`: what the accessors of a path are.
* `accessors_safe`: **a path has accessors exactly if it has keys and none of them is empty, and
  they give the keys back**.
-/

namespace Docbase

open Sql

namespace Sql

/-- An arrow of either kind with the key behind it, and what follows. -/
def readHop (s : List Char) : Option (String × List Char) :=
  (((behind? "->'" s).or (behind? "->>'" s)).bind readQuoted).map fun p => (String.ofList p.1, p.2)

/-- The keys behind arrows, at most so many, and what follows the last of them. -/
def readHops : Nat → List Char → List String × List Char
  | 0, s => ([], s)
  | n + 1, s =>
    match readHop s with
    | some (key, t) => (key :: (readHops n t).1, (readHops n t).2)
    | none => ([], s)

/-- Nothing is read where no arrow with a key stands. -/
theorem readHops_none {s : List Char} (h : readHop s = none) (n : Nat) :
    readHops n s = ([], s) := by
  cases n with
  | zero => rfl
  | succ n => rw [readHops, h]

theorem readHop_arrow (key : String) {rest : List Char} (h : rest.head? ≠ some '\'') :
    readHop ("->".toList ++ ((quoteLiteral key).toList ++ rest)) = some (key, rest) := by
  have hs : "->".toList ++ ((quoteLiteral key).toList ++ rest) =
      "->'".toList ++ (doubled '\'' key.toList ++ '\'' :: rest) := by
    simp [toList_quoteLiteral]
  rw [hs, readHop, behind?_append, Option.some_or, Option.bind_some, readQuoted_doubled _ h]
  simp

theorem readHop_textArrow (key : String) {rest : List Char} (h : rest.head? ≠ some '\'') :
    readHop ("->>".toList ++ ((quoteLiteral key).toList ++ rest)) = some (key, rest) := by
  have hs : "->>".toList ++ ((quoteLiteral key).toList ++ rest) =
      "->>'".toList ++ (doubled '\'' key.toList ++ '\'' :: rest) := by
    simp [toList_quoteLiteral]
  have harrow : behind? "->'" ("->>'".toList ++ (doubled '\'' key.toList ++ '\'' :: rest)) = none :=
    rfl
  rw [hs, readHop, harrow, Option.none_or, behind?_append, Option.bind_some,
    readQuoted_doubled _ h]
  simp

/-- **The arrows of a path give its keys**, and what follows is read as if it stood alone. -/
theorem readHops_arrows (keys : List String) {rest : List Char} (h : rest.head? ≠ some '\'')
    (n : Nat) :
    readHops (keys.length + n) ((arrows keys).toList ++ rest) =
      (keys ++ (readHops n rest).1, (readHops n rest).2) := by
  induction keys with
  | nil => simp [arrows]
  | cons key keys ih =>
    -- a quote behind the key would go on with it
    have hhead : ((arrows keys).toList ++ rest).head? ≠ some '\'' := by
      cases keys with
      | nil => simpa [arrows] using h
      | cons => simp [arrows]
    have hs : (arrows (key :: keys)).toList ++ rest =
        "->".toList ++ ((quoteLiteral key).toList ++ ((arrows keys).toList ++ rest)) := by
      simp [arrows]
    have hn : (key :: keys).length + n = keys.length + n + 1 := by
      rw [List.length_cons]; omega
    rw [hs, hn, readHops, readHop_arrow key hhead]
    simp only [ih, List.cons_append]

end Sql

/-- The keys that an accessor of a column leads along, at most so many, and what follows. -/
def readAccessor (base : String) (n : Nat) (s : List Char) : Option (List String × List Char) :=
  (behind? base s).map (readHops n)

/-- Read from the column on, a text gives these keys and ends there: whatever follows it, and however
much of that is read as well, it is read as if it stood alone. Only a quote right behind the text
would go on with its last key. -/
def ReadsBack (base text : String) (keys : List String) : Prop :=
  ∀ rest : List Char, rest.head? ≠ some '\'' → ∀ n,
    readAccessor base (keys.length + n) (text.toList ++ rest) =
      some (keys ++ (readHops n rest).1, (readHops n rest).2)

theorem readsBack_arrows (base : String) (keys : List String) :
    ReadsBack base (base ++ arrows keys) keys := by
  intro rest h n
  rw [readAccessor, String.toList_append, List.append_assoc, behind?_append, Option.map_some,
    readHops_arrows keys h]

theorem readsBack_textArrow (base : String) (keys : List String) (last : String) :
    ReadsBack base (base ++ arrows keys ++ "->>" ++ quoteLiteral last) (keys ++ [last]) := by
  intro rest h n
  have hs : (base ++ arrows keys ++ "->>" ++ quoteLiteral last).toList ++ rest =
      base.toList ++ ((arrows keys).toList ++ ("->>".toList ++ ((quoteLiteral last).toList ++ rest))) := by
    simp
  have hn : (keys ++ [last]).length + n = keys.length + (n + 1) := by
    rw [List.length_append, List.length_singleton]; omega
  rw [hs, readAccessor, behind?_append, Option.map_some, hn, readHops_arrows keys (by simp), readHops,
    readHop_textArrow last h]
  simp

/-- Texts that are read back are as different as their keys. -/
theorem ReadsBack.inj {base text : String} {keys others : List String}
    (h : ReadsBack base text keys) (h' : ReadsBack base text others) : keys = others := by
  have hk := h [] (by simp) others.length
  have ho := h' [] (by simp) keys.length
  have hnone : ∀ n, readHops n [] = ([], []) := fun n => readHops_none rfl n
  rw [hnone] at hk ho
  rw [Nat.add_comm, hk] at ho
  simpa using ho

namespace Resolver

variable {r : Resolver} {path : String}

/-- The operand is an accessor of the path, as JSON or as text. -/
def IsAccessor (r : Resolver) (path : String) (e : Operand) : Prop :=
  r.operand path = .ok e ∨ r.textOperand path = .ok e

/-- What the accessors of a path are. -/
structure Accessors (r : Resolver) (path : String) (keys : List String) (last : String) : Prop where
  /-- The keys with points between them are the path. -/
  joined : ".".intercalate (keys ++ [last]) = path
  /-- No key is empty, and there is no point in one. -/
  between : ∀ key ∈ keys ++ [last], key ≠ "" ∧ '.' ∉ key.toList
  /-- The path is split before its last key. -/
  split : splitParent path = .ok (keys, last)
  /-- The accessor is that of the parent with one more arrow. -/
  json : ∃ e, r.operand path = .ok e ∧
    e.text = r.base ++ arrows keys ++ "->" ++ quoteLiteral last
  /-- So is the accessor as text, with an arrow of the other kind. -/
  text : ∃ e, r.textOperand path = .ok e ∧
    e.text = r.base ++ arrows keys ++ "->>" ++ quoteLiteral last
  /-- All of them give their keys back. -/
  parentRead : ReadsBack r.base (r.base ++ arrows keys) keys
  read : ∀ e, r.IsAccessor path e → ReadsBack r.base e.text (keys ++ [last])

theorem arrows_append (keys : List String) (last : String) :
    arrows (keys ++ [last]) = arrows keys ++ "->" ++ quoteLiteral last := by
  induction keys with
  | nil => simp [arrows]
  | cons key keys ih => simp [arrows, ih, String.append_assoc]

/-- A path with keys, none of which is empty, has accessors. -/
theorem accessors_of_keys (hp : r.isPromoted path = false) (hne : path ≠ "")
    (hkeys : "" ∉ Text.split '.' path) : ∃ keys last, r.Accessors path keys last := by
  have hnil := Text.split_ne_nil '.' path
  set keys := (Text.split '.' path).dropLast
  set last := (Text.split '.' path).getLast hnil
  have hall : Text.split '.' path = keys ++ [last] := (List.dropLast_concat_getLast hnil).symm
  have hsegments : segments path = .ok (keys ++ [last]) := by
    rw [segments_eq, if_neg hne, if_neg hkeys, hall]
  have hoperand : r.operand path = .ok (.json r.base (keys ++ [last])) := by
    rw [operand, hp, hsegments]
    rfl
  have htext : r.textOperand path = .ok (.jsonText r.base keys last) := by
    rw [textOperand, hp, splitParent_eq hsegments]
    rfl
  refine ⟨keys, last, ?_, ?_, splitParent_eq hsegments, ⟨_, hoperand, ?_⟩, ⟨_, htext, rfl⟩,
    readsBack_arrows r.base keys, ?_⟩
  · rw [← hall]
    exact Text.intercalate_split '.' path
  · intro key hkey
    rw [← hall] at hkey
    exact ⟨fun he => hkeys (he ▸ hkey), Text.mark_notMem_split hkey⟩
  · rw [Operand.text, arrows_append]
    simp only [String.append_assoc]
  · rintro e (he | he)
    · cases hoperand.symm.trans he
      exact readsBack_arrows r.base (keys ++ [last])
    · cases htext.symm.trans he
      exact readsBack_textArrow r.base keys last

/-- Any other path is refused in every way to an accessor, and for one cause. -/
theorem refused_of_keys (hp : r.isPromoted path = false)
    (h : path = "" ∨ "" ∈ Text.split '.' path) :
    ∃ c, c.report.category = .invalidArgument ∧ r.operand path = .error c ∧
      r.textOperand path = .error c ∧ splitParent path = .error c := by
  obtain ⟨c, hcategory, hc⟩ : ∃ c, c.report.category = .invalidArgument ∧
      segments path = .error c := by
    by_cases he : path = ""
    · exact ⟨.emptyPath, rfl, segments_error_iff.2 (.inl ⟨he, rfl⟩)⟩
    · exact ⟨.emptySegment path, rfl, segments_error_iff.2 (.inr ⟨he, h.resolve_left he, rfl⟩)⟩
  have hoperand : r.operand path = .error c := by
    rw [operand, hp, hc]
    rfl
  exact ⟨c, hcategory, hoperand, textOperand_error hoperand, splitParent_error hc⟩

/-- A path with an accessor has keys. -/
theorem IsAccessor.accessors {e : Operand} (hp : r.isPromoted path = false)
    (h : r.IsAccessor path e) : ∃ keys last, r.Accessors path keys last := by
  by_cases hbad : path = "" ∨ "" ∈ Text.split '.' path
  · obtain ⟨c, -, hoperand, htext, -⟩ := refused_of_keys hp hbad
    rcases h with h | h
    · cases hoperand.symm.trans h
    · cases htext.symm.trans h
  · exact accessors_of_keys hp (fun he => hbad (.inl he)) fun hmem => hbad (.inr hmem)

/-- **A path that is not promoted has accessors exactly if it has keys and none of them is empty.**
Otherwise all ways to one are refused, and for one cause. Accessors are read back as the keys of
their path, so that no key is taken for SQL, and those of different paths are different. -/
theorem accessors_safe (r : Resolver) (path : String) (hp : r.isPromoted path = false) :
    (path ≠ "" ∧ "" ∉ Text.split '.' path → ∃ keys last, r.Accessors path keys last) ∧
    (path = "" ∨ "" ∈ Text.split '.' path → ∃ c, c.report.category = .invalidArgument ∧
      r.operand path = .error c ∧ r.textOperand path = .error c ∧ splitParent path = .error c) ∧
    ∀ other e e', r.isPromoted other = false → r.IsAccessor path e → r.IsAccessor other e' →
      e.text = e'.text → path = other := by
  refine ⟨fun h => accessors_of_keys hp h.1 h.2, refused_of_keys hp, ?_⟩
  intro other e e' hp' he he' htext
  obtain ⟨keys, last, h⟩ := he.accessors hp
  obtain ⟨keys', last', h'⟩ := he'.accessors hp'
  have hread := h'.read e' he'
  rw [← htext] at hread
  rw [← h.joined, ← h'.joined, (h.read e he).inj hread]

/-- A path whose keys look like the end of a literal, an accessor and a condition. -/
theorem accessors_safe_quoted :
    let r : Resolver := { promote := true, base := "body" }
    let path := "it's'.'->'x' = 1 OR '"
    let text := "body->'it''s'''->'''->''x'' = 1 OR '''"
    r.isPromoted path = false ∧ path ≠ "" ∧ "" ∉ Text.split '.' path ∧
      (∃ e, r.operand path = .ok e ∧ e.text = text) ∧
      ReadsBack "body" text ["it's'", "'->'x' = 1 OR '"] := by
  intro r path text
  have hp : r.isPromoted path = false := by decide
  have hkeys : path ≠ "" ∧ "" ∉ Text.split '.' path := by decide
  have hsegments : segments "it's'.'->'x' = 1 OR '" = .ok (["it's'"] ++ ["'->'x' = 1 OR '"]) := rfl
  have he : r.operand path = .ok (.json "body" ["it's'", "'->'x' = 1 OR '"]) := by
    rw [operand, hp, hsegments]
    rfl
  have htext : (Operand.json "body" ["it's'", "'->'x' = 1 OR '"]).text = text := rfl
  obtain ⟨keys, last, h⟩ := (accessors_safe r path hp).1 hkeys
  have hread := h.read _ (.inl he)
  cases h.split.symm.trans (splitParent_eq hsegments)
  rw [htext] at hread
  exact ⟨hp, hkeys.1, hkeys.2, ⟨_, he, htext⟩, hread⟩

end Resolver

end Docbase
