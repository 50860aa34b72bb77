import Mathlib.Data.List.Nodup
import Mathlib.Tactic.Tauto
import Docbase.Proofs.Json.Numbers
import Docbase.Proofs.Json.RoundTrip

/-!
# Names in JSON text

Whether an object in a text has a name twice can be seen from the text alone, read from its front to
its back: a string with a colon behind it is a name, and braces open and close the object that it is
in. What is written for a value has a name twice where two keys of one of its mappings are written
alike.

* `marks?`: the names and braces of a text, strings being read as a whole.
* `Apart`, `NamesApart`: no object has a name twice.
* `marked_encode`: the marks of what is written for a value are those of the value.
* `Clashing`: two keys of a mapping somewhere in a value are written alike.
* `namesApart_iff`: **the text of a value has all names apart exactly if no keys in it are written
  alike**.
* `alike_cases`: different keys are written alike only if one of them is a text and the other is not,
  or if both are real numbers; `not_clashing_of_texts`: texts never are.
-/

namespace Docbase.Json

/-! ## Marks -/

/-- What matters of a JSON text for its names. -/
inductive Mark
  | opened
  | closed
  | name (cs : List Char)

/-- Behind some blanks comes a colon. -/
def colonNext (rest : List Char) : Bool := (skipBlanks rest).head? == some ':'

theorem prepend_eq_ok {c : Char} {x : Except Fault (List Char × List Char)}
    {cs rest : List Char} (h : prepend c x = .ok (cs, rest)) : ∃ tail, x = .ok (tail, rest) := by
  unfold prepend at h
  cases x with
  | error e => cases h
  | ok p =>
    cases h
    exact ⟨p.1, rfl⟩

/-- Behind a string less is left than before it. -/
theorem stringBody_length {cs name rest : List Char} (h : stringBody cs = .ok (name, rest)) :
    rest.length < cs.length := by
  fun_induction stringBody cs generalizing name with
  | case1 =>
    cases h
    simp
  | case3 | case8 | case9 | case12 =>
    -- a character was read, and the string goes on behind it
    rename_i ih
    obtain ⟨tail, htail⟩ := prepend_eq_ok h
    have hlt := ih htail
    simp only [List.length_cons]
    omega
  | _ => cases h

/-- The marks of a text, from the front to the back. -/
def marks? : List Char → Option (List Mark)
  | [] => some []
  | '\x7b' :: rest => (marks? rest).map (.opened :: ·)
  | '\x7d' :: rest => (marks? rest).map (.closed :: ·)
  -- a string is passed as a whole, so a brace in it is none
  | '"' :: rest =>
    match _h : stringBody rest with
    | .error _ => none
    | .ok (name, rest') =>
      if colonNext rest' then (marks? rest').map (.name name :: ·) else marks? rest'
  | _ :: rest => marks? rest
termination_by cs => cs.length
decreasing_by
  · simp
  · simp
  · have := stringBody_length _h
    simp
    omega
  · have := stringBody_length _h
    simp
    omega
  · simp

/-- No object has a name twice. The names so far are kept for each object that is open. -/
def Apart : List (List (List Char)) → List Mark → Prop
  | _, [] => True
  | objects, .opened :: ms => Apart ([] :: objects) ms
  | objects, .closed :: ms => Apart objects.tail ms
  | [], .name _ :: _ => False
  | names :: objects, .name n :: ms => n ∉ names ∧ Apart ((n :: names) :: objects) ms

/-- **No object in the text has a name twice.** -/
def NamesApart (text : String) : Prop := ∃ ms, marks? text.toList = some ms ∧ Apart [] ms

/-! ## Texts without marks -/

/-- The character is no brace, and opens no string. -/
def Plain (c : Char) : Prop := c ≠ '"' ∧ c ≠ '\x7b' ∧ c ≠ '\x7d'

instance (c : Char) : Decidable (Plain c) := inferInstanceAs (Decidable (_ ∧ _ ∧ _))

theorem marks?_cons {c : Char} (h : Plain c) (rest : List Char) :
    marks? (c :: rest) = marks? rest := by
  obtain ⟨hquote, hopen, hclose⟩ := h
  rw [marks?]
  · exact hopen
  · exact hclose
  · exact hquote

theorem marks?_plain {cs : List Char} (h : ∀ c ∈ cs, Plain c) (rest : List Char) :
    marks? (cs ++ rest) = marks? rest := by
  induction cs with
  | nil => rfl
  | cons c cs ih =>
    rw [List.cons_append, marks?_cons (h c List.mem_cons_self),
      ih fun d hd => h d (List.mem_cons_of_mem c hd)]

theorem plain_of_isDigit {c : Char} (h : c.isDigit = true) : Plain c :=
  ⟨ne_of_isDigit h (by decide), ne_of_isDigit h (by decide), ne_of_isDigit h (by decide)⟩

theorem plain_numbers : OfNumbers Plain where
  digit _ := plain_of_isDigit
  sign := by decide
  point := by decide
  exponent := by decide

/-! ## The marks of a value -/

/-- The name written for a key. A value with a key that has none has no text. -/
def writtenName (k : Key) : List Char := (memberName k).toOption.getD []

mutual

/-- The marks of a value. -/
def marksOf : Value → List Mark
  | .list vs | .tuple vs => marksOfItems vs
  | .mapping es => .opened :: (marksOfMembers es ++ [.closed])
  | _ => []

/-- The marks of values. -/
def marksOfItems : List Value → List Mark
  | [] => []
  | v :: vs => marksOf v ++ marksOfItems vs

/-- The marks of members. -/
def marksOfMembers : List (Key × Value) → List Mark
  | [] => []
  | (k, v) :: es => .name (writtenName k) :: (marksOf v ++ marksOfMembers es)

end

/-- Where the text stands, its marks are read, and then those of the rest. -/
def Marked (text : List Char) (ms : List Mark) : Prop :=
  ∀ rest, Ends rest → marks? (text ++ rest) = (marks? rest).map (ms ++ ·)

theorem colonNext_ends {rest : List Char} (h : Ends rest) : colonNext rest = false := by
  cases rest with
  | nil => rfl
  | cons c tail => obtain rfl | rfl | rfl := h c tail rfl <;> rfl

/-- A string is a name if there is a colon behind it. -/
theorem marks?_string (cs rest : List Char) : marks? (stringChars cs ++ rest) =
    if colonNext rest then (marks? rest).map (.name cs :: ·) else marks? rest := by
  have hbody : stringChars cs ++ rest = '"' :: (cs.flatMap escapeChar ++ '"' :: rest) := by
    simp [stringChars]
  rw [hbody, marks?]
  split
  · rename_i e h
    rw [stringBody_flatMap] at h
    cases h
  · rename_i name rest' h
    rw [stringBody_flatMap] at h
    cases h
    rfl

namespace Marked

variable {text : List Char} {ms ns : List Mark}

theorem ofPlain (h : ∀ c ∈ text, Plain c) : Marked text [] := by
  intro rest _
  rw [marks?_plain h]
  simp

theorem string (cs : List Char) : Marked (stringChars cs) [] := by
  intro rest hrest
  rw [marks?_string, colonNext_ends hrest]
  simp

theorem member (name : List Char) (h : Marked text ms) :
    Marked (stringChars name ++ ':' :: ' ' :: text) (.name name :: ms) := by
  intro rest hrest
  have hcolon : colonNext (':' :: ' ' :: (text ++ rest)) = true := rfl
  rw [List.append_assoc, List.cons_append, List.cons_append, marks?_string, hcolon, if_pos rfl,
    marks?_cons (by decide), marks?_cons (by decide), h rest hrest, Option.map_map]
  rfl

/-- A first item, with a comma behind it if there are others. -/
theorem joined_cons {texts : List (List Char)} (h : Marked text ms)
    (htexts : Marked (joined texts) ns) : Marked (joined (text :: texts)) (ms ++ ns) := by
  intro rest hrest
  have happend : (marks? rest).map (ms ++ ns ++ ·) = ((marks? rest).map (ns ++ ·)).map (ms ++ ·) := by
    simp [Function.comp_def]
  rw [happend, ← htexts rest hrest]
  -- without other items there is no comma, and then they have no marks either
  by_cases hnil : texts = []
  · rw [hnil]
    exact h rest hrest
  · rw [Json.joined_cons text hnil, List.append_assoc, List.cons_append, List.cons_append,
      h _ (ends_cons (.inl rfl)), marks?_cons (by decide), marks?_cons (by decide)]

theorem list (h : Marked text ms) : Marked ('[' :: (text ++ [']'])) ms := by
  intro rest _
  rw [List.cons_append, marks?_cons (by decide), List.append_assoc, List.singleton_append,
    h _ (ends_cons (.inr (.inl rfl))), marks?_cons (by decide)]

theorem mapping (h : Marked text ms) :
    Marked ('\x7b' :: (text ++ ['\x7d'])) (.opened :: (ms ++ [.closed])) := by
  intro rest _
  rw [List.cons_append, marks?, List.append_assoc, List.singleton_append,
    h _ (ends_cons (.inr (.inr rfl))), marks?]
  simp [Function.comp_def]

end Marked

mutual

/-- **The marks of what is written for a value are those of the value.** -/
theorem marked_encode : ∀ {v : Value} {text : List Char}, encodeChars v = .ok text →
    Marked text (marksOf v)
  | .null, _, h => by
    cases h
    exact .ofPlain (by simp [Plain])
  | .bool b, _, h => by
    cases h
    exact .ofPlain (by cases b <;> simp [Plain])
  | .int i, _, h => by
    rw [encodeChars, wholeChars_eq_ok] at h
    rw [← h.2]
    exact .ofPlain (all_int (fun _ => plain_of_isDigit) (by decide) i)
  | .float x, _, h => by
    cases h
    exact .ofPlain (plain_numbers.number (by simp [All, Plain]) (by simp [All, Plain]) x)
  | .str s, _, h => by
    cases h
    exact .string _
  | .list vs, _, h | .tuple vs, _, h => by
    rw [encodeChars, bind_eq_ok] at h
    obtain ⟨texts, htexts, h⟩ := h
    cases h
    exact (marked_items htexts).list
  | .mapping es, _, h => by
    rw [encodeChars, bind_eq_ok] at h
    obtain ⟨texts, htexts, h⟩ := h
    cases h
    exact (marked_members htexts).mapping
  | .bytes _, _, h | .uuid _, _, h | .node .., _, h => by cases h

theorem marked_items : ∀ {vs : List Value} {texts : List (List Char)},
    encodeItems vs = .ok texts → Marked (joined texts) (marksOfItems vs)
  | [], _, h => by
    cases h
    exact .ofPlain (by simp [joined])
  | v :: vs, _, h => by
    simp only [encodeItems, bind_eq_ok] at h
    obtain ⟨text, htext, texts, htexts, h⟩ := h
    cases h
    exact (marked_encode htext).joined_cons (marked_items htexts)

theorem marked_members : ∀ {es : Entries} {texts : List (List Char)},
    encodeMembers es = .ok texts → Marked (joined texts) (marksOfMembers es)
  | [], _, h => by
    cases h
    exact .ofPlain (by simp [joined])
  | (k, v) :: es, _, h => by
    simp only [encodeMembers, bind_eq_ok] at h
    obtain ⟨name, hname, text, htext, texts, htexts, h⟩ := h
    cases h
    have hwritten : writtenName k = name := by rw [writtenName, hname]; rfl
    rw [marksOfMembers, hwritten]
    exact ((marked_encode htext).member name).joined_cons (marked_members htexts)

end

/-! ## Keys that are written alike -/

/-- The first value stands in the second one, or is it. -/
inductive Inside : Value → Value → Prop
  | self (v : Value) : Inside v v
  | listed {vs : List Value} {v w : Value} : v ∈ vs → Inside w v → Inside w (.list vs)
  | tupled {vs : List Value} {v w : Value} : v ∈ vs → Inside w v → Inside w (.tuple vs)
  | member {es : Entries} {k : Key} {v w : Value} :
      (k, v) ∈ es → Inside w v → Inside w (.mapping es)

/-- No two keys of some members are written alike. -/
def KeysApart (es : Entries) : Prop := (es.map fun e => writtenName e.1).Nodup

instance (es : Entries) : Decidable (KeysApart es) := inferInstanceAs (Decidable (List.Nodup _))

/-- Somewhere in the value is a mapping with two keys that are written alike. -/
def Clashing (v : Value) : Prop := ∃ es, Inside (.mapping es) v ∧ ¬ KeysApart es

theorem clashing_str (s : String) : ¬ Clashing (.str s) := nofun

theorem clashing_list {vs : List Value} : Clashing (.list vs) ↔ ∃ v ∈ vs, Clashing v := by
  constructor
  · rintro ⟨es, _ | ⟨hv, hinside⟩, hkeys⟩
    exact ⟨_, hv, es, hinside, hkeys⟩
  · rintro ⟨v, hv, es, hinside, hkeys⟩
    exact ⟨es, .listed hv hinside, hkeys⟩

theorem clashing_tuple {vs : List Value} : Clashing (.tuple vs) ↔ ∃ v ∈ vs, Clashing v := by
  constructor
  · rintro ⟨es, _ | _ | ⟨hv, hinside⟩, hkeys⟩
    exact ⟨_, hv, es, hinside, hkeys⟩
  · rintro ⟨v, hv, es, hinside, hkeys⟩
    exact ⟨es, .tupled hv hinside, hkeys⟩

theorem clashing_mapping {es : Entries} :
    Clashing (.mapping es) ↔ ¬ KeysApart es ∨ ∃ e ∈ es, Clashing e.2 := by
  constructor
  · rintro ⟨inner, _ | _ | _ | ⟨he, hinside⟩, hkeys⟩
    · exact .inl hkeys
    · exact .inr ⟨_, he, inner, hinside, hkeys⟩
  · rintro (hkeys | ⟨e, he, inner, hinside, hkeys⟩)
    · exact ⟨es, .self _, hkeys⟩
    · exact ⟨inner, .member he hinside, hkeys⟩

mutual

/-- The marks of a value leave the objects around it as they are. -/
theorem apart_marksOf : ∀ (v : Value) (objects : List (List (List Char))) (ms : List Mark),
    Apart objects (marksOf v ++ ms) ↔ ¬ Clashing v ∧ Apart objects ms
  | .list vs, objects, ms => by
    rw [marksOf, apart_items vs objects ms, clashing_list]
    simp
  | .tuple vs, objects, ms => by
    rw [marksOf, apart_items vs objects ms, clashing_tuple]
    simp
  | .mapping es, objects, ms => by
    rw [marksOf, List.cons_append, List.append_assoc, List.singleton_append, Apart,
      apart_members es [] objects ms, clashing_mapping]
    simp [and_assoc]
  | .null, objects, ms | .bool _, objects, ms | .int _, objects, ms | .float _, objects, ms
  | .str _, objects, ms | .bytes _, objects, ms | .uuid _, objects, ms | .node .., objects, ms =>
    (and_iff_right nofun).symm

theorem apart_items : ∀ (vs : List Value) (objects : List (List (List Char))) (ms : List Mark),
    Apart objects (marksOfItems vs ++ ms) ↔ (∀ v ∈ vs, ¬ Clashing v) ∧ Apart objects ms
  | [], objects, ms => by simp [marksOfItems]
  | v :: vs, objects, ms => by
    rw [marksOfItems, List.append_assoc, apart_marksOf v, apart_items vs, List.forall_mem_cons,
      and_assoc]

/-- Members, up to the brace that closes their object. -/
theorem apart_members : ∀ (es : Entries) (names : List (List Char))
    (objects : List (List (List Char))) (ms : List Mark),
    Apart (names :: objects) (marksOfMembers es ++ .closed :: ms) ↔
      (KeysApart es ∧ (∀ e ∈ es, writtenName e.1 ∉ names) ∧ ∀ e ∈ es, ¬ Clashing e.2) ∧
        Apart objects ms
  | [], names, objects, ms => by simp [marksOfMembers, Apart, KeysApart]
  | (k, v) :: es, names, objects, ms => by
    rw [marksOfMembers, List.cons_append, Apart, List.append_assoc, apart_marksOf v,
      apart_members es, KeysApart, KeysApart, List.map_cons, List.nodup_cons, List.forall_mem_cons,
      List.forall_mem_cons]
    simp only [List.mem_map, List.mem_cons, not_or, not_exists, not_and]
    -- that the first name does not come again is said once of it and once of the later ones
    constructor
    · rintro ⟨hk, hv, ⟨hnodup, hnames, hes⟩, hms⟩
      exact ⟨⟨⟨fun e he h => (hnames e he).1 h, hnodup⟩, ⟨hk, fun e he => (hnames e he).2⟩, hv,
        hes⟩, hms⟩
    · rintro ⟨⟨⟨hfresh, hnodup⟩, ⟨hk, hnames⟩, hv, hes⟩, hms⟩
      exact ⟨hk, hv, ⟨hnodup, fun e he => ⟨fun h => hfresh e he h, hnames e he⟩, hes⟩, hms⟩

end

/-- **The text of a value has all names apart exactly if no keys in the value are written alike.** -/
theorem namesApart_iff {v : Value} {text : String} (h : encode v = .ok text) :
    NamesApart text ↔ ¬ Clashing v := by
  obtain ⟨cs, hcs, rfl⟩ := map_eq_ok.1 h
  have hmarks := marked_encode hcs [] ends_nil
  rw [List.append_nil, marks?, Option.map_some, List.append_nil] at hmarks
  have hmarked := apart_marksOf v [] []
  rw [List.append_nil] at hmarked
  unfold NamesApart
  rw [String.toList_ofList, hmarks]
  simp [hmarked, Apart]

/-! ## Which keys are written alike -/

/-- The key is a text. -/
def IsText (k : Key) : Prop := ∃ s, k = .str s

/-- The key is a real number. -/
def IsReal (k : Key) : Prop := ∃ x, k = .float x

/-- The character stands in a word, and in no number. -/
def OfWord (c : Char) : Prop := c = 'l' ∨ c = 'u'

theorem not_ofWord_of_isDigit {c : Char} (h : c.isDigit = true) : ¬ OfWord c := by
  rintro (rfl | rfl) <;> cases h

theorem wordless_numbers : OfNumbers fun c => ¬ OfWord c where
  digit _ := not_ofWord_of_isDigit
  sign := ⟨by simp [OfWord], by simp [OfWord]⟩
  point := by simp [OfWord]
  exponent := by simp [OfWord]

/-- The key is one of the words of JSON, and is written as it. -/
def WordKey (k : Key) (n : List Char) : Prop :=
  (k = .null ∧ n = "null".toList) ∨ (k = .bool true ∧ n = "true".toList) ∨
    (k = .bool false ∧ n = "false".toList)

/-- How a key that is no text is written: as a word, as a whole number, or as a real one. -/
inductive Spelled : Key → List Char → Prop
  | word {k : Key} {n : List Char} (hk : WordKey k n) (hword : ∃ c ∈ n, OfWord c) : Spelled k n
  | int {i : Int} {n : List Char} (hn : (toString i).toList = n) (hword : ∀ c ∈ n, ¬ OfWord c)
      (hwhole : ∀ c ∈ n, OfWhole c) : Spelled (.int i) n
  | float {x : Binary64} {n : List Char} (hword : ∀ c ∈ n, ¬ OfWord c)
      (hwhole : ∃ c ∈ n, ¬ OfWhole c) : Spelled (.float x) n

theorem spelled {k : Key} {n : List Char} (h : memberName k = .ok n) (hk : ¬ IsText k) :
    Spelled k n := by
  cases k with
  | null =>
    cases h
    exact .word (.inl ⟨rfl, rfl⟩) ⟨'u', by decide, .inr rfl⟩
  | bool b =>
    cases h
    cases b with
    | true => exact .word (.inr (.inl ⟨rfl, rfl⟩)) ⟨'u', by decide, .inr rfl⟩
    | false => exact .word (.inr (.inr ⟨rfl, rfl⟩)) ⟨'l', by decide, .inl rfl⟩
  | int i =>
    obtain ⟨-, rfl⟩ := wholeChars_eq_ok.1 h
    exact .int rfl (all_int (fun _ => not_ofWord_of_isDigit) (by simp [OfWord]) i)
      (all_int (fun _ => .inl) (.inr rfl) i)
  | float x =>
    cases h
    exact .float (wordless_numbers.number (by simp [All, OfWord]) (by simp [All, OfWord]) x)
      (number_mark x)
  | str s => exact absurd ⟨s, rfl⟩ hk
  | bytes | uuid | tuple => cases h

/-- The words are different. -/
theorem WordKey.unique {a b : Key} {n : List Char} (ha : WordKey a n) (hb : WordKey b n) :
    a = b := by
  rcases ha with ⟨rfl, rfl⟩ | ⟨rfl, rfl⟩ | ⟨rfl, rfl⟩ <;>
    rcases hb with ⟨rfl, hn⟩ | ⟨rfl, hn⟩ | ⟨rfl, hn⟩ <;> first | rfl | simp at hn

/-- A whole number is found again in its text. -/
theorem toString_int_injective {i j : Int} (h : (toString i).toList = (toString j).toList) :
    i = j := by
  -- the reader gives back the number, and has nothing but the text to go by
  have hread : ∀ k : Int, scalar none ((toString k).toList ++ []) = .ok (.int k, []) :=
    fun k => scalar_int k nofun ends_nil
  have hi := hread i
  rw [h, hread j] at hi
  cases hi
  rfl

theorem Spelled.cases {a b : Key} {n : List Char} (ha : Spelled a n) (hb : Spelled b n) :
    a = b ∨ (IsReal a ∧ IsReal b) := by
  cases ha with
  | word hka hwa =>
    obtain ⟨c, hc, hword⟩ := hwa
    cases hb with
    | word hkb => exact .inl (hka.unique hkb)
    | int _ hnone | float hnone => exact absurd hword (hnone c hc)
  | int hna hnone hwhole =>
    cases hb with
    | word _ hwb =>
      obtain ⟨c, hc, hword⟩ := hwb
      exact absurd hword (hnone c hc)
    | int hnb => exact .inl (congrArg Key.int (toString_int_injective (hna.trans hnb.symm)))
    | float _ hmark =>
      obtain ⟨c, hc, hno⟩ := hmark
      exact absurd (hwhole c hc) hno
  | float hnone hmark =>
    cases hb with
    | word _ hwb =>
      obtain ⟨c, hc, hword⟩ := hwb
      exact absurd hword (hnone c hc)
    | int _ _ hwhole =>
      obtain ⟨c, hc, hno⟩ := hmark
      exact absurd (hwhole c hc) hno
    | float => exact .inr ⟨⟨_, rfl⟩, ⟨_, rfl⟩⟩

/-- **Two keys are written alike** only if one of them is a text and the other is not, or if both are
real numbers, or if they are the same key. -/
theorem alike_cases {a b : Key} {n : List Char} (ha : memberName a = .ok n)
    (hb : memberName b = .ok n) : a = b ∨ (IsText a ↔ ¬ IsText b) ∨ (IsReal a ∧ IsReal b) := by
  by_cases hta : IsText a
  · by_cases htb : IsText b
    · obtain ⟨s, rfl⟩ := hta
      obtain ⟨t, rfl⟩ := htb
      cases ha
      have htexts : t.toList = s.toList := Except.ok.inj hb
      rw [String.toList_inj.1 htexts]
      exact .inl rfl
    · exact .inr (.inl (iff_of_true hta htb))
  · by_cases htb : IsText b
    · exact .inr (.inl (iff_of_false hta (not_not_intro htb)))
    · exact ((spelled ha hta).cases (spelled hb htb)).imp_right .inr

/-- Keys of one kind: different texts, or different keys of which none is a text and only one is a
real number. -/
theorem keysApart_of {es : Entries} (hnodup : (Entries.names es).Nodup)
    (hnames : ∀ k ∈ Entries.names es, ∃ n, memberName k = .ok n)
    (htexts : ∀ a ∈ Entries.names es, ∀ b ∈ Entries.names es, IsText a → IsText b)
    (hreals : ∀ a ∈ Entries.names es, ∀ b ∈ Entries.names es, IsReal a → IsReal b → a = b) :
    KeysApart es := by
  have hwritten : es.map (fun e => writtenName e.1) = (Entries.names es).map writtenName := by
    rw [Entries.names, List.map_map]
    rfl
  rw [KeysApart, hwritten]
  refine hnodup.map_on fun a ha b hb halike => ?_
  obtain ⟨n, hn⟩ := hnames a ha
  obtain ⟨m, hm⟩ := hnames b hb
  have hmn : n = m := by rwa [writtenName, writtenName, hn, hm] at halike
  rcases alike_cases hn (hmn ▸ hm) with h | h | ⟨hra, hrb⟩
  · exact h
  · have hab := htexts a ha b hb
    have hba := htexts b hb a ha
    -- with one text among the keys all of them are
    tauto
  · exact hreals a ha b hb hra hrb

/-- **A value whose mappings have different texts as their keys has no keys that are written alike.** -/
theorem not_clashing_of_texts {v : Value} (h : ∀ es, Inside (.mapping es) v →
    (Entries.names es).Nodup ∧ ∀ k ∈ Entries.names es, IsText k) : ¬ Clashing v := by
  rintro ⟨es, hinside, hkeys⟩
  obtain ⟨hnodup, htexts⟩ := h es hinside
  refine hkeys (keysApart_of hnodup ?_ (fun _ _ b hb _ => htexts b hb) ?_)
  · intro k hk
    obtain ⟨s, rfl⟩ := htexts k hk
    exact ⟨s.toList, rfl⟩
  · intro a ha b hb hreal
    obtain ⟨s, rfl⟩ := htexts a ha
    obtain ⟨x, hx⟩ := hreal
    cases hx

end Docbase.Json
