import Docbase.Proofs.Field
import Docbase.Proofs.Json.RoundTrip

/-!
# Plain values

The values that JSON was made for: null, truth values, whole numbers and texts, and lists and objects
of such values. What is written of one of them comes back from the database unchanged, whether the
driver hands the text over as text or as bytes.

* `Value.Plain`: plain values. The members of an object have an order, and no two of them one name.
* `Value.Plain.datum`: a plain value says something in JSON.
* `Json.plain_read_back`: **a plain value is read back as it was written**, and no other plain value
  has its text.
-/

namespace Docbase

/-- A value made of null, truth values, whole numbers, texts, lists and objects. -/
inductive Value.Plain : Value → Prop
  | null : Plain .null
  | bool (b : Bool) : Plain (.bool b)
  | int (i : Int) : Plain (.int i)
  | str (s : String) : Plain (.str s)
  | list {vs : List Value} : (∀ v ∈ vs, Plain v) → Plain (.list vs)
  | object {members : List (String × Value)} : (members.map (·.1)).Nodup →
      (∀ m ∈ members, Plain m.2) → Plain (.object members)

namespace Value

/-- Items that say something make up a list that does. -/
theorem exists_datums {vs : List Value} (h : ∀ v ∈ vs, ∃ d, v.datum? = some d) :
    ∃ items, datums? vs = some items := by
  induction vs with
  | nil => exact ⟨[], rfl⟩
  | cons v vs ih =>
    obtain ⟨d, hd⟩ := h v List.mem_cons_self
    obtain ⟨items, hitems⟩ := ih fun w hw => h w (List.mem_cons_of_mem v hw)
    exact ⟨d :: items, by rw [datums?, hd, hitems]; rfl⟩

/-- Members of different names that say something make up an object. -/
theorem exists_object {members : List (String × Value)} (hnames : (members.map (·.1)).Nodup)
    (h : ∀ m ∈ members, ∃ d, m.2.datum? = some d) :
    ∃ o, object? (members.map fun m => (Key.str m.1, m.2)) = some o := by
  induction members with
  | nil => exact ⟨_, rfl⟩
  | cons m members ih =>
    rw [List.map_cons, List.nodup_cons] at hnames
    obtain ⟨d, hd⟩ := h m List.mem_cons_self
    obtain ⟨o, ho⟩ := ih hnames.2 fun n hn => h n (List.mem_cons_of_mem m hn)
    -- the name is new, so that the member is added to the object of the others
    have hfresh : o m.1 = none := by
      rw [object?_none ho, Entries.names, List.map_map]
      intro hmem
      obtain ⟨n, hn, hname⟩ := List.mem_map.1 hmem
      have hname : n.1 = m.1 := Key.str.inj hname
      exact hnames.1 (hname ▸ List.mem_map_of_mem hn)
    exact ⟨_, object?_intro ho hd hfresh⟩

/-- A plain value says something in JSON. -/
theorem Plain.datum {v : Value} (h : v.Plain) : ∃ d, v.datum? = some d := by
  induction h with
  | null => exact ⟨_, rfl⟩
  | bool b => exact ⟨_, rfl⟩
  | int i => exact ⟨_, rfl⟩
  | str s => exact ⟨_, rfl⟩
  | list _ ih =>
    obtain ⟨items, hitems⟩ := exists_datums ih
    exact ⟨.list items, by rw [datum?, hitems]; rfl⟩
  | object hnames _ ih =>
    obtain ⟨o, ho⟩ := exists_object hnames ih
    exact ⟨.object o, by rw [Value.object, datum?, ho]; rfl⟩

end Value

namespace Json

/-- A text is found again in its bytes. -/
theorem utf8Text_toUTF8 (s : String) : Input.utf8Text? s.toUTF8.data.toList = some s := by
  have hbytes : (⟨s.toUTF8.data.toList.toArray⟩ : ByteArray) = s.toByteArray := rfl
  rw [Input.utf8Text?, hbytes, String.fromUTF8?, dif_pos s.isValidUTF8]
  rfl

/-- A text and its bytes are read alike. -/
theorem decodeColumn_bytes (s : String) :
    decodeColumn (.bytes s.toUTF8.data.toList) = decodeColumn (.str s) := by
  simp only [decodeColumn, utf8Text_toUTF8]

/-- Two plain values with one text are the same. -/
theorem encode_injective {v w : Value} {text : String} (hv : v.Plain) (hw : w.Plain)
    (h : encode v = .ok text) (h' : encode w = .ok text) : v = w := by
  obtain ⟨_, hd⟩ := hv.datum
  obtain ⟨_, he⟩ := hw.datum
  -- each of them is what its text is read as
  have hread : decode (some digitLimit) text = .ok v := decode_written covers_digitLimit hd h
  have hread' : decode (some digitLimit) text = .ok w := decode_written covers_digitLimit he h'
  rw [hread] at hread'
  exact Except.ok.inj hread'

/-- **A plain value is read back as it was written**, from its text and from the bytes of the text,
with its members in their order, as long as its whole numbers have no more digits than are written
and read. No other plain value has the same text. -/
theorem plain_read_back {v : Value} (hv : v.Plain) (hfits : fits v = true) :
    ∃ text, Resolver.jsonText v = .ok (.str text) ∧ decodeColumn (.str text) = .ok v ∧
      decodeColumn (.bytes text.toUTF8.data.toList) = .ok v ∧
      ∀ w, w.Plain → Resolver.jsonText w = .ok (.str text) → w = v := by
  obtain ⟨d, hd⟩ := hv.datum
  obtain ⟨text, htext, hread⟩ := decode_encode covers_digitLimit hd hfits
  have hcolumn : decodeColumn (.str text) = .ok v := by rw [decodeColumn, decodeText, hread]
  refine ⟨text, Resolver.jsonText_eq_ok.2 ⟨text, htext, rfl⟩, hcolumn, ?_, fun w hw hwritten => ?_⟩
  · rw [decodeColumn_bytes, hcolumn]
  · obtain ⟨other, hother, hsame⟩ := Resolver.jsonText_eq_ok.1 hwritten
    cases hsame
    exact encode_injective hw hv hother htext

/-- A document whose texts hold the marks of JSON, a control character and a letter beyond ASCII. -/
def quotedDocument : Value :=
  .object [("a\"\\\n: [", .list [.null, .bool true, .int (-12), .object []]),
    ("é", .object [("", .str "\x7b\"x\": 1\x7d,\u2028")])]

theorem plain_quotedDocument : quotedDocument.Plain := by
  refine .object (by decide) fun m hm => ?_
  simp only [List.mem_cons, List.not_mem_nil, or_false] at hm
  rcases hm with rfl | rfl
  · refine .list fun v hv => ?_
    simp only [List.mem_cons, List.not_mem_nil, or_false] at hv
    rcases hv with rfl | rfl | rfl | rfl
    · exact .null
    · exact .bool true
    · exact .int (-12)
    · exact .object List.nodup_nil fun m hm => absurd hm List.not_mem_nil
  · refine .object (by decide) fun m hm => ?_
    cases List.mem_singleton.1 hm
    exact .str _

theorem plain_read_back_quoted :
    quotedDocument.Plain ∧ fits quotedDocument = true ∧
      ∃ text, Resolver.jsonText quotedDocument = .ok (.str text) ∧
        decodeColumn (.str text) = .ok quotedDocument ∧
        decodeColumn (.bytes text.toUTF8.data.toList) = .ok quotedDocument := by
  have hfits : fits quotedDocument = true := by decide +kernel
  obtain ⟨text, hwritten, hread, hbytes, -⟩ := plain_read_back plain_quotedDocument hfits
  exact ⟨plain_quotedDocument, hfits, text, hwritten, hread, hbytes⟩

end Json

end Docbase
