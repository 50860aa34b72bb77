import Docbase.Proofs.Filter.Reading

/-!
# Clauses are unambiguous

The outline of a filter and the values that it binds give the filter back, as far as a database can
tell it from others: values count by their JSON texts, and a set test without values is the same on
every path.

* `Filter.canonical`: the filter as a database can tell it.
* `StandsFor.rebuild`: outline and values give the canonical filter.
* `clause_unambiguous`: **a reader finds every accepted filter in its clause**, so filters with the
  same clause have the same canonical form.
-/

namespace Docbase

open Sql

namespace Filter

/-- A value by its JSON text, if it has one. -/
def jsonForm (v : Value) : Value :=
  match Json.encode v with
  | .ok s => .str s
  | .error _ => v

/-- A filter with the JSON texts of its values; all set tests without values are the same. -/
def canonical : Filter → Filter
  | both a b => .both a.canonical b.canonical
  | either a b => .either a.canonical b.canonical
  | negate inner => .negate inner.canonical
  | compare comparison path value => .compare comparison path (jsonForm value)
  | contains path element => .contains path (jsonForm element)
  | oneOf path values => if values.isEmpty then .idIn [] else .oneOf path (values.map jsonForm)
  | f => f

theorem jsonForm_of_jsonText {v w : Value} (h : Resolver.jsonText v = .ok w) : w = jsonForm v := by
  obtain ⟨text, htext, rfl⟩ := Resolver.jsonText_eq_ok.1 h
  rw [jsonForm, htext]

theorem jsonForm_of_bindValues {path : String} {vs ws : List Value}
    (h : bindValues .plain path vs = .ok ws) : ws = vs.map jsonForm := by
  induction vs generalizing ws with
  | nil => cases h; rfl
  | cons v vs ih =>
    obtain ⟨w, hw, h⟩ := bind_eq_ok.1 h
    obtain ⟨ws', hws, h⟩ := bind_eq_ok.1 h
    cases h
    rw [List.map_cons, ← ih hws, ← jsonForm_of_jsonText hw]

end Filter

/-- The element of a list with one element, by their JSON texts. -/
def elementOf : Value → Value
  | .str s => .str (String.ofList s.toList.tail.dropLast)
  | v => v

theorem elementOf_jsonText {v w : Value} (h : Resolver.jsonText (.list [v]) = .ok w) :
    elementOf w = Filter.jsonForm v := by
  obtain ⟨text, htext, rfl⟩ := Resolver.jsonText_eq_ok.1 h
  obtain ⟨cs, hcs, rfl⟩ := Json.encode_singleton.1 htext
  rw [Filter.jsonForm, Json.encode_eq_ok.2 ⟨cs, hcs, rfl⟩]
  simp [elementOf]

/-! ## Filters from outlines -/

/-- The path of some keys. -/
def pathOf (keys : List String) : String := ".".intercalate keys

/-- The text that a value is. -/
def textOf : Value → String
  | .str s => s
  | _ => ""

/-- A filter or its negation. -/
def negateIf (negated : Bool) (f : Filter) : Filter := if negated then .negate f else f

/-- A test of a field. -/
def testOf (operator : Operator) (path : String) (value : Value) : Filter :=
  match operator with
  | .eq => .compare .equal path value
  | .gt => .compare .greater path value
  | .ge => .compare .atLeast path value
  | .lt => .compare .less path value
  | .le => .compare .atMost path value
  | .like => .like path value
  | .contains => .contains path (elementOf value)

/-- The filter of an outline, with values for the names in it. -/
def Outline.rebuild (value : String → Value) : Outline → Filter
  | both a b => .both (a.rebuild value) (b.rebuild value)
  | either a b => .either (a.rebuild value) (b.rebuild value)
  | negate inner => .negate (inner.rebuild value)
  | test .id _ param => .id (textOf (value param))
  | test (.json keys) operator param | test (.text keys) operator param =>
    testOf operator (pathOf keys) (value param)
  | among .id params negated => negateIf negated (.idIn (params.map fun p => textOf (value p)))
  | among (.json keys) params negated | among (.text keys) params negated =>
    negateIf negated (.oneOf (pathOf keys) (params.map value))
  | present keys => .present (pathOf keys)
  | constant truth => negateIf truth (.idIn [])

theorem pathOf_split (path : String) : pathOf (Text.split '.' path) = path :=
  Text.intercalate_split '.' path

theorem testOf_comparison (comparison : Comparison) (path : String) (value : Value) :
    testOf comparison.operator path value = .compare comparison path value := by
  cases comparison <;> rfl

namespace Filter

variable {value : String → Value} {f : Filter} {c : Condition}

/-- A leaf from its outline and its values. -/
theorem LeafStandsFor.rebuild {negated : Bool} (h : LeafStandsFor .plain negated f c) (n : Nat)
    (hv : (paramNames n c.values.length).map value = c.values) :
    (f.leafOutline negated n).rebuild value = negateIf (negated && f.isSetTest) f.canonical := by
  cases h with
  | compare ho hb =>
    have hval : value (paramName n) = _ := (List.cons.inj hv).1
    simp only [leafOutline, Outline.rebuild, hval, pathOf_split, testOf_comparison]
    rw [jsonForm_of_jsonText hb]
    simp [isSetTest, negateIf, canonical]
  | like ho =>
    have hval : value (paramName n) = _ := (List.cons.inj hv).1
    simp [leafOutline, Outline.rebuild, hval, pathOf_split, testOf, isSetTest, negateIf, canonical]
  | contains ho hb =>
    have hval : value (paramName n) = _ := (List.cons.inj hv).1
    simp [leafOutline, Outline.rebuild, hval, pathOf_split, testOf, elementOf_jsonText hb, isSetTest,
      negateIf, canonical]
  | filled hp => cases hp
  | hasKey hp hs =>
    simp [leafOutline, Outline.rebuild, pathOf_split, isSetTest, negateIf, canonical]
  | id =>
    have hval : value (paramName n) = _ := (List.cons.inj hv).1
    simp [leafOutline, Outline.rebuild, hval, textOf, isSetTest, negateIf, canonical]
  | @idIn values =>
    have hc : (Filter.idIn values).canonical = .idIn values := rfl
    rw [leafOutline, setOutline, isSetTest, Bool.and_true, hc]
    split
    · rename_i he
      have : values = [] := by simpa using he
      subst this
      rfl
    · have hval : (paramNames n values.length).map value = values.map .str := by
        simpa [Condition.values] using hv
      have htext : (paramNames n values.length).map (fun p => textOf (value p)) = values := by
        have h := congrArg (List.map textOf) hval
        simpa [Function.comp_def, textOf] using h
      rw [Outline.rebuild, htext]
  | @oneOf path values bound operand ho hb =>
    have hbound : bound = values.map jsonForm := jsonForm_of_bindValues hb
    rw [leafOutline, setOutline, isSetTest, Bool.and_true, canonical]
    split
    · -- a test without values has lost its path, and the canonical form has none either
      rename_i he
      have : values = [] := by simpa using he
      subst this
      rfl
    · rename_i he
      have hval : (paramNames n values.length).map value = values.map jsonForm := by
        simpa [Condition.values, hbound] using hv
      rw [Outline.rebuild, hval, pathOf_split, if_neg (by simpa using he)]

/-- **Outline and values give the filter back**, in its canonical form. -/
theorem StandsFor.rebuild (h : StandsFor .plain f c) (n : Nat)
    (hv : (paramNames n c.values.length).map value = c.values) :
    (f.outline n).rebuild value = f.canonical := by
  -- the two sides of a join bind their values one behind the other
  have hsides : ∀ {m k : Nat} {vs ws : List Value}, vs.length = k →
      (paramNames m (vs ++ ws).length).map value = vs ++ ws →
      (paramNames m vs.length).map value = vs ∧ (paramNames (m + k) ws.length).map value = ws := by
    intro m k vs ws hk h
    rw [List.length_append, ← paramNames_append, List.map_append, hk] at h
    rw [hk]
    exact List.append_inj h (by simp [paramNames, hk])
  have hlen : ∀ {f : Filter} {c : Condition}, StandsFor .plain f c →
      c.values.length = (f.bindings .plain).length := by
    intro f c hf
    simpa using (congrArg List.length hf.values).symm
  induction h generalizing n with
  | both hf hg ihf ihg =>
    obtain ⟨hl, hr⟩ := hsides (hlen hf) hv
    rw [outline, Outline.rebuild, ihf n hl, ihg _ hr, canonical]
  | either hf hg ihf ihg =>
    obtain ⟨hl, hr⟩ := hsides (hlen hf) hv
    rw [outline, Outline.rebuild, ihf n hl, ihg _ hr, canonical]
  | negate hset hf =>
    rw [outline, if_neg (by simp [hset]), Outline.rebuild, hf.rebuild n hv, canonical]
    rfl
  | negatedSet hset hf =>
    rw [outline, if_pos hset, hf.rebuild n hv, hset, canonical]
    rfl
  | @leaf f c hf =>
    have hout : f.outline n = f.leafOutline false n := by cases hf <;> rfl
    rw [hout, hf.rebuild n hv]
    rfl

end Filter

/-! ## Equal values -/

/-- What is the same as a text is that text. -/
theorem eq_of_str_same {s : String} {w : Value} (h : (Value.str s).same w = true) : w = .str s := by
  cases w with
  | str t => simp only [Value.same, beq_iff_eq] at h; rw [h]
  | _ => simp [Value.same, Value.number?] at h

theorem eq_of_same_str {v : Value} {s : String} (h : v.same (.str s) = true) : v = .str s := by
  cases v with
  | str t => simp only [Value.same, beq_iff_eq] at h; rw [h]
  | _ => simp [Value.same, Value.number?] at h

theorem textOf_same {v w : Value} (h : v.same w = true) : textOf v = textOf w := by
  cases v with
  | str s => rw [eq_of_str_same h]
  | _ =>
    cases w with
    | str s => cases eq_of_same_str h
    | _ => rfl

theorem elementOf_same {v w : Value} (h : v.same w = true) :
    (elementOf v).same (elementOf w) = true := by
  cases v with
  | str s => rw [eq_of_str_same h]; simp [elementOf, Value.same]
  | _ =>
    cases w with
    | str s => cases eq_of_same_str h
    | _ => exact h

theorem sameAll_map {value other : String → Value}
    (h : ∀ name, (value name).same (other name) = true) (names : List String) :
    Value.sameAll (names.map value) (names.map other) = true := by
  induction names with
  | nil => simp [Value.sameAll]
  | cons n ns ih => simp [Value.sameAll, h n, ih]

theorem testOf_same {v w : Value} (h : v.same w = true) (o : Operator) (path : String) :
    (testOf o path v).same (testOf o path w) = true := by
  cases o <;> simp [testOf, Filter.same, h, elementOf_same h]

theorem negateIf_same {f g : Filter} (h : f.same g = true) (negated : Bool) :
    (negateIf negated f).same (negateIf negated g) = true := by
  cases negated <;> simpa [negateIf, Filter.same] using h

/-- Values that are the same make filters that are the same. -/
theorem Outline.rebuild_same {value other : String → Value}
    (h : ∀ name, (value name).same (other name) = true) (o : Outline) :
    (o.rebuild value).same (o.rebuild other) = true := by
  induction o with
  | both a b iha ihb => simp [rebuild, Filter.same, iha, ihb]
  | either a b iha ihb => simp [rebuild, Filter.same, iha, ihb]
  | negate inner ih => simp [rebuild, Filter.same, ih]
  | test subject operator param =>
    cases subject with
    | id => simp [rebuild, Filter.same, textOf_same (h param)]
    | json keys => exact testOf_same (h param) operator _
    | text keys => exact testOf_same (h param) operator _
  | among subject params negated =>
    have htexts : params.map (fun p => textOf (value p)) = params.map fun p => textOf (other p) :=
      List.map_congr_left fun p _ => textOf_same (h p)
    cases subject with
    | id => exact negateIf_same (by simp [Filter.same, htexts]) negated
    | json keys => exact negateIf_same (by simp [Filter.same, sameAll_map h]) negated
    | text keys => exact negateIf_same (by simp [Filter.same, sameAll_map h]) negated
  | present keys => simp [rebuild, Filter.same]
  | constant truth => exact negateIf_same (by simp [Filter.same]) truth

/-! ## Clauses -/

/-- The value bound to a name. -/
def valueIn (params : Params) (name : String) : Value := (params.get? name).getD .null

/-- The same names are bound to values that are the same. -/
def SameParams (ps qs : Params) : Prop :=
  ∀ name, Option.Rel (fun v w => v.same w = true) (ps.get? name) (qs.get? name)

theorem valueIn_same {ps qs : Params} (h : SameParams ps qs) (name : String) :
    (valueIn ps name).same (valueIn qs name) = true := by
  have hname := h name
  unfold valueIn
  generalize ps.get? name = v at hname ⊢
  generalize qs.get? name = w at hname ⊢
  cases hname with
  | some hvw => exact hvw
  | none => simp [Value.same]

/-- What a reader finds in the clause of a filter that is not for every document. -/
theorem read_clause {f : Filter} {cl : Clause} (h : f.clause .plain = .ok cl) (hf : f ≠ .any) :
    ∃ text, cl.text = some text ∧ readOutline text = some (f.outline 0) ∧
      (f.outline 0).rebuild (valueIn cl.params) = f.canonical := by
  obtain ⟨c, hc, hcl⟩ := Filter.condition_of_clause h hf
  subst hcl
  have hs := Filter.stands_of_condition hc
  refine ⟨_, rfl, ?_, ?_⟩
  · have hread : readCondition (c.print 0).text.toList = some (f.outline 0, []) := by
      simpa using hs.read 0 []
    rw [readOutline, hread]
  · refine hs.rebuild 0 ?_
    have hps : (c.print 0).params = numbered 0 c.values := by rw [c.print_eq]
    have hnodup : (numbered 0 c.values).names.Nodup := by
      rw [names_numbered]; exact nodup_paramNames _ _
    have hget := Params.map_get?_names hnodup
    rw [names_numbered] at hget
    have hvalue : valueIn (numbered 0 c.values) =
        fun name => ((numbered 0 c.values).get? name).getD .null := rfl
    rw [hps, hvalue]
    have hval := congrArg (List.map fun o : Option Value => o.getD .null) hget
    simpa [Function.comp_def] using hval

/-- Only the filter for every document has no condition. -/
theorem any_of_clause {f : Filter} {cl : Clause} (h : f.clause .plain = .ok cl)
    (htext : cl.text = none) : f = .any := by
  by_contra hne
  obtain ⟨text, he, -⟩ := read_clause h hne
  rw [htext] at he
  cases he

/-- **Clauses are unambiguous.** A reader of texts finds the outline of every accepted filter in its
clause: how it is joined and negated, and for every leaf what it tests, by which operator, and the
names of its values. So filters with the same clause are the same up to the JSON texts of their
values, and up to what a set test without values would test; and they are still the same as values
if the values that are bound are only the same as values. -/
theorem clause_unambiguous (f g : Filter) (cl dl : Clause) (hf : f.clause .plain = .ok cl)
    (hg : g.clause .plain = .ok dl) :
    (f ≠ .any → ∃ text, cl.text = some text ∧ readOutline text = some (f.outline 0)) ∧
      (cl = dl → f.canonical = g.canonical) ∧
      (cl.text = dl.text → SameParams cl.params dl.params →
        f.canonical.same g.canonical = true) := by
  by_cases htext : cl.text = none
  · have hf' := any_of_clause hf htext
    subst hf'
    refine ⟨fun h => absurd rfl h, ?_, ?_⟩
    · rintro rfl
      rw [any_of_clause hg htext]
    · intro hsame _
      rw [any_of_clause hg (hsame ▸ htext)]
      rfl
  · have hnf : f ≠ .any := by rintro rfl; cases hf; exact htext rfl
    obtain ⟨text, he, hread, hf'⟩ := read_clause hf hnf
    refine ⟨fun _ => ⟨text, he, hread⟩, ?_⟩
    -- equal texts have equal outlines, so only the values can differ
    have hout : cl.text = dl.text → f.outline 0 = g.outline 0 ∧
        (g.outline 0).rebuild (valueIn dl.params) = g.canonical := by
      intro hsame
      have hng : g ≠ .any := by rintro rfl; cases hg; exact htext hsame
      obtain ⟨text', he', hread', hg'⟩ := read_clause hg hng
      cases (he.symm.trans hsame).trans he'
      exact ⟨Option.some.inj (hread.symm.trans hread'), hg'⟩
    constructor
    · rintro rfl
      obtain ⟨ho, hg'⟩ := hout rfl
      rw [← hf', ← hg', ho]
    · intro hsame hps
      obtain ⟨ho, hg'⟩ := hout hsame
      rw [← hf', ← hg', ho]
      exact Outline.rebuild_same (valueIn_same hps) _

/-- Keys with quotes, brackets, connectors and placeholders in them, and two set tests without
values on different paths. -/
theorem clause_unambiguous_quoted :
    let f := Filter.both (.compare .equal "it's) AND (x.%(a0)s" (.int 1))
      (.either (.negate (.oneOf "a' OR 'b" [.int 1, .str "x"])) (.negate (.idIn [])))
    let g := Filter.both (.compare .equal "it's) AND (x.%(a0)s" (.int 1))
      (.either (.negate (.oneOf "a' OR 'b" [.int 1, .str "x"])) (.negate (.oneOf "c" [])))
    let text := "(doc->'it''s) AND (x'->'%(a0)s' = %(a0)s AND " ++
      "(doc->'a'' OR ''b' NOT IN(%(a1)s, %(a2)s) OR 1 = 1))"
    let cl : Clause := ⟨some text, [("a0", .str "1"), ("a1", .str "1"), ("a2", .str "\"x\"")]⟩
    f.clause .plain = .ok cl ∧ g.clause .plain = .ok cl ∧
      readOutline text = some (.both (.test (.json ["it's) AND (x", "%(a0)s"]) .eq "a0")
        (.either (.among (.json ["a' OR 'b"]) ["a1", "a2"] true) (.constant true))) ∧
      f.canonical = g.canonical := by
  intro f g text cl
  have hf : f.clause .plain = .ok cl := rfl
  have hg : g.clause .plain = .ok cl := rfl
  obtain ⟨hread, hsame, -⟩ := clause_unambiguous f g cl cl hf hg
  obtain ⟨t, ht, hread⟩ := hread (by simp [f])
  cases ht
  exact ⟨hf, hg, hread, hsame rfl⟩

end Docbase
