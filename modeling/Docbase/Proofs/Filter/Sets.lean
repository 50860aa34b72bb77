import Docbase.Proofs.Filter.Faults
import Docbase.Proofs.Sql.Truth

/-!
# Set tests and plain tests

A set test can be spelled out: it means the plain tests of its values joined by `OR`, and its
negation the negated plain tests joined by `AND`, in their order and with whatever brackets.

* `Joined`: parts that are put together in pairs.
* `Filter.LongForm`: what a set test, or its negation, can be spelled out as.
* `Filter.Agrees`: a set test is accepted exactly if its long forms are, and then they bind the same
  values under the same names, speak of the same expression and come to the same.
* `sets_agree`: **set tests agree with plain ones**, on ids and on paths, negated or not. Without
  values a set test is constant.
-/

namespace Docbase

open Sql

/-- Parts in their order, put together in pairs with whatever brackets. -/
inductive Joined {α : Type} (join : α → α → α) : List α → α → Prop
  | single (a : α) : Joined join [a] a
  | pair {as bs : List α} {a b : α} :
      Joined join as a → Joined join bs b → Joined join (as ++ bs) (join a b)

namespace Joined

variable {α : Type} {join : α → α → α} {as : List α} {a b : α}

/-- What is written with one operator behind another is one of them. -/
theorem foldl (h : Joined join as a) (bs : List α) : Joined join (as ++ bs) (bs.foldl join a) := by
  induction bs generalizing as a with
  | nil => simpa using h
  | cons b bs ih =>
    have hnext : Joined join ((as ++ [b]) ++ bs) (bs.foldl join (join a b)) := ih (h.pair (.single b))
    simpa using hnext

theorem ne_nil (h : Joined join as a) : as ≠ [] := by
  induction h with
  | single => exact List.cons_ne_nil _ _
  | pair _ _ ih => exact List.append_ne_nil_of_left_ne_nil ih _

end Joined

namespace Filter

variable {r : Resolver} {negated : Bool}

/-- A filter or its negation. -/
def signed : Bool → Filter → Filter
  | false, f => f
  | true, f => .negate f

/-- What joins plain tests, and what joins negated ones. -/
def joiner : Bool → Filter → Filter → Filter
  | false => .either
  | true => .both

/-- What a set test, or its negation, can be spelled out as: the plain tests of its values or their
negations, joined with whatever brackets. -/
def LongForm (negated : Bool) (singles : List Filter) (long : Filter) : Prop :=
  Joined (joiner negated) (singles.map (signed negated)) long

/-- Conditions on one expression that are told apart by their texts only, from a number on. -/
structure Alike (e : Operand) (number : Nat) (c d : Condition) : Prop where
  /-- They bind the same values under the same names, in the same order. -/
  params : (c.print number).params = (d.print number).params
  /-- The next free number is the same. -/
  next : (c.print number).next = (d.print number).next
  /-- Their texts come to the same, whatever equality means and whatever the expression comes to,
  also where it is null. -/
  truth : ∀ {α : Type} (equals : α → Value → Truth) (x : Option α),
    ∃ t, (c.print number).truth e.text (Truth.equal equals x) = some t ∧
      (d.print number).truth e.text (Truth.equal equals x) = some t

/-- A set test, or its negation, agrees with the plain tests of its values. -/
structure Agrees (r : Resolver) (negated : Bool) (set : Filter) (singles : List Filter) : Prop where
  /-- If there are values, what is written with one operator behind another is a long form. -/
  chain : ∀ f fs, singles.map (signed negated) = f :: fs →
    LongForm negated singles (fs.foldl (joiner negated) f)
  /-- It is accepted exactly if its long forms are. -/
  accepted : ∀ long, LongForm negated singles long →
    ((∃ c, (signed negated set).condition r = .ok c) ↔ ∃ d, long.condition r = .ok d)
  /-- It speaks of the same expression and values as they do, and is like them from any number on. -/
  alike : ∀ c, (signed negated set).condition r = .ok c → ∃ e bound,
    c = .among e bound negated ∧
    singles.map (condition r) = bound.map (fun b => .ok (.test e .eq b)) ∧
    ∀ long d, LongForm negated singles long → long.condition r = .ok d →
      ∀ number, Alike e number c d
  /-- Without values it is constant, whatever it speaks of. -/
  constant : singles = [] → ∀ c, (signed negated set).condition r = .ok c →
    ∀ number e holds, (c.print number).params = [] ∧ (c.print number).next = number ∧
      (c.print number).truth e holds = some (if negated then .yes else .no)

/-! ## Long forms as conditions -/

/-- The plain test of a value on an expression, or its negation. -/
def signedTest (e : Operand) : Bool → Value → Condition
  | false, b => .test e .eq b
  | true, b => .negate (.test e .eq b)

/-- What joins the conditions of a long form. -/
def conditionJoiner : Bool → Condition → Condition → Condition
  | false => .either
  | true => .both

theorem joiner_condition (f g : Filter) :
    (joiner negated f g).condition r = (do
      let c ← f.condition r
      let d ← g.condition r
      pure (conditionJoiner negated c d)) := by
  cases negated <;> rfl

/-- Joined filters are accepted exactly if all of them are. -/
theorem joined_accepted {fs : List Filter} {f : Filter} (h : Joined (joiner negated) fs f) :
    (∃ c, f.condition r = .ok c) ↔ ∀ g ∈ fs, ∃ c, g.condition r = .ok c := by
  induction h with
  | single => simp
  | @pair as bs a b _ _ iha ihb =>
    rw [List.forall_mem_append, ← iha, ← ihb, joiner_condition, both_isOk]

/-- And their conditions are joined alike. -/
theorem joined_condition {fs : List Filter} {f : Filter} {cs : List Condition}
    (h : Joined (joiner negated) fs f) (hcs : fs.map (condition r) = cs.map .ok) :
    ∃ c, f.condition r = .ok c ∧ Joined (conditionJoiner negated) cs c := by
  induction h generalizing cs with
  | single f =>
    obtain ⟨c, rfl, hc⟩ := List.map_eq_singleton_iff.1 hcs.symm
    exact ⟨c, hc.symm, .single c⟩
  | pair _ _ iha ihb =>
    rw [List.map_append] at hcs
    obtain ⟨as, bs, rfl, ha, hb⟩ := List.map_eq_append_iff.1 hcs.symm
    obtain ⟨c, hc, hcJoined⟩ := iha ha.symm
    obtain ⟨d, hd, hdJoined⟩ := ihb hb.symm
    refine ⟨conditionJoiner negated c d, ?_, hcJoined.pair hdJoined⟩
    rw [joiner_condition, hc, hd]
    rfl

variable {e : Operand} {bound : List Value} {c : Condition}

/-- Joined tests bind the values of all. -/
theorem joined_values (h : Joined (conditionJoiner negated) (bound.map (signedTest e negated)) c) :
    c.values = bound := by
  generalize hcs : bound.map (signedTest e negated) = cs at h
  induction h generalizing bound with
  | single =>
    obtain ⟨b, rfl, rfl⟩ := List.map_eq_singleton_iff.1 hcs
    cases negated <;> rfl
  | @pair _ _ c d _ _ iha ihb =>
    obtain ⟨as, bs, rfl, ha, hb⟩ := List.map_eq_append_iff.1 hcs
    have hvalues : (conditionJoiner negated c d).values = c.values ++ d.values := by
      cases negated <;> rfl
    rw [hvalues, iha ha, ihb hb]

/-- Joined tests come to what the set test comes to. -/
theorem joined_read (hlegible : Legible e.text) {holds : Value → Truth} {params : Params} {number : Nat}
    (h : Joined (conditionJoiner negated) (bound.map (signedTest e negated)) c)
    (hbound : params.Holds number bound) (rest : List Char) :
    (truths e.text holds params).read ((c.print number).text.toList ++ rest) =
      some ((if negated then Truth.notAmong else Truth.among) (bound.map holds), rest) := by
  generalize hcs : bound.map (signedTest e negated) = cs at h
  induction h generalizing bound number rest with
  | single =>
    obtain ⟨b, rfl, rfl⟩ := List.map_eq_singleton_iff.1 hcs
    cases negated with
    | false =>
      have hone : Truth.among ([b].map holds) = holds b := Truth.among_singleton (holds b)
      rw [if_neg Bool.false_ne_true, hone]
      exact read_test hlegible hbound rest
    | true =>
      have hone : Truth.notAmong ([b].map holds) = (holds b).not := Truth.notAmong_singleton (holds b)
      rw [if_pos rfl, hone]
      exact read_not_test hlegible hbound rest
  | @pair _ _ c d hc hd iha ihb =>
    obtain ⟨as, bs, rfl, ha, hb⟩ := List.map_eq_append_iff.1 hcs
    obtain ⟨has, hbs⟩ := hbound.append
    have hnext : (c.print number).next = number + as.length := by
      subst ha
      rw [c.print_eq, joined_values hc]
    cases negated with
    | false =>
      have hp : (conditionJoiner false c d).print number =
          (c.print number).join "OR" (d.print (c.print number).next) := rfl
      rw [hp, if_neg Bool.false_ne_true, List.map_append, Truth.among_append, hnext]
      exact Grammar.read_join "OR" Truth.or hlegible.leaf_open (fun _ => rfl)
        (fun rest => iha has rest ha) (fun rest => ihb hbs rest hb) rest
    | true =>
      have hp : (conditionJoiner true c d).print number =
          (c.print number).join "AND" (d.print (c.print number).next) := rfl
      rw [hp, if_pos rfl, List.map_append, Truth.notAmong_append, hnext]
      exact Grammar.read_join "AND" Truth.and hlegible.leaf_open (fun _ => rfl)
        (fun rest => iha has rest ha) (fun rest => ihb hbs rest hb) rest

/-- What the text of a condition comes to with the values that it binds. -/
theorem truth_of_read {text : String} {holds : Value → Truth} {number : Nat} {t : Truth}
    (h : ∀ params : Params, params.Holds number c.values → ∀ rest,
      (truths text holds params).read ((c.print number).text.toList ++ rest) = some (t, rest)) :
    (c.print number).truth text holds = some t := by
  have hbound : (c.print number).params.Holds number c.values := by
    rw [c.print_eq]
    exact Params.holds_numbered number c.values
  have hread := h _ hbound []
  rw [List.append_nil] at hread
  rw [Printed.truth, hread]

/-- A set test and the tests joined in its place are alike. -/
theorem alike_of_joined (hlegible : Legible e.text)
    (h : Joined (conditionJoiner negated) (bound.map (signedTest e negated)) c) (number : Nat) :
    Alike e number (.among e bound negated) c := by
  have hvalues : c.values = (Condition.among e bound negated).values := joined_values h
  refine ⟨?_, ?_, fun equals x => ?_⟩
  · rw [Condition.print_eq, c.print_eq, hvalues]
  · rw [Condition.print_eq, c.print_eq, hvalues]
  · refine ⟨_, truth_of_read fun params hbound => read_among hlegible hbound negated,
      truth_of_read fun params hbound => ?_⟩
    rw [hvalues] at hbound
    exact joined_read hlegible h hbound

/-! ## Set tests as conditions -/

/-- A set test and the plain tests of its values, as conditions on one expression. -/
structure Spelled (r : Resolver) (set : Filter) (singles : List Filter) (e : Operand)
    (bound : List Value) : Prop where
  set : ∀ negated, (signed negated set).condition r = .ok (.among e bound negated)
  single : ∀ negated, (singles.map (signed negated)).map (condition r) =
    (bound.map (signedTest e negated)).map .ok
  legible : Legible e.text

theorem Spelled.condition_eq {set : Filter} {singles : List Filter}
    (h : Spelled r set singles e bound) (hc : (signed negated set).condition r = .ok c) :
    c = .among e bound negated := by
  have hset := h.set negated
  rw [hc] at hset
  exact Except.ok.inj hset

/-- A set test agrees with its plain tests if it is accepted exactly together with them. -/
theorem agrees_of_spelled {set : Filter} {singles : List Filter}
    (hset : ∀ c, (signed negated set).condition r = .ok c →
      ∃ e bound, Spelled r set singles e bound)
    (hsingles : singles ≠ [] → (∀ f ∈ singles, ∃ c, (signed negated f).condition r = .ok c) →
      ∃ c, (signed negated set).condition r = .ok c) :
    Agrees r negated set singles where
  chain f fs h := by
    rw [LongForm, h]
    exact (Joined.single f).foldl fs
  accepted long hlong := by
    constructor
    · rintro ⟨c, hc⟩
      obtain ⟨e, bound, hspelled⟩ := hset c hc
      obtain ⟨d, hd, -⟩ := joined_condition hlong (hspelled.single negated)
      exact ⟨d, hd⟩
    · intro h
      have hne : singles ≠ [] := by simpa using hlong.ne_nil
      have hparts := (joined_accepted hlong).1 h
      exact hsingles hne (by simpa using hparts)
  alike c hc := by
    obtain ⟨e, bound, hspelled⟩ := hset c hc
    have hplain : singles.map (condition r) = bound.map fun b => .ok (.test e .eq b) := by
      simpa [signed, signedTest, Function.comp_def] using hspelled.single false
    refine ⟨e, bound, hspelled.condition_eq hc, hplain, fun long d hlong hd number => ?_⟩
    obtain ⟨d', hd', hjoined⟩ := joined_condition hlong (hspelled.single negated)
    cases hd.symm.trans hd'
    rw [hspelled.condition_eq hc]
    exact alike_of_joined hspelled.legible hjoined number
  constant hnil c hc number text holds := by
    obtain ⟨e, bound, hspelled⟩ := hset c hc
    have hbound : bound = [] := by
      have hsingle := hspelled.single false
      rw [hnil] at hsingle
      simpa using hsingle.symm
    rw [hspelled.condition_eq hc, hbound]
    exact ⟨rfl, rfl, truth_of_read fun _ _ => read_among_nil negated⟩

theorem spelled_ids (r : Resolver) (ids : List String) :
    Spelled r (.idIn ids) (ids.map .id) .id (ids.map .str) where
  set negated := by cases negated <;> rfl
  single negated := by
    rw [List.map_map, List.map_map, List.map_map, List.map_map]
    refine List.map_congr_left fun id _ => ?_
    cases negated <;> rfl
  legible := legible_id

/-- Values beside a path are bound one by one. -/
theorem bindValues_eq_ok {path : String} {vs : List Value} :
    bindValues r path vs = .ok bound ↔ vs.map (r.bind · path) = bound.map .ok := by
  induction vs generalizing bound with
  | nil => cases bound <;> simp [bindValues]
  | cons v vs ih =>
    cases bound with
    | nil => simp [bindValues, bind_eq_ok, pure, Except.pure]
    | cons b bs => simp [bindValues, bind_eq_ok, pure, Except.pure, ih]

/-- A plain test speaks of what its path stands for. -/
theorem signed_equal (path : String) (v : Value) :
    (signed negated (.compare .equal path v)).condition r = (do
      let e ← refuse (r.operand path)
      let b ← r.bind v path
      pure (signedTest e negated b)) := by
  cases negated with
  | false => rfl
  | true =>
    have hnot : (negate (.compare .equal path v)).condition r = (do
        let c ← (Filter.compare .equal path v).leafCondition r false
        pure (.negate c)) := rfl
    rw [signed, hnot, leafCondition]
    cases r.operand path <;> cases r.bind v path <;> rfl

theorem spelled_path (hbase : r.base = docColumn) {path : String} {values : List Value}
    (he : r.operand path = .ok e) (hbound : bindValues r path values = .ok bound) :
    Spelled r (.oneOf path values) (values.map (.compare .equal path)) e bound where
  set negated := by
    have h : (Filter.oneOf path values).leafCondition r negated = .ok (.among e bound negated) := by
      rw [leafCondition, he, hbound]
      rfl
    cases negated with
    | false => exact h
    | true => exact h
  single negated := by
    have hsingle : ∀ v, (signed negated (.compare .equal path v)).condition r =
        (r.bind v path).map (signedTest e negated) := by
      intro v
      rw [signed_equal, he]
      cases r.bind v path <;> rfl
    calc ((values.map (compare .equal path)).map (signed negated)).map (condition r)
      _ = values.map fun v => (r.bind v path).map (signedTest e negated) := by
          simp only [List.map_map, Function.comp_def, hsingle]
      _ = (values.map (r.bind · path)).map (Except.map (signedTest e negated)) := by
          rw [List.map_map]
          rfl
      _ = (bound.map (signedTest e negated)).map .ok := by
          rw [bindValues_eq_ok.1 hbound, List.map_map, List.map_map]
          rfl
  legible := by
    rcases Resolver.operand_ok he with ⟨name, -, -, rfl⟩ | ⟨keys, last, -, -, rfl⟩
    · exact legible_column name
    · rw [hbase]
      exact legible_json (keys ++ [last])

/-! ## Which set tests are accepted -/

theorem bind_ok_iff {path : String} {v : Value} :
    (∃ b, r.bind v path = .ok b) ↔ r.isPromoted path = true ∨ ¬ Json.Unwritable v := by
  have hok : (∃ b, r.bind v path = .ok b) ↔ ¬ ∃ x, r.bind v path = .error x := by
    cases r.bind v path <;> simp
  rw [hok, Resolver.bind_error_iff, not_and_or, Bool.not_eq_false]

theorem bindValues_ok_iff {path : String} {vs : List Value} :
    (∃ bound, bindValues r path vs = .ok bound) ↔ ∀ v ∈ vs, ∃ b, r.bind v path = .ok b := by
  induction vs with
  | nil => simp [bindValues]
  | cons v vs ih =>
    rw [List.forall_mem_cons, ← ih, bindValues, both_isOk]

/-- A set test on a path is accepted exactly if the path is and its values can be bound. -/
theorem oneOf_ok_iff {path : String} {values : List Value} :
    (∃ c, (signed negated (.oneOf path values)).condition r = .ok c) ↔
      (∃ e, r.operand path = .ok e) ∧ ∃ bound, bindValues r path values = .ok bound := by
  have hleaf : (signed negated (.oneOf path values)).condition r =
      (Filter.oneOf path values).leafCondition r negated := by
    cases negated <;> rfl
  rw [hleaf, leafCondition, both_isOk]
  simp only [refuse_eq_ok]

/-- A plain test is accepted exactly if its path is and its value can be bound. -/
theorem equal_ok_iff {path : String} {v : Value} :
    (∃ c, (signed negated (.compare .equal path v)).condition r = .ok c) ↔
      (∃ e, r.operand path = .ok e) ∧ ∃ b, r.bind v path = .ok b := by
  rw [signed_equal, both_isOk]
  simp only [refuse_eq_ok]

/-- **Set tests agree with plain ones.** With or without promoted columns and negated or not, a set
test on a path is accepted exactly if the path is and its values can be bound, and a set test on ids
always is. If there are values, the plain tests of these, joined in any way, are accepted together
with it; from any first number on they bind the same, they speak of the same expression, and their
text comes to the same as its text does, whatever equality means and also where the expression is
null. Without values the set test is false and its negation true. -/
theorem sets_agree (promote negated : Bool) :
    let r : Resolver := { promote }
    (∀ path values,
      ((∃ c, (signed negated (.oneOf path values)).condition r = .ok c) ↔
        r.WellFormed path ∧ (r.isPromoted path = true ∨ ∀ v ∈ values, ¬ Json.Unwritable v)) ∧
      Agrees r negated (.oneOf path values) (values.map (.compare .equal path))) ∧
    ∀ ids, (∃ c, (signed negated (.idIn ids)).condition r = .ok c) ∧
      Agrees r negated (.idIn ids) (ids.map .id) := by
  intro r
  refine ⟨fun path values => ⟨?_, ?_⟩, fun ids => ⟨⟨_, (spelled_ids r ids).set negated⟩, ?_⟩⟩
  · rw [oneOf_ok_iff, bindValues_ok_iff, ← Resolver.accepts_iff]
    simp only [bind_ok_iff, forall_or_left, Resolver.Accepts]
  · refine agrees_of_spelled (fun c hc => ?_) fun hne hsingles => ?_
    · obtain ⟨⟨e, he⟩, bound, hbound⟩ := oneOf_ok_iff.1 ⟨c, hc⟩
      exact ⟨e, bound, spelled_path rfl he hbound⟩
    · have heach : ∀ v ∈ values, (∃ e, r.operand path = .ok e) ∧ ∃ b, r.bind v path = .ok b :=
        fun v hv => equal_ok_iff.1 (hsingles _ (List.mem_map_of_mem hv))
      obtain ⟨v, hv⟩ := List.exists_mem_of_ne_nil values (by simpa using hne)
      exact oneOf_ok_iff.2 ⟨(heach v hv).1, bindValues_ok_iff.2 fun w hw => (heach w hw).2⟩
  · exact agrees_of_spelled (fun c hc => ⟨_, _, spelled_ids r ids⟩)
      fun _ _ => ⟨_, (spelled_ids r ids).set negated⟩

end Filter

end Docbase
