import Docbase.Order.SortKey
import Docbase.Proofs.Field
import Docbase.Proofs.Filter.Numbering
import Docbase.Proofs.Index.Keys
import Docbase.Proofs.Selection.Labels

/-!
# One operand for every use of a field

Filters, orders, indexes and select lists put the path of a field into SQL apart from one another.
An index is of use to a filter or an order only if it is on the very expression that they hold, so
all of them have to find the same one, or refuse the path in the same way.

* `Filter.IsOn`, `Filter.Compares`: the filters that speak of a path, and those among them that hold
  its values against others.
* `Resolver.Refuses`, `Resolver.Addresses`: every use of a path is refused for one cause; every use
  of it is about one operand.
* `refuses_of_operand`, `addresses_of_operand`: the two cases of resolving a path.
* `Resolver.one_operand`: **one of the two holds of every path**, and a key of an index with
  promoted columns is what filters with promotion speak of.
-/

namespace Docbase

open Sql

/-! ## Uses of a path -/

/-- The filter is about the field of a path, and nothing else. -/
inductive Filter.IsOn (path : String) : Filter → Prop
  | compare (comparison : Comparison) (value : Value) : IsOn path (.compare comparison path value)
  | like (pattern : Value) : IsOn path (.like path pattern)
  | contains (element : Value) : IsOn path (.contains path element)
  | present : IsOn path (.present path)
  | oneOf (values : List Value) : IsOn path (.oneOf path values)

/-- The filter holds the field of a path against some values. Behind what the path stands for comes
an operator with its placeholders, which are numbered from a first number on. -/
inductive Filter.Compares (path : String) : Filter → List Value → (Nat → String) → Prop
  | compare (comparison : Comparison) (value : Value) :
    Compares path (.compare comparison path value) [value] fun number =>
      " " ++ comparison.operator.symbol ++ " " ++ placeholder (paramName number)
  | contains (element : Value) : Compares path (.contains path element) [element] fun number =>
      " @> " ++ placeholder (paramName number)
  | oneOf {values : List Value} (h : values ≠ []) :
    Compares path (.oneOf path values) values fun number =>
      " IN(" ++ placeholders number values ++ ")"
  | noneOf {values : List Value} (h : values ≠ []) :
    Compares path (.negate (.oneOf path values)) values fun number =>
      " NOT IN(" ++ placeholders number values ++ ")"

/-- The second operand is the first one as text: the same column, or the same place in the same
document. -/
inductive Sql.Operand.AsText : Operand → Operand → Prop
  | column (name : Identifier) : AsText (.column name) (.columnText name)
  | json (base : String) (keys : List String) (last : String) :
    AsText (.json base (keys ++ [last])) (.jsonText base keys last)

/-- The condition says that the operand is there: the same column is not null, or the same place in
the same document is taken. -/
inductive Sql.Operand.Present : Operand → Condition → Prop
  | column (name : Identifier) : Present (.column name) (.filled name)
  | json (base : String) (keys : List String) (last : String) :
    Present (.json base (keys ++ [last])) (.hasKey base keys last)

/-- The item of the list of columns for an operand: a column as it is, JSON as text. -/
inductive Sql.Operand.Item : Operand → String → Prop
  | column (name : Identifier) : Item (.column name) (Operand.column name).text
  | json (base : String) (keys : List String) :
    Item (.json base keys) ("(" ++ (Operand.json base keys).text ++ ")::text")

/-- Every key on the path is on one operand, where an index is created whose paths are accepted. -/
def Index.KeyedOn (r : Resolver) (path : String) (e : Operand) (i : Index) : Prop :=
  ∀ (table : String) (unique : Bool) (fields : List FieldIndex), i.inner.Covers unique fields →
    (∀ g ∈ fields, g.field ≠ path → (i.resolver r).Accepts g.field) →
    ∃ front keys, i.createStatements table r
        = .ok (front ++ [createText table unique i.name (keys.map IndexKey.text)]) ∧
      List.Forall₂ (fun (g : FieldIndex) (k : IndexKey) =>
        (g.field = path → k.operand = e) ∧ (k.descending = true ↔ g.direction = .desc)) fields keys

/-- An index is refused for a cause if the path is the first of its paths that is refused. -/
def Index.RefusedOn (r : Resolver) (path : String) (c : Cause) (i : Index) : Prop :=
  ∀ (table : String) (unique : Bool) (before after : List FieldIndex) (f : FieldIndex),
    f.field = path → i.inner.Covers unique (before ++ f :: after) →
    (∀ g ∈ before, (i.resolver r).Accepts g.field) → i.createStatements table r = .error c

namespace Resolver

/-- Every use of a path is refused, and for one cause. -/
structure Refuses (r : Resolver) (path : String) (c : Cause) : Prop where
  filters : ∀ f : Filter, f.IsOn path →
    f.clause r = .error (.refused c) ∧ (Filter.negate f).clause r = .error (.refused c)
  orders : ∀ d, (Order.field path d).sortKeys r = .error c
  indexes : ∀ i : PlainIndex, (Index.plain i).RefusedOn r path c
  items : ∀ name, ¬ Selection.LooksLikeLabel name →
    Selection.listText r ⟨[⟨name, path⟩]⟩ = .error c

/-- Every use of a path is about one operand. -/
structure Addresses (r : Resolver) (path : String) (e : Operand) : Prop where
  filters : ∀ (f : Filter) (values : List Value) (rest : Nat → String),
    f.Compares path values rest → (∀ v ∈ values, ∃ text, Json.encode v = .ok text) →
    ∃ c : Condition, f.condition r = .ok c ∧
      f.clause r = .ok ⟨some (e.text ++ rest 0), (c.print 0).params⟩ ∧
      ∀ number, (c.print number).text = e.text ++ rest number
  patterns : ∀ pattern, ∃ e', e.AsText e' ∧
    (Filter.like path pattern).condition r = .ok (.test e' .like pattern)
  presence : ∃ c, e.Present c ∧ (Filter.present path).condition r = .ok c
  orders : ∀ d, (Order.field path d).sortKeys r = .ok [⟨e, d⟩] ∧
    orderByText [⟨e, d⟩] = "ORDER BY " ++ e.text ++ " " ++ d.text
  indexes : ∀ i : PlainIndex, (Index.plain i).KeyedOn r path e
  items : ∃ item, e.Item item ∧ ∀ name, ¬ Selection.LooksLikeLabel name →
    Selection.listText r ⟨[⟨name, path⟩]⟩ = .ok (", ".intercalate
      [Selection.labelledItem idColumn Selection.idLabel,
        Selection.labelledItem item (Selection.label ⟨name, path⟩ 0)])

variable {r : Resolver} {path : String} {c : Cause} {e : Operand}

/-! ## Paths that are refused -/

/-- The keys of a path and its last key are refused alike. -/
theorem splitParent_error (h : segments path = .error c) : splitParent path = .error c := by
  rw [splitParent, h]
  rfl

/-- A path is refused either as the name of a column or as a way of keys. -/
theorem operand_error (h : r.operand path = .error c) :
    (r.isPromoted path = true ∧ columnName path = .error c) ∨
      (r.isPromoted path = false ∧ segments path = .error c) := by
  unfold operand at h
  cases hp : r.isPromoted path with
  | true =>
    rw [hp, if_pos rfl] at h
    cases hn : columnName path with
    | error c' => rw [hn] at h; cases h; exact .inl ⟨rfl, rfl⟩
    | ok name => rw [hn] at h; cases h
  | false =>
    rw [hp, if_neg Bool.false_ne_true] at h
    cases hs : segments path with
    | error c' => rw [hs] at h; cases h; exact .inr ⟨rfl, rfl⟩
    | ok keys => rw [hs] at h; cases h

/-- A path that is refused is refused as text as well. -/
theorem textOperand_error (h : r.operand path = .error c) : r.textOperand path = .error c := by
  unfold textOperand
  rcases operand_error h with ⟨hp, hn⟩ | ⟨hp, hs⟩
  · rw [hp, if_pos rfl, hn]
    rfl
  · rw [hp, if_neg Bool.false_ne_true, splitParent_error hs]
    rfl

/-- A filter on a path that is refused has no condition, whatever its values are: the path is looked
at first. -/
theorem leafCondition_error {f : Filter} (hon : f.IsOn path) (h : r.operand path = .error c)
    (negated : Bool) : f.leafCondition r negated = .error (.refused c) := by
  cases hon with
  | compare | contains | oneOf =>
    rw [Filter.leafCondition, h]
    rfl
  | like =>
    rw [Filter.leafCondition, textOperand_error h]
    rfl
  | present =>
    rw [Filter.leafCondition]
    rcases operand_error h with ⟨hp, hn⟩ | ⟨hp, hs⟩
    · rw [hp, if_pos rfl, hn]
      rfl
    · rw [hp, if_neg Bool.false_ne_true, splitParent_error hs]
      rfl

theorem clause_error {f : Filter} {x : Error} (hf : f ≠ .any) (h : f.condition r = .error x) :
    f.clause r = .error x := by
  cases f with
  | any => exact absurd rfl hf
  | both | either | negate | compare | like | contains | present | id | idIn | oneOf | unknown =>
    exact bind_error h

/-- The negation of a filter on a path is refused like the filter itself. -/
theorem filters_refused {f : Filter} (hon : f.IsOn path) (h : r.operand path = .error c) :
    f.clause r = .error (.refused c) ∧ (Filter.negate f).clause r = .error (.refused c) := by
  have hleaf := leafCondition_error hon h
  cases hon with
  | compare | like | contains | present =>
    exact ⟨clause_error (by simp) (hleaf false), clause_error (by simp) (bind_error (hleaf false))⟩
  | oneOf => exact ⟨clause_error (by simp) (hleaf false), clause_error (by simp) (hleaf true)⟩

/-- An index is refused for a path like every other use of it. -/
theorem refusedOn (i : Index) (h : (i.resolver r).operand path = .error c) :
    i.RefusedOn r path c := by
  intro table unique before after f hf hcovers hbefore
  subst hf
  have herror := hcovers.statements_error table hbefore h
  cases i with
  | plain p => exact herror
  | promoted p => exact bind_error herror

/-- **A path that is refused is refused in every use.** -/
theorem refuses_of_operand (h : r.operand path = .error c) : r.Refuses path c where
  filters _ hon := filters_refused hon h
  orders d := by
    rw [Order.sortKeys, h]
    rfl
  indexes i := refusedOn (.plain i) h
  items name hname := by
    have hfree : ∀ entry ∈ [(⟨name, path⟩ : Selection.Entry)],
        ¬ Selection.LooksLikeLabel entry.aliasName := by simpa using hname
    rw [Selection.listText_of_free hfree]
    have hitem : Selection.itemText r path = .error c := by
      rw [Selection.itemText, h]
      rfl
    show (Selection.itemTexts r [⟨⟨name, path⟩, _⟩]).map _ = _
    rw [Selection.itemTexts, hitem]
    rfl

/-! ## Paths that are accepted -/

/-- An accepted path is the name of a column or a way of keys. -/
theorem operand_ok (h : r.operand path = .ok e) :
    (∃ name, r.isPromoted path = true ∧ columnName path = .ok name ∧ e = .column name) ∨
      ∃ keys last, r.isPromoted path = false ∧ segments path = .ok (keys ++ [last]) ∧
        e = .json r.base (keys ++ [last]) := by
  unfold operand at h
  cases hp : r.isPromoted path with
  | true =>
    rw [hp, if_pos rfl] at h
    obtain ⟨name, hname, rfl⟩ := map_eq_ok.1 h
    exact .inl ⟨name, rfl, hname, rfl⟩
  | false =>
    rw [hp, if_neg Bool.false_ne_true] at h
    obtain ⟨all, hall, rfl⟩ := map_eq_ok.1 h
    have hne : all ≠ [] := by
      rw [Resolver.segments_ok hall]
      exact Text.split_ne_nil '.' path
    refine .inr ⟨all.dropLast, all.getLast hne, rfl, ?_, ?_⟩
    · rw [List.dropLast_concat_getLast hne]
      exact hall
    · rw [List.dropLast_concat_getLast hne]

/-- The way of keys is split before its last one. -/
theorem splitParent_eq {keys : List String} {last : String}
    (h : segments path = .ok (keys ++ [last])) : splitParent path = .ok (keys, last) := by
  rw [splitParent, h]
  show Except.ok ((keys ++ [last]).dropLast, (keys ++ [last]).getLast?.getD "") = _
  simp

/-- A path that is accepted is accepted as text as well. -/
theorem textOperand_ok (h : r.operand path = .ok e) :
    ∃ e', e.AsText e' ∧ r.textOperand path = .ok e' := by
  unfold textOperand
  rcases operand_ok h with ⟨name, hp, hname, rfl⟩ | ⟨keys, last, hp, hkeys, rfl⟩
  · refine ⟨_, .column name, ?_⟩
    rw [hp, if_pos rfl, hname]
    rfl
  · refine ⟨_, .json r.base keys last, ?_⟩
    rw [hp, if_neg Bool.false_ne_true, splitParent_eq hkeys]
    rfl

theorem patterns_addressed (h : r.operand path = .ok e) (pattern : Value) :
    ∃ e', e.AsText e' ∧
      (Filter.like path pattern).condition r = .ok (.test e' .like pattern) := by
  obtain ⟨e', he', htext⟩ := textOperand_ok h
  refine ⟨e', he', ?_⟩
  have hleaf : (Filter.like path pattern).condition r
      = (Filter.like path pattern).leafCondition r false := rfl
  rw [hleaf, Filter.leafCondition, htext]
  rfl

theorem presence_addressed (h : r.operand path = .ok e) :
    ∃ c, e.Present c ∧ (Filter.present path).condition r = .ok c := by
  have hleaf : (Filter.present path).condition r
      = (Filter.present path).leafCondition r false := rfl
  rw [hleaf, Filter.leafCondition]
  rcases operand_ok h with ⟨name, hp, hname, rfl⟩ | ⟨keys, last, hp, hkeys, rfl⟩
  · refine ⟨_, .column name, ?_⟩
    rw [hp, if_pos rfl, hname]
    rfl
  · refine ⟨_, .json r.base keys last, ?_⟩
    rw [hp, if_neg Bool.false_ne_true, splitParent_eq hkeys]
    rfl

/-! ### Values beside a path -/

theorem jsonText_of_written {v : Value} (h : ∃ text, Json.encode v = .ok text) :
    ∃ bound, jsonText v = .ok bound := by
  obtain ⟨text, htext⟩ := h
  exact ⟨.str text, jsonText_eq_ok.2 ⟨text, htext, rfl⟩⟩

/-- A value that can be written is bound beside every path. -/
theorem bind_of_written (r : Resolver) (path : String) {v : Value}
    (h : ∃ text, Json.encode v = .ok text) : ∃ bound, r.bind v path = .ok bound := by
  unfold bind
  by_cases hp : r.encodes path = true
  · rw [if_pos hp]
    exact jsonText_of_written h
  · rw [if_neg hp]
    exact ⟨v, rfl⟩

/-- A list can be written if its only element can. -/
theorem written_singleton {v : Value} (h : ∃ text, Json.encode v = .ok text) :
    ∃ text, Json.encode (.list [v]) = .ok text := by
  obtain ⟨text, htext⟩ := h
  obtain ⟨item, hitem, -⟩ := Json.encode_eq_ok.1 htext
  exact ⟨_, Json.encode_singleton.2 ⟨item, hitem, rfl⟩⟩

theorem bindValues_of_written (r : Resolver) (path : String) {values : List Value}
    (h : ∀ v ∈ values, ∃ text, Json.encode v = .ok text) :
    ∃ bounds, Filter.bindValues r path values = .ok bounds ∧ bounds.length = values.length := by
  induction values with
  | nil => exact ⟨[], rfl, rfl⟩
  | cons v values ih =>
    obtain ⟨bound, hbound⟩ := bind_of_written r path (h v List.mem_cons_self)
    obtain ⟨bounds, hbounds, hlength⟩ := ih fun w hw => h w (List.mem_cons_of_mem v hw)
    refine ⟨bound :: bounds, ?_, by simp [hlength]⟩
    rw [Filter.bindValues, hbound, hbounds]
    rfl

theorem placeholders_congr {values bounds : List Value} (h : bounds.length = values.length)
    (number : Nat) : placeholders number bounds = placeholders number values := by
  rw [placeholders, placeholders, h]

/-- A set test that is not empty speaks of its operand. -/
theorem printAmong_text {values bounds : List Value} (hne : values ≠ [])
    (h : bounds.length = values.length) (negated : Bool) (number : Nat) :
    (printAmong e bounds negated number).text
      = e.text
        ++ ((if negated then " NOT IN(" else " IN(") ++ placeholders number values ++ ")") := by
  have hbounds : bounds.isEmpty = false := by
    cases bounds with
    | nil => exact absurd (List.length_eq_zero_iff.1 h.symm) hne
    | cons => rfl
  unfold printAmong
  rw [hbounds, if_neg Bool.false_ne_true, placeholders_congr h]
  simp only [String.append_assoc]

/-- A filter that holds the field against values speaks of what the path stands for. -/
theorem filters_addressed (h : r.operand path = .ok e) {f : Filter} {values : List Value}
    {rest : Nat → String} (hf : f.Compares path values rest)
    (hvalues : ∀ v ∈ values, ∃ text, Json.encode v = .ok text) :
    ∃ c : Condition, f.condition r = .ok c ∧
      ∀ number, (c.print number).text = e.text ++ rest number := by
  have hoperand : refuse (r.operand path) = .ok e := refuse_eq_ok.2 h
  cases hf with
  | compare comparison value =>
    obtain ⟨bound, hbound⟩ := bind_of_written r path
      (hvalues value List.mem_cons_self)
    refine ⟨.test e comparison.operator bound,
      bind_eq_ok.2 ⟨e, hoperand, bind_eq_ok.2 ⟨bound, hbound, rfl⟩⟩, fun number => ?_⟩
    show e.text ++ " " ++ _ ++ " " ++ _ = _
    simp only [String.append_assoc]
  | contains element =>
    obtain ⟨bound, hbound⟩ := jsonText_of_written
      (written_singleton (hvalues element List.mem_cons_self))
    refine ⟨.test e .contains bound,
      bind_eq_ok.2 ⟨e, hoperand, bind_eq_ok.2 ⟨bound, hbound, rfl⟩⟩, fun number => ?_⟩
    show e.text ++ " " ++ "@>" ++ " " ++ _ = _
    simp only [String.append_assoc]
    rfl
  | oneOf hne =>
    obtain ⟨bounds, hbounds, hlength⟩ := bindValues_of_written r path hvalues
    exact ⟨.among e bounds false, bind_eq_ok.2 ⟨e, hoperand, bind_eq_ok.2 ⟨bounds, hbounds, rfl⟩⟩,
      printAmong_text hne hlength false⟩
  | noneOf hne =>
    obtain ⟨bounds, hbounds, hlength⟩ := bindValues_of_written r path hvalues
    exact ⟨.among e bounds true, bind_eq_ok.2 ⟨e, hoperand, bind_eq_ok.2 ⟨bounds, hbounds, rfl⟩⟩,
      printAmong_text hne hlength true⟩

/-- The keys of an index are on what the path stands for. -/
theorem keyedOn (i : Index) (h : (i.resolver r).operand path = .ok e) : i.KeyedOn r path e := by
  intro table unique fields hcovers hothers
  have haccepts : ∀ g ∈ fields, (i.resolver r).Accepts g.field := by
    intro g hg
    by_cases hpath : g.field = path
    · exact ⟨e, hpath ▸ h⟩
    · exact hothers g hg hpath
  obtain ⟨keys, hkeys, hok⟩ := hcovers.statements_ok table haccepts
  have hon : List.Forall₂ (fun (g : FieldIndex) (k : IndexKey) =>
      (g.field = path → k.operand = e) ∧ (k.descending = true ↔ g.direction = .desc))
      fields keys := by
    refine hkeys.imp fun g k hk => ⟨fun hpath => ?_, hk.descending⟩
    have hoperand := hk.operand
    rw [hpath, h] at hoperand
    exact (Except.ok.inj hoperand).symm
  cases i with
  | plain p => exact ⟨[], keys, hok, hon⟩
  | promoted p => exact ⟨[_], keys, bind_eq_ok.2 ⟨_, hok, rfl⟩, hon⟩

/-- The list of columns has an item for what the path stands for. -/
theorem items_addressed (h : r.operand path = .ok e) :
    ∃ item, e.Item item ∧ Selection.itemText r path = .ok item := by
  unfold Selection.itemText
  rw [h]
  rcases operand_ok h with ⟨name, hp, -, rfl⟩ | ⟨keys, last, hp, -, rfl⟩
  · exact ⟨_, .column name, by rw [hp]; rfl⟩
  · exact ⟨_, .json r.base (keys ++ [last]), by rw [hp]; rfl⟩

/-- **A path that is accepted stands for one operand in every use.** -/
theorem addresses_of_operand (h : r.operand path = .ok e) : r.Addresses path e where
  filters f values rest hf hvalues := by
    obtain ⟨c, hc, htext⟩ := filters_addressed h hf hvalues
    refine ⟨c, hc, ?_, htext⟩
    rw [Filter.clause_of_condition hc, htext 0]
  patterns := patterns_addressed h
  presence := presence_addressed h
  orders d := by
    constructor
    · rw [Order.sortKeys, h]
      rfl
    · simp [orderByText, SortKey.text, String.append_assoc]
  indexes i := keyedOn (.plain i) h
  items := by
    obtain ⟨item, hitem, htext⟩ := items_addressed h
    refine ⟨item, hitem, fun name hname => ?_⟩
    have hfree : ∀ entry ∈ [(⟨name, path⟩ : Selection.Entry)],
        ¬ Selection.LooksLikeLabel entry.aliasName := by simpa using hname
    rw [Selection.listText_of_free hfree]
    show (Selection.itemTexts r [⟨⟨name, path⟩, _⟩]).map _ = _
    rw [Selection.itemTexts, htext]
    rfl

/-- **Filters, orders, indexes and select lists agree on every path.** All of them refuse it for one
cause, or all of them speak of one operand; and so they do with promotion, where a field of an index
with promoted columns has the same operand whatever the setting of the store is. -/
theorem one_operand (r : Resolver) (path : String) :
    ((∃ c, r.Refuses path c) ∨ ∃ e, r.Addresses path e) ∧
    ((∃ c, Refuses { promote := true } path c ∧
        ∀ i : PromotedIndex, (Index.promoted i).RefusedOn r path c) ∨
      ∃ e, Addresses { promote := true } path e ∧
        ∀ i : PromotedIndex, (Index.promoted i).KeyedOn r path e) := by
  constructor
  · cases h : r.operand path with
    | error c => exact .inl ⟨c, refuses_of_operand h⟩
    | ok e => exact .inr ⟨e, addresses_of_operand h⟩
  · cases h : operand { promote := true } path with
    | error c => exact .inl ⟨c, refuses_of_operand h, fun i => refusedOn (.promoted i) h⟩
    | ok e => exact .inr ⟨e, addresses_of_operand h, fun i => keyedOn (.promoted i) h⟩

end Resolver

end Docbase
