import Docbase.Proofs.Field.Faults
import Docbase.Proofs.Json.Unwritable

/-!
# The first fault of a filter

A filter is taken exactly if there is nothing wrong with any of its nodes. Otherwise it is refused
for the first node with a fault, from left to right and a node before its parts, and for nothing
that comes later.

* `Filter.nodes`: the nodes of a tree in that order.
* `Filter.Fault`: what is wrong with a node itself, and how it is reported.
* `condition_error_iff_first`: **a filter is refused for the first of its faults**.
* `Filter.WellFormed`: the filters without faults, in terms of their nodes.
* `clause_decided`: the two outcomes of a filter in a statement.
-/

namespace Docbase

open Sql

/-- The category under which an error is reported, if it has one. -/
def Error.category? : Error → Option Category
  | .refused c => some c.report.category
  | _ => none

/-! ## Values -/

namespace Resolver

variable {r : Resolver} {path : String}

/-- A value is refused for the first place in it that is not written. -/
theorem jsonText_error_iff {v : Value} {x : Error} : jsonText v = .error x ↔
    ∃ o, FirstFailure Json.Place.Blocks (Json.places v) o ∧ .misuse o.misuse = x := by
  simp only [jsonText_eq_error, Json.encode_error_iff]

theorem jsonText_isError_iff {v : Value} : (∃ x, jsonText v = .error x) ↔ Json.Unwritable v := by
  rw [← Json.encode_isError_iff]
  simp only [jsonText_eq_error]
  exact ⟨fun ⟨_, o, ho, _⟩ => ⟨o, ho⟩, fun ⟨o, ho⟩ => ⟨_, o, ho, rfl⟩⟩

/-- A value is bound beside a path unless it has no JSON text and needs one. -/
theorem bind_error_iff {v : Value} :
    (∃ x, r.bind v path = .error x) ↔ r.isPromoted path = false ∧ Json.Unwritable v := by
  rw [← jsonText_isError_iff]
  unfold bind encodes
  cases r.isPromoted path with
  | true => simp
  | false => simp

end Resolver

/-- A value that should be bound as JSON text has none, for the first place in it that is not
written. -/
inductive Binding.Fails : Binding → Error → Prop
  | json {v : Value} {o : Json.Obstacle} :
      FirstFailure Json.Place.Blocks (Json.places v) o → Fails (.json v) (.misuse o.misuse)

theorem jsonFails_iff {v : Value} {x : Error} :
    Resolver.jsonText v = .error x ↔ (Binding.json v).Fails x := by
  rw [Resolver.jsonText_error_iff]
  constructor
  · rintro ⟨o, ho, rfl⟩
    exact .json ho
  · rintro ⟨ho⟩
    exact ⟨_, ho, rfl⟩

/-- Values are refused as what they are, and not as parts of a declaration. -/
theorem firstBinding_misuse {bs : List Binding} {x : Error} (h : FirstFailure Binding.Fails bs x) :
    ∃ m, x = .misuse m := by
  obtain ⟨before, b, after, -, -, hb⟩ := h
  cases hb with
  | json => exact ⟨_, rfl⟩

theorem firstBinding_iff {bs : List Binding} :
    (∃ x, FirstFailure Binding.Fails bs x) ↔ ∃ v, .json v ∈ bs ∧ Json.Unwritable v := by
  rw [FirstFailure.exists_iff]
  constructor
  · rintro ⟨b, hb, x, hx⟩
    cases hx with
    | json hv => exact ⟨_, hb, Resolver.jsonText_isError_iff.1 ⟨_, jsonFails_iff.2 (.json hv)⟩⟩
  · rintro ⟨v, hv, hbad⟩
    obtain ⟨x, hx⟩ := Resolver.jsonText_isError_iff.2 hbad
    exact ⟨_, hv, x, jsonFails_iff.1 hx⟩

/-! ## Nodes -/

namespace Filter

variable {r : Resolver} {f : Filter} {x : Error}

/-- The nodes of a filter from left to right, a node before its parts. -/
def nodes : Filter → List Filter
  | both a b => both a b :: (a.nodes ++ b.nodes)
  | either a b => either a b :: (a.nodes ++ b.nodes)
  | negate a => negate a :: a.nodes
  | f => [f]

/-- The filter is a node without filters under it, and not the one for every document. -/
def isLeaf : Filter → Bool
  | any | both .. | either .. | negate _ => false
  | _ => true

/-- The filter is put together from other filters. -/
def isComposite : Filter → Bool
  | both .. | either .. | negate _ => true
  | _ => false

/-- What is wrong with a node itself, the category under which it is reported, and the error. The
path of a leaf comes before its values, and these count from the first one on. -/
inductive Fault (r : Resolver) : Filter → Option Category → Error → Prop
  /-- The filter for every document is part of another. -/
  | nestedAny : Fault r .any (some .configuration) (.refused .nestedAny)
  /-- More than a leaf is negated. -/
  | negation {a : Filter} : a.isComposite = true →
      Fault r (.negate a) (some .configuration) (.refused (.negatedComposite a.typeName))
  | unknown (typeName : String) :
      Fault r (.unknown typeName) (some .unsupportedFilter) (.refused (.unknownFilter typeName))
  | path {f : Filter} {path : String} {k : Category} {c : Cause} :
      f.IsOn path → r.PathFault path k c → Fault r f (some k) (.refused c)
  | value {f : Filter} {path : String} {x : Error} :
      f.IsOn path → r.WellFormed path → FirstFailure Binding.Fails (f.bindings r) x →
      Fault r f none x

theorem Fault.category {k : Option Category} (h : Fault r f k x) : x.category? = k := by
  cases h with
  | nestedAny | negation | unknown => rfl
  | path _ hpath => exact congrArg some hpath.category
  | value _ _ hfirst =>
    obtain ⟨m, rfl⟩ := firstBinding_misuse hfirst
    rfl

/-- The fault of a node, with the category that its error has. -/
def Fails (r : Resolver) (f : Filter) (x : Error) : Prop := Fault r f x.category? x

theorem fails_iff : f.Fails r x ↔ ∃ k, Fault r f k x := by
  constructor
  · exact fun h => ⟨_, h⟩
  · rintro ⟨k, h⟩
    rwa [Fails, h.category]

/-- Whatever is wrong with a node has nothing to do with the database. -/
theorem Fails.isRejection (h : f.Fails r x) : x.isRejection = true := by
  obtain ⟨k, hfault⟩ := fails_iff.1 h
  cases hfault with
  | nestedAny | negation | unknown => rfl
  | path _ hpath => simp [Error.isRejection, hpath.isConnection]
  | value _ _ hfirst =>
    obtain ⟨m, rfl⟩ := firstBinding_misuse hfirst
    rfl

/-! ## Leaves -/

theorem bind_fails_iff {path : String} {v : Value} :
    r.bind v path = .error x ↔ (bindingAt r path v).Fails x := by
  unfold Resolver.bind Resolver.encodes bindingAt
  cases r.isPromoted path with
  | true => exact iff_of_false nofun nofun
  | false => exact jsonFails_iff

/-- Values are bound one by one, and the first without a text says why they are not. -/
theorem bindValues_fails_iff {path : String} {vs : List Value} :
    bindValues r path vs = .error x ↔
      FirstFailure Binding.Fails (vs.map (bindingAt r path)) x := by
  induction vs with
  | nil => exact iff_of_false nofun FirstFailure.not_nil
  | cons v vs ih =>
    have hok : (∃ bound, r.bind v path = .ok bound) ↔ ∀ y, ¬ (bindingAt r path v).Fails y := by
      simp only [← bind_fails_iff]
      cases r.bind v path <;> simp
    rw [bindValues, bind_eq_error, bind_fails_iff, List.map_cons, FirstFailure.cons_iff, ← ih, ← hok]
    simp only [map_eq_error, exists_and_right]

/-- Behind a path with a meaning the values of a leaf decide. -/
theorem IsOn.leafCondition_iff {path : String} {e : Operand} (hon : f.IsOn path)
    (h : r.operand path = .ok e) (negated : Bool) :
    f.leafCondition r negated = .error x ↔ FirstFailure Binding.Fails (f.bindings r) x := by
  -- the path is accepted, so that the rest of the work decides
  have hnext : ∀ {α : Type} {next : Operand → Except Error α},
      (refuse (r.operand path) >>= next) = next e := by
    intro α next
    rw [h]
    rfl
  cases hon with
  | compare comparison value =>
    rw [leafCondition, hnext, map_eq_error, bind_fails_iff, bindings, FirstFailure.singleton_iff]
  | like pattern =>
    obtain ⟨e', -, htext⟩ := Resolver.textOperand_ok h
    rw [leafCondition, htext, bindings, FirstFailure.singleton_iff]
    constructor <;> intro h <;> cases h
  | contains element =>
    rw [leafCondition, hnext, map_eq_error, bindings, FirstFailure.singleton_iff]
    exact jsonFails_iff
  | present =>
    obtain ⟨c, -, hc⟩ := Resolver.presence_addressed h
    have hok : (Filter.present path).leafCondition r negated = .ok c := hc
    have hne : (Except.ok c : Except Error Condition) ≠ .error x := by simp
    rw [hok, bindings]
    exact iff_of_false hne FirstFailure.not_nil
  | oneOf values =>
    rw [leafCondition, hnext, map_eq_error, bindValues_fails_iff, bindings]

theorem IsOn.unique {path other : String} (h : f.IsOn path) (h' : f.IsOn other) :
    path = other := by
  cases h <;> cases h' <;> rfl

/-- What can be wrong with a leaf on a path. -/
theorem IsOn.fails_iff {path : String} (hon : f.IsOn path) :
    f.Fails r x ↔ (∃ k c, r.PathFault path k c ∧ .refused c = x) ∨
      (r.WellFormed path ∧ FirstFailure Binding.Fails (f.bindings r) x) := by
  rw [Filter.fails_iff]
  constructor
  · rintro ⟨k, h⟩
    cases h with
    | nestedAny | negation | unknown => cases hon
    | path hon' hpath => exact .inl ⟨_, _, hon.unique hon' ▸ hpath, rfl⟩
    | value hon' hwell hfirst => exact .inr ⟨hon.unique hon' ▸ hwell, hfirst⟩
  · rintro (⟨k, c, hpath, rfl⟩ | ⟨hwell, hfirst⟩)
    · exact ⟨_, .path hon hpath⟩
    · exact ⟨_, .value hon hwell hfirst⟩

/-- **A leaf is refused for what is wrong with it.** -/
theorem leafCondition_error_iff (hleaf : f.isLeaf = true) (negated : Bool) :
    f.leafCondition r negated = .error x ↔ f.Fails r x := by
  -- a leaf on a path is refused for the path, or else for its values
  have hpath : ∀ {path}, f.IsOn path → (f.leafCondition r negated = .error x ↔ f.Fails r x) := by
    intro path hon
    rw [hon.fails_iff]
    cases h : r.operand path with
    | error c =>
      obtain ⟨k, hfault⟩ := Resolver.operand_error_iff.1 h
      have hnot : ¬ r.WellFormed path := fun hwell => Resolver.wellFormed_iff.1 hwell k c hfault
      rw [Resolver.leafCondition_error hon h]
      constructor
      · rintro ⟨⟩
        exact .inl ⟨k, c, hfault, rfl⟩
      · rintro (⟨k', c', hfault', rfl⟩ | ⟨hwell, -⟩)
        · have h' := Resolver.operand_error_iff.2 ⟨k', hfault'⟩
          rw [h] at h'
          cases h'
          rfl
        · exact absurd hwell hnot
    | ok e =>
      have hwell : r.WellFormed path := Resolver.accepts_iff.1 ⟨e, h⟩
      have hnone : ¬ ∃ k c, r.PathFault path k c ∧ Error.refused c = x := fun ⟨k, c, hfault, _⟩ =>
        Resolver.wellFormed_iff.1 hwell k c hfault
      rw [hon.leafCondition_iff h, or_iff_right hnone]
      exact (and_iff_right hwell).symm
  cases f with
  | any | both | either | negate => cases hleaf
  | compare | like | contains | present | oneOf => exact hpath (by constructor)
  | id | idIn =>
    rw [fails_iff]
    refine iff_of_false nofun ?_
    rintro ⟨k, h⟩
    cases h with
    | path hon | value hon => cases hon
  | unknown typeName =>
    rw [fails_iff]
    constructor
    · rintro ⟨⟩
      exact ⟨_, .unknown typeName⟩
    · rintro ⟨k, h⟩
      cases h with
      | unknown => rfl
      | path hon | value hon => cases hon

/-! ## Trees -/

/-- The node of a conjunction or disjunction has no fault of its own. -/
theorem not_fails_join {a b : Filter} :
    (∀ x, ¬ (both a b).Fails r x) ∧ ∀ x, ¬ (either a b).Fails r x := by
  constructor <;>
  · intro x h
    obtain ⟨k, h⟩ := fails_iff.1 h
    cases h with
    | path hon | value hon => cases hon

/-- The node of a negation is at fault exactly if more than a leaf is negated. -/
theorem negate_fails_iff {a : Filter} :
    (negate a).Fails r x ↔
      a.isComposite = true ∧ .refused (.negatedComposite a.typeName) = x := by
  rw [fails_iff]
  constructor
  · rintro ⟨k, h⟩
    cases h with
    | negation ha => exact ⟨ha, rfl⟩
    | path hon | value hon => cases hon
  · rintro ⟨ha, rfl⟩
    exact ⟨_, .negation ha⟩

theorem any_fails_iff : any.Fails r x ↔ .refused .nestedAny = x := by
  rw [fails_iff]
  constructor
  · rintro ⟨k, h⟩
    cases h with
    | nestedAny => rfl
    | path hon | value hon => cases hon
  · rintro rfl
    exact ⟨_, .nestedAny⟩

theorem isComposite_of_leaf (h : f.isLeaf = true) : f.isComposite = false := by
  cases f with
  | any | both | either | negate => cases h
  | compare | like | contains | present | id | idIn | oneOf | unknown => rfl

theorem nodes_of_single (h : f.isComposite = false) : f.nodes = [f] := by
  cases f with
  | both | either | negate => cases h
  | any | compare | like | contains | present | id | idIn | oneOf | unknown => rfl

/-- A composite is not negated, whatever is wrong with its parts. -/
theorem negate_composite {a : Filter} (h : a.isComposite = true) :
    (negate a).condition r = .error (.refused (.negatedComposite a.typeName)) := by
  cases a with
  | both | either | negate => rfl
  | any | compare | like | contains | present | id | idIn | oneOf | unknown => cases h

/-- Anything else is negated unless there is something wrong with it. -/
theorem negate_single_error_iff {a : Filter} (h : a.isComposite = false) :
    (negate a).condition r = .error x ↔ a.Fails r x := by
  cases a with
  | both | either | negate => cases h
  | any =>
    rw [any_fails_iff]
    exact ⟨Except.error.inj, congrArg _⟩
  | idIn | oneOf => exact leafCondition_error_iff rfl true
  | compare | like | contains | present | id | unknown =>
    rw [← leafCondition_error_iff rfl false]
    exact map_eq_error

/-- **A filter is refused for the first of its faults**, from left to right and a node before its
parts. -/
theorem condition_error_iff_first :
    f.condition r = .error x ↔ FirstFailure (Fails r) f.nodes x := by
  induction f generalizing x with
  | any =>
    have hnodes : any.nodes = [any] := rfl
    rw [hnodes, FirstFailure.singleton_iff, any_fails_iff]
    exact ⟨Except.error.inj, congrArg _⟩
  | both a b iha ihb =>
    have hnode : ¬ (both a b).Fails r x := not_fails_join.1 x
    rw [nodes, FirstFailure.cons_iff, or_iff_right hnode, and_iff_right not_fails_join.1,
      condition, FirstFailure.both_iff (fun _ => iha) fun _ => ihb]
  | either a b iha ihb =>
    have hnode : ¬ (either a b).Fails r x := not_fails_join.2 x
    rw [nodes, FirstFailure.cons_iff, or_iff_right hnode, and_iff_right not_fails_join.2,
      condition, FirstFailure.both_iff (fun _ => iha) fun _ => ihb]
  | negate a ih =>
    rw [nodes, FirstFailure.cons_iff, negate_fails_iff]
    cases ha : a.isComposite with
    | true =>
      rw [negate_composite ha]
      constructor
      · rintro ⟨⟩
        exact .inl ⟨rfl, rfl⟩
      · rintro (⟨-, rfl⟩ | ⟨hnone, -⟩)
        · rfl
        · exact absurd (negate_fails_iff.2 ⟨ha, rfl⟩) (hnone _)
    | false =>
      have hnode : ∀ y, ¬ (negate a).Fails r y := fun y hy => by
        simp [negate_fails_iff, ha] at hy
      rw [nodes_of_single ha, FirstFailure.singleton_iff, ← negate_single_error_iff ha]
      simp [hnode]
  | compare | like | contains | present | id | idIn | oneOf | unknown =>
    rw [nodes_of_single rfl, FirstFailure.singleton_iff, ← leafCondition_error_iff rfl false]
    rfl

/-! ## Filters without faults -/

/-- There is nothing wrong with a filter. -/
structure WellFormed (r : Resolver) (f : Filter) : Prop where
  /-- The filter for every document is not among the nodes. -/
  noAny : .any ∉ f.nodes
  /-- No conjunction, disjunction or negation is negated. -/
  negations : ∀ a, .negate a ∈ f.nodes → a.isComposite = false
  /-- Every node has a meaning. -/
  known : ∀ name, .unknown name ∉ f.nodes
  /-- So has every path, also that of a set test without values. -/
  paths : ∀ g ∈ f.nodes, ∀ path, g.IsOn path → r.WellFormed path
  /-- Every value that is bound as JSON text has one. -/
  values : ∀ g ∈ f.nodes, ∀ path, g.IsOn path → ∀ v, .json v ∈ g.bindings r → ¬ Json.Unwritable v

/-- A path without a meaning is a fault of its leaf. -/
theorem IsOn.fails_of_path {path : String} (hon : f.IsOn path) (h : ¬ r.WellFormed path) :
    ∃ x, f.Fails r x := by
  rw [Resolver.wellFormed_iff] at h
  push Not at h
  obtain ⟨k, c, hpath⟩ := h
  exact ⟨_, hon.fails_iff.2 (.inl ⟨k, c, hpath, rfl⟩)⟩

/-- A value without a text is one too, unless the path is one already. -/
theorem IsOn.fails_of_value {path : String} {v : Value} (hon : f.IsOn path)
    (hv : .json v ∈ f.bindings r) (hbad : Json.Unwritable v) : ∃ x, f.Fails r x := by
  by_cases hwell : r.WellFormed path
  · obtain ⟨x, hfirst⟩ := firstBinding_iff.2 ⟨v, hv, hbad⟩
    exact ⟨x, hon.fails_iff.2 (.inr ⟨hwell, hfirst⟩)⟩
  · exact hon.fails_of_path hwell

/-- Nothing is wrong with a filter exactly if no node is at fault. -/
theorem wellFormed_iff : f.WellFormed r ↔ ∀ g ∈ f.nodes, ∀ x, ¬ g.Fails r x := by
  constructor
  · intro h g hg x hfails
    obtain ⟨k, hfault⟩ := fails_iff.1 hfails
    cases hfault with
    | nestedAny => exact h.noAny hg
    | negation ha => simp [h.negations _ hg] at ha
    | unknown name => exact h.known name hg
    | path hon hpath => exact Resolver.wellFormed_iff.1 (h.paths g hg _ hon) _ _ hpath
    | value hon _ hfirst =>
      obtain ⟨v, hv, hbad⟩ := firstBinding_iff.1 ⟨x, hfirst⟩
      exact h.values g hg _ hon v hv hbad
  · intro h
    have hnone : ∀ {g k x}, g ∈ f.nodes → ¬ Fault r g k x := fun hg hfault =>
      h _ hg _ (fails_iff.2 ⟨_, hfault⟩)
    have hpaths : ∀ g ∈ f.nodes, ∀ path, g.IsOn path → r.WellFormed path := fun g hg path hon =>
      Resolver.wellFormed_iff.2 fun k c hpath => hnone hg (.path hon hpath)
    refine ⟨fun hg => hnone hg .nestedAny, ?_, fun name hg => hnone hg (.unknown name), hpaths, ?_⟩
    · intro a hg
      by_contra ha
      exact hnone hg (.negation (by simpa using ha))
    · intro g hg path hon v hv hbad
      obtain ⟨x, hfirst⟩ := firstBinding_iff.2 ⟨v, hv, hbad⟩
      exact hnone hg (.value hon (hpaths g hg path hon) hfirst)

/-! ## In a statement -/

theorem clause_eq (hf : f ≠ .any) :
    f.clause r =
      (do let c ← f.condition r; pure ⟨some (c.print 0).text, (c.print 0).params⟩) := by
  cases f with
  | any => exact absurd rfl hf
  | both | either | negate | compare | like | contains | present | id | idIn | oneOf | unknown => rfl

theorem clause_error_iff :
    f.clause r = .error x ↔ f ≠ .any ∧ FirstFailure (Fails r) f.nodes x := by
  by_cases hf : f = .any
  · subst hf
    have hok : any.clause r = .ok ⟨none, []⟩ := rfl
    simp [hok]
  · rw [clause_eq hf, map_eq_error, condition_error_iff_first, and_iff_right hf]

/-- **The two outcomes of a filter in a statement.** The filter for every document and the filters
without faults have a clause. Any other filter is refused for the first node that is at fault, from
left to right and a node before its parts: for its path before its values, and for its values from
the first one on. -/
theorem clause_decided (r : Resolver) (f : Filter) :
    ((∃ cl, f.clause r = .ok cl) ↔ f = .any ∨ f.WellFormed r) ∧
      ∀ x, f.clause r = .error x ↔ f ≠ .any ∧ FirstFailure (Fails r) f.nodes x := by
  refine ⟨?_, fun x => clause_error_iff⟩
  by_cases hf : f = .any
  · subst hf
    have hok : any.clause r = .ok ⟨none, []⟩ := rfl
    simp [hok]
  · have hok : (∃ cl, f.clause r = .ok cl) ↔ ∃ c, f.condition r = .ok c := by
      rw [clause_eq hf]
      cases f.condition r <;> simp [pure, Except.pure, bind, Except.bind]
    rw [hok, or_iff_right hf, wellFormed_iff, FirstFailure.ok_iff fun _ => condition_error_iff_first]

/-- The negation is to blame and not the empty path in it, which comes before the node without a
meaning. -/
example :
    (both (negate (both (present "") any)) (unknown "RegexFilter")).clause .plain =
      .error (.refused (.negatedComposite "AndFilter")) := rfl

end Filter

end Docbase
