import Docbase.Proofs.Filter.Faults

/-!
# Filters that are refused

A filter has no condition because of one place in its tree: a path that is no path, a value that
cannot be bound, a node without a meaning, or the filter for every document where it has none. How
deep that place is in the tree does not matter.

* `LeafFlawed`, `Flawed`: the places that are to blame, for leaves and for trees.
* `flawed_iff`: they are the nodes with a fault.
* `clauseOf_error_iff`: **exactly what has such a place is refused where a filter is due**.
* `clauseOf_rejects`: it is refused for what it is.
-/

namespace Docbase

open Sql

namespace Filter

variable {r : Resolver} {f : Filter}

/-! ## Leaves -/

/-- A leaf holds something that cannot be put into SQL. -/
inductive LeafFlawed (r : Resolver) : Filter → Prop
  /-- Its path is no path. -/
  | path {f : Filter} {path : String} : f.IsOn path → ¬ r.Accepts path → LeafFlawed r f
  /-- Its value is to be bound as JSON text and has none. -/
  | compare {comparison : Comparison} {path : String} {value : Value} :
      r.isPromoted path = false → Json.Unwritable value →
      LeafFlawed r (.compare comparison path value)
  | contains {path : String} {element : Value} :
      Json.Unwritable element → LeafFlawed r (.contains path element)
  | oneOf {path : String} {values : List Value} {v : Value} :
      r.isPromoted path = false → v ∈ values → Json.Unwritable v →
      LeafFlawed r (.oneOf path values)
  /-- It has no meaning. -/
  | unknown (typeName : String) : LeafFlawed r (.unknown typeName)

theorem LeafFlawed.isLeaf (h : LeafFlawed r f) : f.isLeaf = true := by
  cases h with
  | path hon => cases hon <;> rfl
  | compare | contains | oneOf | unknown => rfl

/-- A value beside a path is bound as JSON text unless the path is promoted. -/
theorem json_eq_bindingAt_iff {path : String} {v w : Value} :
    .json v = bindingAt r path w ↔ r.isPromoted path = false ∧ v = w := by
  unfold bindingAt
  cases r.isPromoted path <;> simp

/-- A leaf that holds such a thing has a fault. -/
theorem LeafFlawed.fails (h : LeafFlawed r f) : ∃ x, f.Fails r x := by
  cases h with
  | path hon hpath =>
    rw [Resolver.accepts_iff] at hpath
    exact hon.fails_of_path hpath
  | @compare comparison path value hp hbad =>
    have hv : .json value ∈ (Filter.compare comparison path value).bindings r :=
      List.mem_singleton.2 (json_eq_bindingAt_iff.2 ⟨hp, rfl⟩)
    exact (IsOn.compare comparison value).fails_of_value hv hbad
  | contains hbad =>
    exact (IsOn.contains _).fails_of_value List.mem_cons_self
      (.listed (List.mem_singleton_self _) hbad)
  | @oneOf path values v hp hv hbad =>
    have hv : .json v ∈ (Filter.oneOf path values).bindings r :=
      List.mem_map.2 ⟨v, hv, (json_eq_bindingAt_iff.2 ⟨hp, rfl⟩).symm⟩
    exact (IsOn.oneOf values).fails_of_value hv hbad
  | unknown typeName => exact ⟨_, fails_iff.2 ⟨_, .unknown typeName⟩⟩

/-- A leaf with a fault holds what is to blame. -/
theorem flawed_of_fails {x : Error} (hleaf : f.isLeaf = true) (h : f.Fails r x) :
    LeafFlawed r f := by
  obtain ⟨k, hfault⟩ := fails_iff.1 h
  cases hfault with
  | nestedAny | negation => cases hleaf
  | unknown typeName => exact .unknown typeName
  | path hon hpath =>
    refine .path hon fun haccepts => ?_
    exact Resolver.wellFormed_iff.1 (Resolver.accepts_iff.1 haccepts) _ _ hpath
  | value hon _ hfirst =>
    obtain ⟨v, hv, hbad⟩ := firstBinding_iff.1 ⟨x, hfirst⟩
    cases hon with
    | compare comparison value =>
      obtain ⟨hp, rfl⟩ := json_eq_bindingAt_iff.1 (List.mem_singleton.1 hv)
      exact .compare hp hbad
    | like | present => simp [bindings] at hv
    | contains element =>
      have hlist : v = .list [element] := by simpa [bindings] using hv
      subst hlist
      cases hbad with
      | leaf hleaf => cases hleaf
      | listed hv hbad =>
        rw [List.mem_singleton.1 hv] at hbad
        exact .contains hbad
    | oneOf values =>
      obtain ⟨w, hw, hb⟩ := List.mem_map.1 hv
      obtain ⟨hp, rfl⟩ := json_eq_bindingAt_iff.1 hb.symm
      exact .oneOf hp hw hbad

/-! ## Trees -/

/-- Somewhere in the tree is a place that is to blame. -/
inductive Flawed (r : Resolver) : Filter → Prop
  /-- The filter for every document, where a condition is due. -/
  | any : Flawed r .any
  | bothLeft {a b : Filter} : Flawed r a → Flawed r (.both a b)
  | bothRight {a b : Filter} : Flawed r b → Flawed r (.both a b)
  | eitherLeft {a b : Filter} : Flawed r a → Flawed r (.either a b)
  | eitherRight {a b : Filter} : Flawed r b → Flawed r (.either a b)
  /-- The negation of what is no leaf. -/
  | negated {a : Filter} : a.isLeaf = false → Flawed r (.negate a)
  | negatedLeaf {a : Filter} : LeafFlawed r a → Flawed r (.negate a)
  | leaf {a : Filter} : LeafFlawed r a → Flawed r a

/-- A place that is to blame is a node with a fault. -/
theorem Flawed.node (h : Flawed r f) : ∃ g ∈ f.nodes, ∃ x, g.Fails r x := by
  -- a node of a part is a node of the whole
  have hinside : ∀ {a f : Filter}, (∀ g ∈ a.nodes, g ∈ f.nodes) →
      (∃ g ∈ a.nodes, ∃ x, g.Fails r x) → ∃ g ∈ f.nodes, ∃ x, g.Fails r x := by
    rintro a f hsub ⟨g, hg, hx⟩
    exact ⟨g, hsub g hg, hx⟩
  induction h with
  | any => exact ⟨_, List.mem_singleton_self _, _, any_fails_iff.2 rfl⟩
  | bothLeft _ ih | eitherLeft _ ih | bothRight _ ih | eitherRight _ ih =>
    refine hinside (fun g hg => ?_) ih
    simp [nodes, hg]
  | @negated a ha =>
    cases a with
    | any => exact ⟨.any, by simp [nodes], _, any_fails_iff.2 rfl⟩
    | both | either | negate =>
      exact ⟨_, List.mem_cons_self, _, negate_fails_iff.2 ⟨rfl, rfl⟩⟩
    | compare | like | contains | present | id | idIn | oneOf | unknown => cases ha
  | @negatedLeaf a ha =>
    have hnodes : a.nodes = [a] := nodes_of_single (isComposite_of_leaf ha.isLeaf)
    exact ⟨a, by simp [nodes, hnodes], ha.fails⟩
  | @leaf a ha =>
    have hnodes : a.nodes = [a] := nodes_of_single (isComposite_of_leaf ha.isLeaf)
    exact ⟨a, by simp [hnodes], ha.fails⟩

/-- A node with a fault is to blame for all that it is in. -/
theorem flawed_of_node {g : Filter} {x : Error} (hg : g ∈ f.nodes) (h : g.Fails r x) :
    Flawed r f := by
  induction f with
  | any => exact .any
  | both a b iha ihb =>
    rcases List.mem_cons.1 hg with rfl | hg
    · exact absurd h (not_fails_join.1 x)
    · rcases List.mem_append.1 hg with hg | hg
      · exact .bothLeft (iha hg)
      · exact .bothRight (ihb hg)
  | either a b iha ihb =>
    rcases List.mem_cons.1 hg with rfl | hg
    · exact absurd h (not_fails_join.2 x)
    · rcases List.mem_append.1 hg with hg | hg
      · exact .eitherLeft (iha hg)
      · exact .eitherRight (ihb hg)
  | negate a =>
    cases hleaf : a.isLeaf with
    | false => exact .negated hleaf
    | true =>
      rw [nodes, nodes_of_single (isComposite_of_leaf hleaf)] at hg
      rcases List.mem_cons.1 hg with rfl | hg
      · have ha := (negate_fails_iff.1 h).1
        rw [isComposite_of_leaf hleaf] at ha
        cases ha
      · rw [List.mem_singleton.1 hg] at h
        exact .negatedLeaf (flawed_of_fails hleaf h)
  | compare | like | contains | present | id | idIn | oneOf | unknown =>
    rw [List.mem_singleton.1 hg] at h
    exact .leaf (flawed_of_fails rfl h)

/-- **A tree is flawed exactly if one of its nodes has a fault.** -/
theorem flawed_iff : Flawed r f ↔ ∃ g ∈ f.nodes, ∃ x, g.Fails r x :=
  ⟨Flawed.node, fun ⟨_, hg, _, hx⟩ => flawed_of_node hg hx⟩

/-! ## What is given as a filter -/

/-- What is given is no filter, or one with such a place in it; the filter for every document stands
alone. -/
def Refused (r : Resolver) : Given Filter → Prop
  | .node f => f ≠ .any ∧ Flawed r f
  | .value _ => True

/-- **Exactly such a thing is refused where a filter is due.** -/
theorem clauseOf_error_iff {given : Given Filter} :
    (∃ x, clauseOf r given = .error x) ↔ Refused r given := by
  cases given with
  | value v => exact ⟨fun _ => trivial, fun _ => ⟨_, rfl⟩⟩
  | node f =>
    show (∃ x, f.clause r = .error x) ↔ f ≠ .any ∧ Flawed r f
    rw [flawed_iff, ← FirstFailure.exists_iff]
    simp only [clause_error_iff, exists_and_left]

/-- It is refused for what it is. -/
theorem clauseOf_rejects (r : Resolver) (given : Given Filter) :
    FailsWith (fun x => x.isRejection = true) (clauseOf r given) := by
  cases given with
  | value v => exact .error rfl
  | node f =>
    intro x hx
    obtain ⟨before, g, after, -, -, hg⟩ := (clause_error_iff.1 hx).2
    exact hg.isRejection

end Filter

end Docbase
