import Docbase.Filter.Condition
import Docbase.Proofs.Field

/-!
# Filters that are accepted

What an accepted filter looks like, and the condition that it stands for, one case for each kind of
node. Whatever is to be shown of all accepted filters follows from these cases by induction.

* `LeafStandsFor`, `StandsFor`: the conditions of leaves and of trees.
* `stands_of_condition`: an accepted filter stands for its condition.
-/

namespace Docbase.Filter

open Sql

/-- A leaf stands for a condition; the set tests know a negated form. -/
inductive LeafStandsFor (r : Resolver) (negated : Bool) : Filter → Condition → Prop
  | compare {comparison : Comparison} {path : String} {value bound : Value} {operand : Operand} :
      r.operand path = .ok operand → r.bind value path = .ok bound →
      LeafStandsFor r negated (.compare comparison path value)
        (.test operand comparison.operator bound)
  | like {path : String} {pattern : Value} {operand : Operand} :
      r.textOperand path = .ok operand →
      LeafStandsFor r negated (.like path pattern) (.test operand .like pattern)
  | contains {path : String} {element bound : Value} {operand : Operand} :
      r.operand path = .ok operand → Resolver.jsonText (.list [element]) = .ok bound →
      LeafStandsFor r negated (.contains path element) (.test operand .contains bound)
  | filled {path : String} {column : Identifier} :
      r.isPromoted path = true → Resolver.columnName path = .ok column →
      LeafStandsFor r negated (.present path) (.filled column)
  | hasKey {path : String} {keys : List String} {key : String} :
      r.isPromoted path = false → Resolver.splitParent path = .ok (keys, key) →
      LeafStandsFor r negated (.present path) (.hasKey r.base keys key)
  | id {value : String} : LeafStandsFor r negated (.id value) (.test .id .eq (.str value))
  | idIn {values : List String} :
      LeafStandsFor r negated (.idIn values) (.among .id (values.map .str) negated)
  | oneOf {path : String} {values bound : List Value} {operand : Operand} :
      r.operand path = .ok operand → bindValues r path values = .ok bound →
      LeafStandsFor r negated (.oneOf path values) (.among operand bound negated)

/-- The filter is a set test. -/
def isSetTest : Filter → Bool
  | idIn _ | oneOf .. => true
  | _ => false

/-- A filter stands for a condition. -/
inductive StandsFor (r : Resolver) : Filter → Condition → Prop
  | both {f g : Filter} {c d : Condition} :
      StandsFor r f c → StandsFor r g d → StandsFor r (.both f g) (.both c d)
  | either {f g : Filter} {c d : Condition} :
      StandsFor r f c → StandsFor r g d → StandsFor r (.either f g) (.either c d)
  | negate {f : Filter} {c : Condition} :
      f.isSetTest = false → LeafStandsFor r false f c → StandsFor r (.negate f) (.negate c)
  | negatedSet {f : Filter} {c : Condition} :
      f.isSetTest = true → LeafStandsFor r true f c → StandsFor r (.negate f) c
  | leaf {f : Filter} {c : Condition} : LeafStandsFor r false f c → StandsFor r f c

variable {r : Resolver}

theorem stands_of_leafCondition {negated : Bool} {f : Filter} {c : Condition}
    (h : leafCondition r negated f = .ok c) : LeafStandsFor r negated f c := by
  cases f with
  | compare comparison path value =>
    obtain ⟨operand, ho, h⟩ := bind_eq_ok.1 h
    obtain ⟨bound, hb, h⟩ := bind_eq_ok.1 h
    cases h
    exact .compare (refuse_eq_ok.1 ho) hb
  | like path pattern =>
    obtain ⟨operand, ho, h⟩ := bind_eq_ok.1 h
    cases h
    exact .like (refuse_eq_ok.1 ho)
  | contains path element =>
    obtain ⟨operand, ho, h⟩ := bind_eq_ok.1 h
    obtain ⟨bound, hb, h⟩ := bind_eq_ok.1 h
    cases h
    exact .contains (refuse_eq_ok.1 ho) hb
  | present path =>
    rw [leafCondition] at h
    split at h
    · rename_i hp
      obtain ⟨column, hc, h⟩ := bind_eq_ok.1 h
      cases h
      exact .filled hp (refuse_eq_ok.1 hc)
    · rename_i hp
      obtain ⟨⟨keys, key⟩, hs, h⟩ := bind_eq_ok.1 h
      cases h
      exact .hasKey (by simpa using hp) (refuse_eq_ok.1 hs)
  | id value => cases h; exact .id
  | idIn values => cases h; exact .idIn
  | oneOf path values =>
    obtain ⟨operand, ho, h⟩ := bind_eq_ok.1 h
    obtain ⟨bound, hb, h⟩ := bind_eq_ok.1 h
    cases h
    exact .oneOf (refuse_eq_ok.1 ho) hb
  | any | both | either | negate | unknown => cases h

/-- **An accepted filter stands for its condition.** -/
theorem stands_of_condition {f : Filter} {c : Condition} (h : f.condition r = .ok c) :
    StandsFor r f c := by
  induction f generalizing c with
  | any => cases h
  | both a b iha ihb =>
    obtain ⟨left, ha, h⟩ := bind_eq_ok.1 h
    obtain ⟨right, hb, h⟩ := bind_eq_ok.1 h
    cases h
    exact .both (iha ha) (ihb hb)
  | either a b iha ihb =>
    obtain ⟨left, ha, h⟩ := bind_eq_ok.1 h
    obtain ⟨right, hb, h⟩ := bind_eq_ok.1 h
    cases h
    exact .either (iha ha) (ihb hb)
  | negate inner =>
    -- the negation of a set test goes into the test
    cases inner with
    | any | both | either | negate => cases h
    | idIn values => exact .negatedSet rfl (stands_of_leafCondition h)
    | oneOf path values => exact .negatedSet rfl (stands_of_leafCondition h)
    | compare | like | contains | present | id | unknown =>
      obtain ⟨c', hc, h⟩ := bind_eq_ok.1 h
      cases h
      exact .negate rfl (stands_of_leafCondition hc)
  | compare | like | contains | present | id | idIn | oneOf | unknown =>
    exact .leaf (stands_of_leafCondition h)

end Docbase.Filter
