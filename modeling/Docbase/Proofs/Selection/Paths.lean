import Docbase.Proofs.Value.Members
import Docbase.Selection.Columns

/-!
# Values at paths

* `Value.at?`: the value behind some names in nested mappings.
* `at?_setPath`: **what was put at a path is found there**.
* `at?_setPath_of_diverge`: **at every path that parts from it nothing changes**.
* `get?_setPath`, `mem_names_setPath`: the same for the members of the outermost mapping.
-/

namespace Docbase

/-- The member of a mapping. -/
def Value.child? : Value → String → Option Value
  | .mapping es, name => Entries.get? es (.str name)
  | _, _ => none

/-- The value behind some names in nested mappings. -/
def Value.at? (v : Value) : List String → Option Value
  | [] => some v
  | name :: names => (v.child? name).bind fun inner => inner.at? names

theorem Value.at?_cons (v : Value) (name : String) (names : List String) :
    v.at? (name :: names) = (v.child? name).bind fun inner => inner.at? names := rfl

namespace Selection

open Entries

variable {names others : List String}

/-- The mapping that a value is put into on its way; an empty one takes the place of what is no
mapping. -/
def inner (members : Entries) (name : String) : Entries :=
  match get? members (.str name) with
  | some (.mapping es) => es
  | _ => []

theorem setPath_cons (h : names ≠ []) (members : Entries) (name : String) (v : Value) :
    setPath members (name :: names) v =
      put members (.str name) (.mapping (setPath (inner members name) names v)) := by
  rw [setPath]
  · rfl
  · exact h

/-- Whatever is behind a member of a mapping is in the mapping that values are put into. -/
theorem at?_inner (members : Entries) (name other : String) (others : List String) :
    (Value.mapping (inner members name)).at? (other :: others) =
      (Value.mapping members).at? (name :: other :: others) := by
  rw [Value.at?_cons (.mapping members), Value.child?, inner]
  cases get? members (.str name) with
  | none => rfl
  | some v => cases v <;> rfl

/-- What was put at a path is found there. -/
theorem at?_setPath (h : names ≠ []) (members : Entries) (v : Value) :
    (Value.mapping (setPath members names v)).at? names = some v := by
  induction names generalizing members with
  | nil => exact absurd rfl h
  | cons name names ih =>
    have hname : (Key.str name).same (.str name) = true := Key.same_str.2 rfl
    cases names with
    | nil => rw [setPath, Value.at?_cons, Value.child?, get?_put_str, if_pos hname]; rfl
    | cons next names =>
      rw [setPath_cons (List.cons_ne_nil next names), Value.at?_cons, Value.child?,
        get?_put_str, if_pos hname]
      exact ih (List.cons_ne_nil next names) _

/-- The other members stay as they were. -/
theorem get?_setPath {among : Key → Prop} {k : Key} (hk : k.Firm among) {members : Entries}
    (hmembers : ∀ n ∈ Entries.names members, among n) {name : String} (hname : among (.str name))
    (h : (Key.str name).same k = false) (names : List String) (v : Value) :
    get? (setPath members (name :: names) v) k = get? members k := by
  cases names with
  | nil => rw [setPath, get?_put hk hmembers hname, h]; rfl
  | cons next names =>
    rw [setPath_cons (List.cons_ne_nil next names), get?_put hk hmembers hname, h]
    rfl

/-- At a path that parts from the one where a value is put, nothing changes: the names that the two
have in common lead through mappings, and these are kept. -/
theorem at?_setPath_of_diverge (h : ¬ names <+: others) (h' : ¬ others <+: names)
    (members : Entries) (v : Value) :
    (Value.mapping (setPath members names v)).at? others = (Value.mapping members).at? others := by
  induction names generalizing others members with
  | nil => exact absurd List.nil_prefix h
  | cons name names ih =>
    cases others with
    | nil => exact absurd List.nil_prefix h'
    | cons other others =>
      by_cases hne : name = other
      · subst hne
        replace h : ¬ names <+: others := fun hp => h (List.cons_prefix_cons.2 ⟨rfl, hp⟩)
        replace h' : ¬ others <+: names := fun hp => h' (List.cons_prefix_cons.2 ⟨rfl, hp⟩)
        have hnames : names ≠ [] := fun hn => h (hn ▸ List.nil_prefix)
        obtain ⟨next, rest, rfl⟩ :=
          List.exists_cons_of_ne_nil (fun hn => h' (hn ▸ List.nil_prefix) : others ≠ [])
        rw [setPath_cons hnames, Value.at?_cons, Value.child?, get?_put_str,
          if_pos (Key.same_str.2 rfl)]
        exact (ih h h' _).trans (at?_inner members name next rest)
      · have hsame : (Key.str name).same (.str other) = false := by
          rw [Bool.eq_false_iff, Ne, Key.same_str, Key.str.injEq]
          exact hne
        rw [Value.at?_cons, Value.child?,
          get?_setPath (Key.firm_str other) (fun _ _ => trivial) trivial hsame]
        rfl

/-- No member comes up but the first name of the path. -/
theorem mem_names_setPath {k : Key} {members : Entries} {name : String} {v : Value}
    (h : k ∈ Entries.names (setPath members (name :: names) v)) :
    k ∈ Entries.names members ∨ k = .str name := by
  cases names with
  | nil => exact mem_names_put h
  | cons next names =>
    rw [setPath_cons (List.cons_ne_nil next names)] at h
    exact mem_names_put h

end Selection

end Docbase
