import Docbase.Proofs.Value.Members

/-!
# What JSON values say

A JSON value without the order that the members of its objects were written in: objects are equal
exactly if they have the same members.

* `Datum`, `Object`: JSON values and objects.
* `Value.datum?`: what a value says. A value that JSON has no form for says nothing, nor does one
  with a mapping that has a name twice.
* `Object.with`, `Object.without`, `Object.merge`: an object with one member more or less, and with
  those of another one.
* `Object.with_merge`: one member more, in the object that is merged into another one.
-/

namespace Docbase

/-- A JSON value. An object gives the value of each of its members. -/
inductive Datum
  | null
  | bool (b : Bool)
  | int (i : Int)
  | str (s : String)
  | list (items : List Datum)
  | object (members : String → Option Datum)

/-- A JSON object. -/
abbrev Object := String → Option Datum

namespace Object

/-- The object without members. -/
def empty : Object := fun _ => none

/-- An object with one member set. -/
def «with» (o : Object) (name : String) (d : Datum) : Object :=
  fun n => if n = name then some d else o n

/-- The members of both objects; where both have one of a name, that of the second counts. -/
def merge (o more : Object) : Object := fun n => (more n).or (o n)

/-- An object without one of its members. -/
def without (o : Object) (name : String) : Object := fun n => if n = name then none else o n

variable {o more : Object} {name other n : String} {d e : Datum}

@[simp] theorem with_same : o.with name d name = some d := if_pos rfl

theorem with_other (h : n ≠ name) : o.with name d n = o n := if_neg h

theorem with_with : (o.with name d).with name e = o.with name e := by
  funext n
  by_cases h : n = name
  · rw [h, with_same, with_same]
  · rw [with_other h, with_other h, with_other h]

theorem with_comm (h : name ≠ other) : (o.with name d).with other e = (o.with other e).with name d := by
  funext n
  unfold «with»
  by_cases hn : n = name
  · rw [if_pos hn, if_pos hn, if_neg (hn ▸ h)]
  · rw [if_neg hn, if_neg hn]

theorem without_self : o.without name name = none := if_pos rfl

theorem without_other (h : n ≠ name) : o.without name n = o n := if_neg h

/-- Only a member that is there can be taken out. -/
theorem without_of_none (h : o name = none) : o.without name = o := by
  funext n
  by_cases hn : n = name
  · rw [hn, without_self, h]
  · rw [without_other hn]

/-- What was taken out and put back is there again. -/
theorem with_of_without (h : o name = some d) : (o.without name).with name d = o := by
  funext n
  by_cases hn : n = name
  · rw [hn, with_same, h]
  · rw [with_other hn, without_other hn]

/-- A new member is taken out again. -/
theorem without_of_with (h : o name = none) : (o.with name d).without name = o := by
  funext n
  by_cases hn : n = name
  · rw [hn, without_self, h]
  · rw [without_other hn, with_other hn]

/-- Any other one does not matter for what is taken out. -/
theorem with_without (h : name ≠ other) :
    (o.with name d).without other = (o.without other).with name d := by
  funext n
  by_cases hn : n = name
  · rw [hn, without_other h, with_same, with_same]
  · unfold without
    rw [with_other hn, with_other hn]

/-- What is merged in behind a member comes before it, if it has none of that name itself. -/
theorem with_merge (h : more name = none) : (o.with name d).merge more = o.merge (more.with name d) := by
  funext n
  unfold merge
  by_cases hn : n = name
  · rw [hn, h, with_same, with_same]
    rfl
  · rw [with_other hn, with_other hn]

end Object

mutual

/-- What a value says in JSON. -/
def Value.datum? : Value → Option Datum
  | .null => some .null
  | .bool b => some (.bool b)
  | .int i => some (.int i)
  | .str s => some (.str s)
  | .list vs => (Value.datums? vs).map .list
  | .mapping es => (Value.object? es).map .object
  | _ => none

/-- What values say. -/
def Value.datums? : List Value → Option (List Datum)
  | [] => some []
  | v :: vs => do
    let item ← v.datum?
    let items ← Value.datums? vs
    some (item :: items)

/-- The object of some members: each has a text as its name, and no two have the same. -/
def Value.object? : List (Key × Value) → Option Object
  | [] => some Object.empty
  | (.str name, v) :: es => do
    let d ← v.datum?
    let o ← Value.object? es
    if (o name).isSome then none else some (o.with name d)
  | _ :: _ => none

end

namespace Value

variable {es : Entries} {o : Object}

theorem datum_mapping (h : object? es = some o) : (mapping es).datum? = some (.object o) := by
  rw [datum?, h]
  rfl

/-- What is known of a member that an object begins with. -/
theorem object?_cons {e : Key × Value} (h : object? (e :: es) = some o) :
    ∃ name d rest, e.1 = .str name ∧ e.2.datum? = some d ∧ object? es = some rest ∧
      rest name = none ∧ o = rest.with name d := by
  obtain ⟨k, v⟩ := e
  cases k with
  | str name =>
    simp only [object?, Option.bind_eq_bind, Option.bind_eq_some_iff] at h
    obtain ⟨d, hd, rest, hrest, h⟩ := h
    by_cases hname : (rest name).isSome
    · rw [if_pos hname] at h
      cases h
    · rw [if_neg hname] at h
      cases h
      exact ⟨name, d, rest, rfl, hd, hrest, by simpa using hname, rfl⟩
  | _ => cases h

/-- An object with a member in front of the others. -/
theorem object?_intro {name : String} {v : Value} {d : Datum} (h : object? es = some o)
    (hv : v.datum? = some d) (hname : o name = none) :
    object? ((.str name, v) :: es) = some (o.with name d) := by
  simp [object?, hv, h, hname]

/-- An object has nothing but the members it is made of. -/
theorem object?_none {name : String} (h : object? es = some o) :
    o name = none ↔ .str name ∉ Entries.names es := by
  induction es generalizing o with
  | nil =>
    cases h
    simp [Object.empty]
  | cons e es ih =>
    obtain ⟨n, d, rest, hn, -, hrest, -, rfl⟩ := object?_cons h
    rw [Entries.names_cons, hn, List.mem_cons, not_or]
    by_cases hname : name = n
    · simp [hname]
    · rw [Object.with_other hname, ih hrest]
      simp [hname]

/-- No two of the members have the same name. -/
theorem object?_nodup (h : object? es = some o) : (Entries.names es).Nodup := by
  induction es generalizing o with
  | nil => exact List.nodup_nil
  | cons e es ih =>
    obtain ⟨name, d, rest, hname, -, hrest, hfresh, -⟩ := object?_cons h
    rw [Entries.names_cons, hname, List.nodup_cons]
    exact ⟨(object?_none hrest).1 hfresh, ih hrest⟩

/-- A member of an object says what the object says of it. -/
theorem object?_member {name : String} {v : Value} (h : object? es = some o)
    (hv : Entries.get? es (.str name) = some v) : ∃ d, v.datum? = some d ∧ o name = some d := by
  induction es generalizing o with
  | nil => cases hv
  | cons e es ih =>
    obtain ⟨k, v₀⟩ := e
    obtain ⟨n, d, rest, rfl, hd, hrest, -, rfl⟩ := object?_cons h
    rw [Entries.get?] at hv
    by_cases hn : n = name
    · subst hn
      rw [if_pos (Key.same_str.2 rfl)] at hv
      cases hv
      exact ⟨d, hd, Object.with_same⟩
    · have hother : ¬ (Key.str n).same (.str name) = true := by
        rw [Key.same_str, Key.str.injEq]
        exact hn
      rw [if_neg hother] at hv
      rw [Object.with_other (Ne.symm hn)]
      exact ih hrest hv

/-- An object that a member is taken out of. -/
theorem object?_erase {name : String} (h : object? es = some o) :
    object? (Entries.erase es (.str name)) = some (o.without name) := by
  induction es generalizing o with
  | nil =>
    cases h
    rw [Object.without_of_none rfl]
    rfl
  | cons e es ih =>
    obtain ⟨k, v⟩ := e
    obtain ⟨n, d, rest, rfl, hd, hrest, hfresh, rfl⟩ := object?_cons h
    rw [Entries.erase]
    by_cases hn : n = name
    · subst hn
      rw [if_pos (Key.same_str.2 rfl), hrest, Object.without_of_with hfresh]
    · have hother : ¬ (Key.str n).same (.str name) = true := by
        rw [Key.same_str, Key.str.injEq]
        exact hn
      rw [if_neg hother, Object.with_without hn]
      refine object?_intro (ih hrest) hd ?_
      rw [Object.without_other hn, hfresh]

/-- An object with a member that is put into it. -/
theorem object?_put {name : String} {v : Value} {d : Datum} (h : object? es = some o)
    (hv : v.datum? = some d) : object? (Entries.put es (.str name) v) = some (o.with name d) := by
  induction es generalizing o with
  | nil =>
    cases h
    exact object?_intro rfl hv rfl
  | cons e es ih =>
    obtain ⟨k, v₀⟩ := e
    obtain ⟨first, d₀, rest, rfl, hd₀, hrest, hfresh, rfl⟩ := object?_cons h
    rw [Entries.put]
    by_cases hfirst : first = name
    · subst hfirst
      rw [if_pos (Key.same_str.2 rfl), Object.with_with]
      exact object?_intro hrest hv hfresh
    · have hother : ¬ (Key.str first).same (.str name) = true := by
        rw [Key.same_str, Key.str.injEq]
        exact hfirst
      rw [if_neg hother, Object.with_comm hfirst]
      refine object?_intro (ih hrest) hd₀ ?_
      rw [Object.with_other hfirst, hfresh]

/-- An object that another one is merged into. -/
theorem object?_merge {more : Entries} {p : Object} (h : object? es = some o)
    (hmore : object? more = some p) : object? (Entries.merge es more) = some (o.merge p) := by
  induction more generalizing es o p with
  | nil =>
    cases hmore
    exact h
  | cons e more ih =>
    obtain ⟨name, d, rest, hname, hd, hrest, hfresh, rfl⟩ := object?_cons hmore
    rw [Entries.merge_cons, ← Object.with_merge hfresh, hname]
    exact ih (object?_put h hd) hrest

end Value

end Docbase
