import Docbase.Proofs.Value.Keys

/-!
# Members of a mapping

What a member of a mapping is after others were put into it.

* `Key.Firm`: a name that is told from others as texts are; `Key.Exact.firm`: all are, but for
  numbers that are not the same as themselves.
* `Entries.Last`: the value of a name in a mapping.
* `Entries.get?_put`, `Entries.get?_merge_absent`, `Entries.get?_merge_last`: a member behind one
  that is put, and behind a merge.
* `Entries.mem_names_put`, `Entries.mem_names_merge`: no other names come up.
-/

namespace Docbase

namespace Key

/-- Among some names, to name the same member as the key is one thing for all that name the same. A
number that is not even the same as itself is no such key. -/
structure Firm (among : Key → Prop) (k : Key) : Prop where
  same_self : k.same k = true
  same_eq : ∀ {a b : Key}, among a → among b → a.same b = true → a.same k = b.same k
  same_of_same : ∀ {a b : Key}, among a → among b → a.same k = true → b.same k = true →
    a.same b = true

/-- All names. -/
def Any (_ : Key) : Prop := True

/-- Texts are firm among all names. -/
theorem firm_str (s : String) : (Key.str s).Firm Any where
  same_self := same_str.2 rfl
  same_eq := by
    intro a b _ _ h
    rw [Bool.eq_iff_iff, same_str, same_str]
    constructor
    · rintro rfl
      exact str_same.1 h
    · rintro rfl
      exact same_str.1 h
  same_of_same := by
    intro a b _ _ ha hb
    rw [same_str.1 ha, same_str.1 hb]
    exact same_str.2 rfl

/-- Every name is firm among those whose doubles have the form they are kept in. -/
theorem Exact.firm {k : Key} (hk : k.Exact) (hself : k.same k = true) : k.Firm Exact where
  same_self := hself
  same_eq := by
    intro a b ha hb h
    rw [Bool.eq_iff_iff]
    constructor
    · exact fun hak => same_trans hb hk (by rwa [same_comm]) hak
    · exact fun hbk => same_trans ha hk h hbk
  same_of_same := by
    intro a b ha hb hak hbk
    exact same_trans ha hb hak (by rwa [same_comm])

end Key

namespace Entries

variable {among : Key → Prop} {es more : Entries} {k name : Key} {v : Value}

/-- The names of the members, in order. -/
def names (es : Entries) : List Key := es.map (·.1)

@[simp] theorem names_nil : names [] = [] := rfl

@[simp] theorem names_cons (e : Key × Value) (es : Entries) : names (e :: es) = e.1 :: names es := rfl

theorem get?_eq_none : get? es k = none ↔ ∀ n ∈ names es, n.same k = false := by
  induction es with
  | nil => simp [get?]
  | cons e es ih =>
    rw [get?]
    split
    · rename_i h
      simp [h]
    · rename_i h
      simpa [h] using ih

/-- The member that was put is the one of its name, and the others stay. -/
theorem get?_put (hk : k.Firm among) (hes : ∀ n ∈ names es, among n) (hname : among name)
    (v : Value) : get? (put es name v) k = if name.same k then some v else get? es k := by
  induction es with
  | nil => rfl
  | cons e es ih =>
    obtain ⟨k₀, v₀⟩ := e
    obtain ⟨hk₀, hes⟩ : among k₀ ∧ ∀ n ∈ names es, among n := by simpa using hes
    rw [put]
    by_cases h : k₀.same name = true
    · have hsame : k₀.same k = name.same k := hk.same_eq hk₀ hname h
      rw [if_pos h, get?, get?, hsame]
      split <;> rfl
    · rw [if_neg h, get?, get?, ih hes]
      by_cases h₀ : k₀.same k = true
      · -- then it is not the member that is put
        have hne : ¬ name.same k = true := fun hn => h (hk.same_of_same hk₀ hname h₀ hn)
        simp [h₀, hne]
      · simp [h₀]

/-- There is nothing to take out if no member has the name. -/
theorem erase_of_none (h : get? es k = none) : erase es k = es := by
  induction es with
  | nil => rfl
  | cons e es ih =>
    obtain ⟨k₀, v₀⟩ := e
    rw [get?] at h
    by_cases hk : k₀.same k = true
    · rw [if_pos hk] at h
      cases h
    · rw [if_neg hk] at h
      rw [erase, if_neg hk, ih h]

/-- A member of a new name is put at the end. -/
theorem put_fresh (h : ∀ n ∈ names es, n.same name = false) : put es name v = es ++ [(name, v)] := by
  induction es with
  | nil => rfl
  | cons e es ih =>
    obtain ⟨hname, hes⟩ : e.1.same name = false ∧ ∀ n ∈ names es, n.same name = false := by simpa using h
    rw [put, if_neg (by simp [hname]), ih hes, List.cons_append]

theorem get?_put_str (es : Entries) (name : Key) (v : Value) (s : String) :
    get? (put es name v) (.str s) = if name.same (.str s) then some v else get? es (.str s) :=
  get?_put (Key.firm_str s) (fun _ _ => trivial) trivial v

@[simp] theorem merge_nil (es : Entries) : merge es [] = es := rfl

@[simp] theorem merge_cons (es : Entries) (e : Key × Value) (more : Entries) :
    merge es (e :: more) = merge (put es e.1 e.2) more := rfl

theorem merge_append (es front back : Entries) :
    merge es (front ++ back) = merge (merge es front) back := by
  simp [merge]

theorem mem_names_put {n : Key} (h : n ∈ names (put es name v)) : n ∈ names es ∨ n = name := by
  induction es with
  | nil => exact .inr (by simpa [put] using h)
  | cons e es ih =>
    obtain ⟨k₀, v₀⟩ := e
    rw [put] at h
    split at h
    · exact .inl h
    · rcases List.mem_cons.1 h with rfl | h
      · exact .inl List.mem_cons_self
      · exact (ih h).imp_left (List.mem_cons_of_mem _)

theorem mem_names_merge {n : Key} (h : n ∈ names (merge es more)) : n ∈ names es ∨ n ∈ names more := by
  induction more generalizing es with
  | nil => exact .inl h
  | cons e more ih =>
    rcases ih h with h | h
    · rcases mem_names_put h with h | rfl
      · exact .inl h
      · exact .inr List.mem_cons_self
    · exact .inr (List.mem_cons_of_mem _ h)

/-- A merge leaves the members alone whose names are not among the merged ones. -/
theorem get?_merge_absent (hk : k.Firm among) (hes : ∀ n ∈ names es, among n)
    (hmore : ∀ n ∈ names more, among n) (h : get? more k = none) :
    get? (merge es more) k = get? es k := by
  rw [get?_eq_none] at h
  induction more generalizing es with
  | nil => rfl
  | cons e more ih =>
    obtain ⟨he, h⟩ : e.1.same k = false ∧ ∀ n ∈ names more, n.same k = false := by simpa using h
    obtain ⟨hput, hmore⟩ : among e.1 ∧ ∀ n ∈ names more, among n := by simpa using hmore
    have hes' : ∀ n ∈ names (put es e.1 e.2), among n := by
      intro n hn
      rcases mem_names_put hn with hn | rfl
      · exact hes n hn
      · exact hput
    rw [merge_cons, ih hes' hmore h, get?_put hk hes hput, he]
    rfl

/-- The members end, for that name, with that value. It is the only one of the name in a mapping
that has each name once. -/
def Last (es : Entries) (k : Key) (v : Value) : Prop :=
  ∃ front back, es = front ++ (k, v) :: back ∧ get? back k = none

/-- Behind a merge a name has the value that it had last among the merged members. -/
theorem get?_merge_last (hk : k.Firm among) (hes : ∀ n ∈ names es, among n)
    (hmore : ∀ n ∈ names more, among n) (h : Last more k v) :
    get? (merge es more) k = some v := by
  obtain ⟨front, back, rfl, hback⟩ := h
  have hfront : ∀ n ∈ names (merge es front), among n := by
    intro n hn
    rcases mem_names_merge hn with hn | hn
    · exact hes n hn
    · exact hmore n (by simp_all [names])
  have hput : ∀ n ∈ names (put (merge es front) k v), among n := by
    intro n hn
    rcases mem_names_put hn with hn | rfl
    · exact hfront n hn
    · exact hmore _ (by simp [names])
  have hrest : ∀ n ∈ names back, among n := fun n hn => hmore n (by simp_all [names])
  rw [merge_append, merge_cons, get?_merge_absent hk hput hrest hback,
    get?_put hk hfront (hmore k (by simp [names])), if_pos hk.same_self]

end Entries

end Docbase
