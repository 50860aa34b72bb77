import Mathlib.Data.List.Nodup
import Mathlib.Tactic.Tauto
import Docbase.Sql.Condition

/-!
# Names of bound values

* `paramName_inj`: values of different numbers are bound under different names.
* `Params.put_fresh`, `Params.merge_fresh`: names that are new go behind the old ones, and no bound
  value is lost.
* `numbered`: values bound under the numbers from a first one on, as `bindAll` binds them.
-/

namespace Docbase.Sql

/-- The number of a bound value can be read off its name. -/
theorem paramName_inj {m n : Nat} (h : paramName m = paramName n) : m = n := by
  have hd : Nat.toDigits 10 m = Nat.toDigits 10 n := by
    simpa [paramName, ← String.toList_inj] using h
  rw [← Nat.ofDigitChars_ten_toDigits (n := m), hd, Nat.ofDigitChars_ten_toDigits]

/-- The name of a bound value has no characters but its letter and digits. -/
theorem mem_paramName {n : Nat} {c : Char} (h : c ∈ (paramName n).toList) :
    c = 'a' ∨ c.isDigit = true := by
  have hd : c = 'a' ∨ c ∈ Nat.toDigits 10 n := by simpa [paramName] using h
  exact hd.imp_right (Nat.isDigit_of_mem_toDigits (by omega) (by omega))

namespace Params

@[simp] theorem names_nil : names [] = [] := rfl

@[simp] theorem names_cons (p : String × Value) (ps : Params) :
    names (p :: ps) = p.1 :: names ps := rfl

@[simp] theorem names_append (ps qs : Params) : names (ps ++ qs) = names ps ++ names qs := by
  simp [names]

/-- Every name has the value that stands behind it, if no name comes twice. -/
theorem map_get?_names {ps : Params} (h : ps.names.Nodup) :
    ps.names.map ps.get? = ps.map fun p => some p.2 := by
  induction ps with
  | nil => rfl
  | cons p ps ih =>
    obtain ⟨hp, hps⟩ : p.1 ∉ names ps ∧ (names ps).Nodup := List.nodup_cons.1 h
    have hhead : get? (p :: ps) p.1 = some p.2 := by simp [get?]
    have htail : (names ps).map (get? (p :: ps)) = (names ps).map (get? ps) := by
      refine List.map_congr_left fun n hn => ?_
      have hne : ¬ p.1 = n := fun he => hp (he ▸ hn)
      simp [get?, hne]
    rw [names_cons, List.map_cons, hhead, htail, ih hps, List.map_cons]

/-- A new name goes to the end. -/
theorem put_fresh {ps : Params} {name : String} (h : name ∉ ps.names) (v : Value) :
    ps.put name v = ps ++ [(name, v)] := by
  induction ps with
  | nil => rfl
  | cons p ps ih =>
    obtain ⟨hne, hrest⟩ : name ≠ p.1 ∧ name ∉ names ps := by simpa using h
    rw [put, if_neg (Ne.symm hne), ih hrest]
    rfl

/-- Binding a name adds that name and no other. -/
theorem mem_names_put {ps : Params} {name n : String} {v : Value} :
    n ∈ (ps.put name v).names ↔ n ∈ ps.names ∨ n = name := by
  induction ps with
  | nil => simp [put]
  | cons p ps ih =>
    rw [put]
    split
    · rename_i hp
      simp only [names_cons, List.mem_cons, hp]
      tauto
    · simp only [names_cons, List.mem_cons, ih, or_assoc]

/-- The name that was bound has its value, and the others keep theirs. -/
theorem get?_put (ps : Params) (name n : String) (v : Value) :
    (ps.put name v).get? n = if name = n then some v else ps.get? n := by
  induction ps with
  | nil =>
    by_cases h : name = n
    · simp [put, get?, h]
    · simp [put, get?, h]
  | cons p ps ih =>
    have hcons : ∀ (q : String × Value) (qs : Params),
        get? (q :: qs) n = if q.1 = n then some q.2 else get? qs n := by
      intro q qs
      by_cases h : q.1 = n
      · simp [get?, h]
      · simp [get?, h]
    rw [put]
    by_cases hp : p.1 = name
    · rw [if_pos hp, hcons, hcons, ← hp]
      by_cases h : p.1 = n
      · rw [if_pos h, if_pos h]
      · rw [if_neg h, if_neg h, if_neg h]
    · rw [if_neg hp, hcons, hcons, ih]
      by_cases h : p.1 = n
      · rw [if_pos h, if_pos h, if_neg fun hn => hp (h.trans hn.symm)]
      · rw [if_neg h, if_neg h]

/-- Names that are not bound again keep their values. -/
theorem get?_merge_of_notMem {ps qs : Params} {n : String} (h : n ∉ qs.names) :
    (ps.merge qs).get? n = ps.get? n := by
  induction qs generalizing ps with
  | nil => rfl
  | cons q qs ih =>
    obtain ⟨hq, hqs⟩ : n ≠ q.1 ∧ n ∉ names qs := by simpa using h
    have hmerge : ps.merge (q :: qs) = (ps.put q.1 q.2).merge qs := rfl
    rw [hmerge, ih hqs, get?_put, if_neg (Ne.symm hq)]

/-- Names that are bound have their values, whatever was bound before. -/
theorem get?_merge_of_mem {ps qs : Params} {p : String × Value} (hnodup : qs.names.Nodup)
    (h : p ∈ qs) : (ps.merge qs).get? p.1 = some p.2 := by
  induction qs generalizing ps with
  | nil => cases h
  | cons q qs ih =>
    obtain ⟨hq, hqs⟩ : q.1 ∉ names qs ∧ (names qs).Nodup := List.nodup_cons.1 hnodup
    have hmerge : ps.merge (q :: qs) = (ps.put q.1 q.2).merge qs := rfl
    rw [hmerge]
    rcases List.mem_cons.1 h with rfl | h
    · rw [get?_merge_of_notMem hq, get?_put, if_pos rfl]
    · exact ih hqs h

/-- New names go behind the old ones, in their order. -/
theorem merge_fresh {ps qs : Params} (hnew : ∀ n ∈ qs.names, n ∉ ps.names)
    (hnodup : qs.names.Nodup) : ps.merge qs = ps ++ qs := by
  induction qs generalizing ps with
  | nil => simp [merge]
  | cons q qs ih =>
    obtain ⟨hq, hqs⟩ : q.1 ∉ names qs ∧ (names qs).Nodup := List.nodup_cons.1 hnodup
    have hput : ps.put q.1 q.2 = ps ++ [q] := put_fresh (hnew _ (by simp)) _
    have hrest : ∀ n ∈ names qs, n ∉ (ps ++ [q]).names := by
      intro n hn
      have hps := hnew n (by simp [hn])
      have hne : n ≠ q.1 := fun he => hq (he ▸ hn)
      simpa using ⟨hps, hne⟩
    calc ps.merge (q :: qs) = (ps.put q.1 q.2).merge qs := rfl
      _ = (ps ++ [q]) ++ qs := by rw [hput, ih hrest hqs]
      _ = ps ++ q :: qs := by simp

end Params

/-- Values bound under the numbers from `number` on. -/
def numbered (number : Nat) : List Value → Params
  | [] => []
  | v :: vs => (paramName number, v) :: numbered (number + 1) vs

/-- The names of as many bound values from `number` on. -/
def paramNames (number count : Nat) : List String := (List.range' number count).map paramName

theorem mem_paramNames {number count : Nat} {n : String} :
    n ∈ paramNames number count ↔ ∃ k, number ≤ k ∧ k < number + count ∧ n = paramName k := by
  simp only [paramNames, List.mem_map, List.mem_range'_1]
  constructor
  · rintro ⟨k, hk, rfl⟩; exact ⟨k, hk.1, hk.2, rfl⟩
  · rintro ⟨k, h1, h2, rfl⟩; exact ⟨k, ⟨h1, h2⟩, rfl⟩

theorem nodup_paramNames (number count : Nat) : (paramNames number count).Nodup :=
  List.Nodup.map (fun _ _ => paramName_inj) List.nodup_range'

theorem paramNames_append (number m n : Nat) :
    paramNames number m ++ paramNames (number + m) n = paramNames number (m + n) := by
  rw [paramNames, paramNames, ← List.map_append, List.range'_append_1, paramNames]

@[simp] theorem names_numbered (number : Nat) (vs : List Value) :
    (numbered number vs).names = paramNames number vs.length := by
  induction vs generalizing number with
  | nil => rfl
  | cons v vs ih => simp [numbered, ih, paramNames, List.range'_succ]

@[simp] theorem values_numbered (number : Nat) (vs : List Value) :
    (numbered number vs).map (·.2) = vs := by
  induction vs generalizing number with
  | nil => rfl
  | cons v vs ih => simp [numbered, ih]

theorem numbered_append (number : Nat) (vs ws : List Value) :
    numbered number (vs ++ ws) = numbered number vs ++ numbered (number + vs.length) ws := by
  induction vs generalizing number with
  | nil => simp [numbered]
  | cons v vs ih => simp [numbered, ih, Nat.add_assoc, Nat.add_comm 1]

/-- Values bound from a number on meet no name that is bound before it. -/
theorem merge_numbered (number : Nat) (vs ws : List Value) :
    (numbered number vs).merge (numbered (number + vs.length) ws) =
      numbered number (vs ++ ws) := by
  rw [numbered_append]
  refine Params.merge_fresh (fun n hn => ?_) ?_
  · obtain ⟨k, hk, -, rfl⟩ := mem_paramNames.1 (names_numbered _ ws ▸ hn)
    intro hmem
    obtain ⟨j, -, hj, he⟩ := mem_paramNames.1 (names_numbered _ vs ▸ hmem)
    have := paramName_inj he
    omega
  · rw [names_numbered]; exact nodup_paramNames _ _

theorem bindAll_eq (number : Nat) (vs : List Value) (ps : Params)
    (h : ∀ k, number ≤ k → paramName k ∉ ps.names) :
    bindAll ps number vs = ps ++ numbered number vs := by
  induction vs generalizing number ps with
  | nil => simp [bindAll, numbered]
  | cons v vs ih =>
    rw [bindAll, Params.put_fresh (h number (Nat.le_refl _)), ih]
    · simp [numbered]
    · intro k hk
      have hne : paramName k ≠ paramName number := fun he => by have := paramName_inj he; omega
      simpa using ⟨h k (by omega), hne⟩

end Docbase.Sql
