import Mathlib.Algebra.Group.Nat.Defs
import Mathlib.Tactic.ByContra
import Docbase.Value

/-!
# Names of members

Which names name the same member. Numbers do if they are the same number, whatever they are written
as; doubles in canonical form are told apart by that.

* `Binary64.Canonical`, `Key.Exact`: a double has the form it is kept in, and so have all in a name.
* `Binary64.same_of_sameInt`: no two doubles are the same whole number.
* `Key.same_comm`, `Key.same_trans`: **to name the same member is symmetric and transitive**.
-/

namespace Docbase

namespace Binary64

/-- The significand has 53 bits, or the exponent is the least one. -/
def Canonical : Binary64 → Prop
  | .finite _ m e =>
    m < 2 ^ 53 ∧ minExponent ≤ e ∧ e ≤ maxExponent ∧ (2 ^ 52 ≤ m ∨ e = minExponent)
  | _ => True

variable {x y z : Binary64} {i j : Int}

theorem same_comm (x y : Binary64) : x.same y = y.same x := by
  cases x <;> cases y <;> simp [same, Bool.beq_comm, Bool.and_comm]

theorem same_trans (h : x.same y = true) (h' : y.same z = true) : x.same z = true := by
  cases x <;> cases y <;> cases z <;> grind [same]

/-- The significand of a double with its sign. -/
def signed (negative : Bool) (m : Nat) : Int := if negative then -(m : Int) else m

theorem sameInt_finite {s : Bool} {m : Nat} {e : Int} : (finite s m e).sameInt i = true ↔
    signed s m * (2 ^ e.toNat : Nat) = i * (2 ^ (-e).toNat : Nat) := by
  rw [sameInt, beq_iff_eq]
  exact Iff.rfl

theorem natAbs_signed (s : Bool) (m : Nat) : (signed s m).natAbs = m := by
  cases s <;> simp [signed]

theorem pow_ne_zero (k : Nat) : ((2 ^ k : Nat) : Int) ≠ 0 := by
  have := Nat.two_pow_pos k
  omega

/-- A double is one whole number at most. -/
theorem eq_of_sameInt (h : x.sameInt i = true) (h' : x.sameInt j = true) : i = j := by
  cases x with
  | finite s m e =>
    rw [sameInt_finite] at h h'
    exact Int.eq_of_mul_eq_mul_right (pow_ne_zero _) (h.symm.trans h')
  | _ => cases h

theorem sameInt_of_same (h : x.same y = true) (hi : x.sameInt i = true) : y.sameInt i = true := by
  cases x with
  | finite s m e =>
    cases y with
    | finite s' m' e' =>
      have hcases : (m = 0 ∧ m' = 0) ∨ (s = s' ∧ m = m' ∧ e = e') := by simpa [same, and_assoc] using h
      rcases hcases with ⟨rfl, rfl⟩ | ⟨rfl, rfl, rfl⟩
      · rw [sameInt_finite] at hi ⊢
        have hzero : ∀ t, signed t 0 = 0 := by simp [signed]
        rw [hzero, Int.zero_mul, eq_comm, Int.mul_eq_zero] at hi
        rw [hzero, hi.resolve_right (pow_ne_zero _)]
        simp
      · exact hi
    | _ => cases h
  | _ => cases hi

/-- Of two equal numbers, one with 53 bits and the other with no more, the first has the lesser
exponent. -/
theorem exponent_le {m m' p q : Nat} (hm : 2 ^ 52 ≤ m) (hm' : m' < 2 ^ 53)
    (h : m * 2 ^ p = m' * 2 ^ q) : p ≤ q := by
  by_contra hlt
  obtain ⟨d, rfl⟩ : ∃ d, p = q + (d + 1) := ⟨p - q - 1, by omega⟩
  rw [Nat.pow_add, Nat.mul_comm (2 ^ q), ← Nat.mul_assoc] at h
  have hmul : m * 2 ^ (d + 1) = m' := Nat.eq_of_mul_eq_mul_right (Nat.two_pow_pos q) h
  have hd : 2 ^ 1 ≤ 2 ^ (d + 1) := Nat.pow_le_pow_right (by decide) (by omega)
  have hlarge : 2 ^ 52 * 2 ^ 1 ≤ m * 2 ^ (d + 1) := Nat.mul_le_mul hm hd
  omega

/-- No two doubles are the same whole number. -/
theorem same_of_sameInt (hx : x.Canonical) (hy : y.Canonical) (h : x.sameInt i = true)
    (h' : y.sameInt i = true) : x.same y = true := by
  cases x with
  | nan => cases h
  | infinite s => cases h
  | finite s m e =>
    cases y with
    | nan => cases h'
    | infinite s' => cases h'
    | finite s' m' e' =>
      obtain ⟨hm, he, -, hbits⟩ := hx
      obtain ⟨hm', he', -, hbits'⟩ := hy
      rw [sameInt_finite] at h h'
      have hcross : signed s m * (2 ^ (e.toNat + (-e').toNat) : Nat) =
          signed s' m' * (2 ^ (e'.toNat + (-e).toNat) : Nat) := by
        rw [Nat.pow_add, Nat.pow_add, Int.natCast_mul, Int.natCast_mul, ← Int.mul_assoc,
          ← Int.mul_assoc, h, h', Int.mul_right_comm]
      have hmag : m * 2 ^ (e.toNat + (-e').toNat) = m' * 2 ^ (e'.toNat + (-e).toNat) := by
        have habs := congrArg Int.natAbs hcross
        rwa [Int.natAbs_mul, Int.natAbs_mul, natAbs_signed, natAbs_signed, Int.natAbs_natCast,
          Int.natAbs_natCast] at habs
      -- neither exponent is the greater one
      have hee : e = e' := by
        have hle : e ≤ e' := by
          rcases hbits with hbits | hbits
          · have := exponent_le hbits hm' hmag
            omega
          · omega
        have hge : e' ≤ e := by
          rcases hbits' with hbits' | hbits'
          · have := exponent_le hbits' hm hmag.symm
            omega
          · omega
        omega
      subst hee
      have hmm : m = m' := Nat.eq_of_mul_eq_mul_right (Nat.two_pow_pos _) hmag
      subst hmm
      have hsigned : signed s m = signed s' m :=
        Int.eq_of_mul_eq_mul_right (pow_ne_zero _) hcross
      rw [same]
      cases s <;> cases s' <;> simp [signed] at hsigned ⊢ <;> omega

end Binary64

namespace Number

/-- A double has the form it is kept in. -/
def Exact : Number → Prop
  | .whole _ => True
  | .real x => x.Canonical

variable {x y z : Number}

theorem same_comm (x y : Number) : x.same y = y.same x := by
  cases x <;> cases y <;> simp [same, Bool.beq_comm, Binary64.same_comm]

theorem same_trans (hx : x.Exact) (hz : z.Exact) (h : x.same y = true) (h' : y.same z = true) :
    x.same z = true := by
  cases y with
  | whole j =>
    cases x with
    | whole i => rw [← eq_of_beq (show (i == j) = true from h)] at h'; exact h'
    | real x =>
      cases z with
      | whole k => rw [eq_of_beq (show (j == k) = true from h')] at h; exact h
      | real z => exact Binary64.same_of_sameInt hx hz h h'
  | real y =>
    cases x with
    | whole i =>
      cases z with
      | whole k => exact beq_iff_eq.2 (Binary64.eq_of_sameInt h h')
      | real z => exact Binary64.sameInt_of_same h' h
    | real x =>
      cases z with
      | whole k => exact Binary64.sameInt_of_same ((Binary64.same_comm _ _).trans h) h'
      | real z => exact Binary64.same_trans h h'

end Number

namespace Key

mutual

/-- All doubles in a name have the form they are kept in. -/
def Exact : Key → Prop
  | .float x => x.Canonical
  | .tuple ks => ExactAll ks
  | _ => True

/-- All doubles in some names have the form they are kept in. -/
def ExactAll : List Key → Prop
  | [] => True
  | k :: ks => k.Exact ∧ ExactAll ks

end

variable {a b k : Key} {x : Number}

theorem same_str {s : String} : k.same (.str s) = true ↔ k = .str s := by
  cases k <;> simp [Key.same, Key.number?]

theorem str_same {s : String} : (Key.str s).same k = true ↔ k = .str s := by
  cases k with
  | str t => rw [Key.same, beq_iff_eq, Key.str.injEq, eq_comm]
  | _ => simp [Key.same, Key.number?]

/-- What names the same member as a number is the same number. -/
theorem same_of_number (h : a.number? = some x) :
    a.same b = true ↔ ∃ y, b.number? = some y ∧ x.same y = true := by
  cases a <;> cases h <;> cases b <;> simp [Key.same, Key.number?]

theorem number?_exact (h : a.Exact) (hx : a.number? = some x) : x.Exact := by
  cases a <;> cases hx
  · trivial
  · trivial
  · exact h

theorem same_trans_of_number {c : Key} (h : a.number? = some x) (ha : a.Exact) (hc : c.Exact)
    (hab : a.same b = true) (hbc : b.same c = true) : a.same c = true := by
  obtain ⟨y, hy, hxy⟩ := (same_of_number h).1 hab
  obtain ⟨z, hz, hyz⟩ := (same_of_number hy).1 hbc
  have hxz := Number.same_trans (number?_exact ha h) (number?_exact hc hz) hxy hyz
  exact (same_of_number h).2 ⟨z, hz, hxz⟩

mutual

theorem same_comm : ∀ a b : Key, a.same b = b.same a
  | .tuple as, b => by
    cases b with
    | tuple bs => rw [Key.same, Key.same, sameAll_comm as bs]
    | _ => rfl
  | .null, b => by cases b <;> rfl
  | .str _, b | .bytes _, b | .uuid _, b => by
    cases b <;> simp [Key.same, Key.number?, Bool.beq_comm]
  | .bool _, b | .int _, b | .float _, b => by
    cases b <;> simp [Key.same, Key.number?, Number.same_comm]

theorem sameAll_comm : ∀ as bs : List Key, sameAll as bs = sameAll bs as
  | [], [] => rfl
  | [], _ :: _ => rfl
  | _ :: _, [] => rfl
  | a :: as, b :: bs => by rw [sameAll, sameAll, same_comm a b, sameAll_comm as bs]

end

mutual

theorem same_trans : ∀ {a b c : Key}, a.Exact → c.Exact → a.same b = true → b.same c = true →
    a.same c = true
  | .tuple as, b, c, ha, hc, h, h' => by
    cases b with
    | tuple bs =>
      cases c with
      | tuple cs => exact sameAll_trans ha hc h h'
      | _ => cases h'
    | _ => cases h
  | .null, b, c, _, _, h, h' => by
    cases b with
    | null => exact h'
    | _ => cases h
  | .str s, b, c, _, _, h, h' => by rw [str_same.1 h] at h'; exact h'
  | .bytes bs, b, c, _, _, h, h' => by
    cases b with
    | bytes bs' => rw [Key.same, beq_iff_eq] at h; rw [h]; exact h'
    | _ => cases h
  | .uuid u, b, c, _, _, h, h' => by
    cases b with
    | uuid u' => rw [Key.same, beq_iff_eq] at h; rw [h]; exact h'
    | _ => cases h
  | .bool i, b, c, ha, hc, h, h' => same_trans_of_number rfl ha hc h h'
  | .int i, b, c, ha, hc, h, h' => same_trans_of_number rfl ha hc h h'
  | .float x, b, c, ha, hc, h, h' => same_trans_of_number rfl ha hc h h'

theorem sameAll_trans : ∀ {as bs cs : List Key}, ExactAll as → ExactAll cs →
    sameAll as bs = true → sameAll bs cs = true → sameAll as cs = true
  | [], [], [], _, _, _, _ => rfl
  | a :: as, b :: bs, c :: cs, ha, hc, h, h' => by
    rw [sameAll, Bool.and_eq_true] at h h' ⊢
    exact ⟨same_trans ha.1 hc.1 h.1 h'.1, sameAll_trans ha.2 hc.2 h.2 h'.2⟩

end

end Key

end Docbase
