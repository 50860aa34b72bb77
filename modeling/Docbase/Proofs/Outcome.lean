import Docbase.Error
import Mathlib.Tactic.Push
import Mathlib.Tactic.Tauto

/-!
# Results and errors

How a computation that may fail comes to its result: each of its steps gives one. It fails with the
error of its first step that fails.

* `bind_eq_ok`, `bind_eq_error`: the two outcomes of a step and what comes behind it.
* `Error.isRejection`: the error is about an argument, and not about the database.
* `FailsWith`: whatever a computation fails with has a property.
* `FirstFailure`: the first of some elements that fails, with its error; `FirstFailure.mapM_iff`:
  elements that are worked on one by one fail with that error.
-/

namespace Docbase

variable {ε α β γ : Type}

/-- A result behind a first step: that step gave one too. -/
theorem bind_eq_ok {x : Except ε α} {f : α → Except ε β} {b : β} :
    (x >>= f) = .ok b ↔ ∃ a, x = .ok a ∧ f a = .ok b := by
  cases x with
  | error e => simp [bind, Except.bind]
  | ok a => simp [bind, Except.bind]

/-- Behind a first step that gives a result the computation goes on with it. -/
theorem bind_ok {x : Except ε α} {f : α → Except ε β} {a : α} (h : x = .ok a) :
    (x >>= f) = f a := by
  rw [h]
  rfl

/-- A first step that fails ends the computation. -/
theorem bind_error {x : Except ε α} {f : α → Except ε β} {e : ε} (h : x = .error e) :
    (x >>= f) = .error e := by
  rw [h]
  rfl

theorem bind_eq_error {x : Except ε α} {f : α → Except ε β} {e : ε} :
    (x >>= f) = .error e ↔ x = .error e ∨ ∃ a, x = .ok a ∧ f a = .error e := by
  cases x with
  | error e => simp [bind, Except.bind]
  | ok a => simp [bind, Except.bind]

/-- Steps that fail apart from one another: it is enough that one of them fails. -/
theorem bind_isError {x : Except ε α} {f : α → Except ε β} {Q : Prop}
    (hf : ∀ a, (∃ e, f a = .error e) ↔ Q) :
    (∃ e, (x >>= f) = .error e) ↔ (∃ e, x = .error e) ∨ Q := by
  cases x with
  | error e =>
    have herror : (∃ e', (Except.error e >>= f) = .error e') := ⟨e, rfl⟩
    simp [herror]
  | ok a =>
    have hok : (∃ e, (Except.ok a >>= f) = .error e) ↔ ∃ e, f a = .error e := Iff.rfl
    rw [hok, hf a]
    simp

/-- A step that only gives its result another form does not fail itself. -/
theorem map_isError {x : Except ε α} {f : α → β} :
    (∃ e, (do let a ← x; pure (f a)) = .error e) ↔ ∃ e, x = .error e := by
  have hpure : ∀ a, (∃ e, (pure (f a) : Except ε β) = .error e) ↔ False := fun a => by
    simp [pure, Except.pure]
  rw [bind_isError hpure, or_false]

theorem map_eq_error {x : Except ε α} {f : α → β} {e : ε} :
    (do let a ← x; pure (f a)) = .error e ↔ x = .error e := by
  rw [bind_eq_error]
  exact or_iff_left fun ⟨_, _, h⟩ => nomatch h

theorem map_eq_ok {x : Except ε α} {f : α → β} {b : β} :
    x.map f = .ok b ↔ ∃ a, x = .ok a ∧ f a = b := by
  cases x with
  | error e => simp [Except.map]
  | ok a => simp [Except.map]

/-- A failure in another form: the results stay as they are. -/
theorem mapError_eq_ok {x : Except ε α} {f : ε → γ} {a : α} :
    x.mapError f = .ok a ↔ x = .ok a := by
  cases x with
  | error e => simp [Except.mapError]
  | ok a => simp [Except.mapError]

/-- Two steps, of which the second one does not look at the first, give a result if both do. -/
theorem both_isOk {x : Except ε α} {y : Except ε β} {f : α → β → γ} :
    (∃ c, (do let a ← x; let b ← y; pure (f a b)) = .ok c) ↔
      (∃ a, x = .ok a) ∧ ∃ b, y = .ok b := by
  cases x <;> cases y <;> simp [bind, Except.bind, pure, Except.pure]

/-- Elements that are all written in some way and then read: if each of them gives a result, so do
they together. -/
theorem mapM_map_ok {as : List α} {write : α → β} {read : β → Except ε γ} {result : α → γ}
    (h : ∀ a ∈ as, read (write a) = .ok (result a)) :
    (as.map write).mapM read = .ok (as.map result) := by
  induction as with
  | nil => rfl
  | cons a as ih =>
    have ha := h a List.mem_cons_self
    have has := ih fun b hb => h b (List.mem_cons_of_mem a hb)
    rw [List.map_cons, List.mapM_cons, ha, has]
    rfl

/-- It matters only what comes of the elements themselves. -/
theorem mapM_congr {as : List α} {f g : α → Except ε β} (h : ∀ a ∈ as, f a = g a) :
    as.mapM f = as.mapM g := by
  induction as with
  | nil => rfl
  | cons a as ih =>
    have has := ih fun b hb => h b (List.mem_cons_of_mem a hb)
    rw [List.mapM_cons, List.mapM_cons, h a List.mem_cons_self, has]

theorem refuse_eq_ok {x : Except Cause α} {a : α} : refuse x = .ok a ↔ x = .ok a := by
  cases x with
  | error e => simp [refuse]
  | ok a => simp [refuse]

theorem refuse_eq_error {x : Except Cause α} {e : Error} :
    refuse x = .error e ↔ ∃ c, x = .error c ∧ e = .refused c := by
  cases x with
  | error c => simp [refuse, eq_comm]
  | ok a => simp [refuse]

theorem refuse_isError {x : Except Cause α} :
    (∃ e, refuse x = .error e) ↔ ∃ c, x = .error c := by
  cases x with
  | error c => simp [refuse]
  | ok a => simp [refuse]

/-! ## What a computation fails with -/

/-- The database could not be reached. -/
def Cause.isConnection : Cause → Bool
  | .databaseNotSet | .connectFailed .. => true
  | _ => false

/-- The error is about an argument: it comes neither from the database nor from an attempt to connect
to it. -/
def Error.isRejection : Error → Bool
  | .engine _ => false
  | .refused c => !c.isConnection
  | .invalid _ | .notAFilter _ | .misuse _ => true

/-- Whatever a computation fails with has a property. -/
def FailsWith (P : ε → Prop) (x : Except ε α) : Prop := ∀ e, x = .error e → P e

namespace FailsWith

variable {P : ε → Prop}

theorem ok (a : α) : FailsWith P (.ok a) := by
  intro e h
  cases h

theorem error {e : ε} (h : P e) : FailsWith P (.error e : Except ε α) := by
  intro e' h'
  cases h'
  exact h

theorem bind {x : Except ε α} {f : α → Except ε β} (hx : FailsWith P x)
    (hf : ∀ a, FailsWith P (f a)) : FailsWith P (x >>= f) := by
  intro e h
  rcases bind_eq_error.1 h with h | ⟨a, -, h⟩
  · exact hx e h
  · exact hf a e h

theorem map {x : Except ε α} {f : α → β} (hx : FailsWith P x) : FailsWith P (x.map f) := by
  cases x with
  | error e => exact .error (hx e rfl)
  | ok a => exact .ok (f a)

theorem mapM {as : List α} {f : α → Except ε β} (h : ∀ a ∈ as, FailsWith P (f a)) :
    FailsWith P (as.mapM f) := by
  induction as with
  | nil => exact .ok _
  | cons a as ih =>
    rw [List.mapM_cons]
    have has := ih fun b hb => h b (List.mem_cons_of_mem a hb)
    exact (h a List.mem_cons_self).bind fun _ => has.bind fun _ => .ok _

/-- A refusal fails with its cause. -/
theorem refuse {Q : Error → Prop} {x : Except Cause α} (h : FailsWith (fun c => Q (.refused c)) x) :
    FailsWith Q (Docbase.refuse x) := by
  intro e he
  obtain ⟨c, hc, rfl⟩ := refuse_eq_error.1 he
  exact h c hc

end FailsWith

/-- A misuse is about an argument. -/
theorem misuse_rejects (x : Except Misuse α) :
    FailsWith (fun e : Error => e.isRejection = true) (x.mapError .misuse) := by
  cases x with
  | error m => exact .error rfl
  | ok a => exact .ok a

/-! ## What comes first -/

/-- The first of some elements that fails, with its error. -/
def FirstFailure (fails : α → ε → Prop) (as : List α) (e : ε) : Prop :=
  ∃ before a after, as = before ++ a :: after ∧ (∀ b ∈ before, ∀ e, ¬ fails b e) ∧ fails a e

namespace FirstFailure

variable {fails : α → ε → Prop} {a : α} {as bs : List α} {e : ε}

theorem not_nil : ¬ FirstFailure fails [] e := by
  rintro ⟨before, a, after, h, -⟩
  cases before <;> cases h

/-- The head fails, or it does not and something behind it is the first. -/
theorem cons_iff : FirstFailure fails (a :: as) e ↔
    fails a e ∨ ((∀ e, ¬ fails a e) ∧ FirstFailure fails as e) := by
  constructor
  · rintro ⟨before, b, after, h, hbefore, hb⟩
    cases before with
    | nil => cases h; exact .inl hb
    | cons c before =>
      cases h
      have hrest : ∀ b ∈ before, ∀ e, ¬ fails b e := fun b hb =>
        hbefore b (List.mem_cons_of_mem _ hb)
      exact .inr ⟨hbefore a List.mem_cons_self, before, b, after, rfl, hrest, hb⟩
  · rintro (h | ⟨ha, before, b, after, rfl, hbefore, hb⟩)
    · exact ⟨[], a, as, rfl, by simp, h⟩
    · refine ⟨a :: before, b, after, rfl, ?_, hb⟩
      intro c hc
      rcases List.mem_cons.1 hc with rfl | hc
      · exact ha
      · exact hbefore c hc

theorem singleton_iff : FirstFailure fails [a] e ↔ fails a e := by
  rw [cons_iff]
  exact or_iff_left fun h => not_nil h.2

theorem append_iff : FirstFailure fails (as ++ bs) e ↔
    FirstFailure fails as e ∨ ((∀ a ∈ as, ∀ e, ¬ fails a e) ∧ FirstFailure fails bs e) := by
  induction as with
  | nil => simp [not_nil]
  | cons a as ih =>
    rw [List.cons_append, cons_iff, cons_iff, ih, List.forall_mem_cons]
    tauto

/-- Something is the first to fail exactly if something fails. -/
theorem exists_iff : (∃ e, FirstFailure fails as e) ↔ ∃ a ∈ as, ∃ e, fails a e := by
  constructor
  · rintro ⟨e, before, a, after, rfl, -, ha⟩
    exact ⟨a, by simp, e, ha⟩
  · intro h
    induction as with
    | nil => simp at h
    | cons a as ih =>
      by_cases ha : ∃ e, fails a e
      · obtain ⟨e, he⟩ := ha
        exact ⟨e, cons_iff.2 (.inl he)⟩
      · obtain ⟨b, hb, hfails⟩ := h
        rcases List.mem_cons.1 hb with rfl | hb
        · exact absurd hfails ha
        · obtain ⟨e, he⟩ := ih ⟨b, hb, hfails⟩
          exact ⟨e, cons_iff.2 (.inr ⟨fun e h => ha ⟨e, h⟩, he⟩)⟩

/-- A computation that fails with the first failure gives a result exactly if nothing fails. -/
theorem ok_iff {x : Except ε β} (h : ∀ e, x = .error e ↔ FirstFailure fails as e) :
    (∃ b, x = .ok b) ↔ ∀ a ∈ as, ∀ e, ¬ fails a e := by
  have hnone : (∀ e, ¬ FirstFailure fails as e) ↔ ∀ a ∈ as, ∀ e, ¬ fails a e := by
    rw [← not_exists, exists_iff]
    push Not
    rfl
  rw [← hnone]
  simp only [← h]
  cases x <;> simp

/-- Of two computations one behind the other, the second one fails if the first one does not. -/
theorem both_iff {δ : Type} {x : Except ε β} {y : Except ε γ} {join : β → γ → δ}
    (hx : ∀ e, x = .error e ↔ FirstFailure fails as e)
    (hy : ∀ e, y = .error e ↔ FirstFailure fails bs e) :
    (do let b ← x
        let c ← y
        pure (join b c)) = .error e ↔ FirstFailure fails (as ++ bs) e := by
  rw [bind_eq_error, append_iff, ← ok_iff hx, ← hx, ← hy]
  simp only [map_eq_error, exists_and_right]

/-- Elements that are worked on one by one fail with the first of them that does. -/
theorem mapM_iff {f : α → Except ε β} :
    as.mapM f = .error e ↔ FirstFailure (fun a e => f a = .error e) as e := by
  induction as generalizing e with
  | nil => simp [not_nil, pure, Except.pure]
  | cons a as ih =>
    have hnever : (∀ e, ¬ f a = .error e) ↔ ∃ b, f a = .ok b := by
      cases f a <;> simp
    rw [List.mapM_cons, bind_eq_error, cons_iff, hnever, ← ih]
    simp only [map_eq_error, exists_and_right]

end FirstFailure

end Docbase
