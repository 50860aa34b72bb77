import Docbase.Store.Reader

/-!
# Actions

* `Store.runFrom`: what comes of an action in a session, with a rule for every way to build actions.
* `Store.Gives`: whatever an action gives has a property.
* `Store.Moves`: whatever comes of an action in a session with some options, the sessions before and
  behind it are related. If the relation goes from step to step, it is enough to look at the steps.
-/

namespace Docbase.Store

variable {σ α β : Type} {s : Session σ}

/-- What comes of an action in a session: its result or its error, and the session behind it. -/
def runFrom (s : Session σ) (a : Action σ α) : Except Error α × Session σ := a.run.run s

@[simp] theorem runFrom_pure (x : α) : runFrom s (pure x) = (.ok x, s) := rfl

@[simp] theorem runFrom_throw (e : Error) : runFrom s (throw e : Action σ α) = (.error e, s) := rfl

theorem runFrom_bind (a : Action σ α) (f : α → Action σ β) :
    runFrom s (a >>= f) = match runFrom s a with
      | (.ok x, t) => runFrom t (f x)
      | (.error e, t) => (.error e, t) := by
  unfold runFrom ExceptT.run StateT.run
  simp only [bind, ExceptT.bind, ExceptT.mk, StateT.bind, ExceptT.bindCont]
  cases a s with
  | mk x t => cases x <;> rfl

@[simp] theorem runFrom_map (f : α → β) (a : Action σ α) :
    runFrom s (f <$> a) = ((runFrom s a).1.map f, (runFrom s a).2) := by
  unfold runFrom ExceptT.run StateT.run
  simp only [Functor.map, ExceptT.map, ExceptT.mk, bind, StateT.bind]
  cases a s with
  | mk x t => cases x <;> rfl

theorem runFrom_tryCatch (a : Action σ α) (f : Error → Action σ α) :
    runFrom s (tryCatch a f) = match runFrom s a with
      | (.ok x, t) => (.ok x, t)
      | (.error e, t) => runFrom t (f e) := by
  unfold runFrom ExceptT.run StateT.run
  simp only [tryCatch, tryCatchThe, MonadExceptOf.tryCatch, ExceptT.tryCatch, ExceptT.mk, bind,
    StateT.bind]
  cases a s with
  | mk x t => cases x <;> rfl

@[simp] theorem runFrom_get : runFrom s (get : Action σ (Session σ)) = (.ok s, s) := rfl

@[simp] theorem runFrom_modify (f : Session σ → Session σ) :
    runFrom s (modify f : Action σ Unit) = (.ok (), f s) := rfl

@[simp] theorem runFrom_given (x : Except Error α) : runFrom s (given x) = (x, s) := by
  cases x <;> rfl

@[simp] theorem runFrom_note (e : Event) :
    runFrom s (note e) = (.ok (), { s with history := s.history ++ [e] }) := rfl

@[simp] theorem runFrom_log (level : Log.Level) (text : String) :
    runFrom s (log level text) = (.ok (), { s with history := s.history ++ [.logged level text] }) :=
  rfl

@[simp] theorem runFrom_perform (f : σ → α × σ) :
    runFrom s (perform f) = (.ok (f s.engine).1, { s with engine := (f s.engine).2 }) := rfl

@[simp] theorem runFrom_change (f : σ → σ) :
    runFrom s (change f) = (.ok (), { s with engine := f s.engine }) := rfl

/-- Whatever an action gives has a property. -/
def Gives (P : α → Prop) (a : Action σ α) : Prop := ∀ s x, (runFrom s a).1 = .ok x → P x

namespace Gives

variable {P : β → Prop}

theorem pure {x : β} (h : P x) : Gives P (pure x : Action σ β) := by
  intro s y hy
  cases hy
  exact h

theorem throw (e : Error) : Gives P (throw e : Action σ β) := fun s x hx => by cases hx

/-- What comes last tells what is given. -/
theorem bind {a : Action σ α} {f : α → Action σ β} (h : ∀ x, Gives P (f x)) :
    Gives P (a >>= f) := by
  intro s y hy
  rw [runFrom_bind] at hy
  cases hrun : runFrom s a with
  | mk x t =>
    rw [hrun] at hy
    cases x with
    | error e => cases hy
    | ok x => exact h x t y hy

theorem tryCatch {a : Action σ β} {f : Error → Action σ β} (ha : Gives P a)
    (hf : ∀ e, Gives P (f e)) : Gives P (tryCatch a f) := by
  intro s y hy
  have hs := ha s y
  rw [runFrom_tryCatch] at hy
  cases hrun : runFrom s a with
  | mk x t =>
    rw [hrun] at hy hs
    cases x with
    | error e => exact hf e t y hy
    | ok x => exact hs hy

end Gives

/-! ## Relations between sessions -/

/-- Whatever comes of an action in a session with some options, the session before it is related to
the session behind it. -/
def Moves (o : Options) (R : Session σ → Session σ → Prop) (a : Action σ α) : Prop :=
  ∀ s, s.options = o → R s (runFrom s a).2

namespace Moves

variable {o : Options} {R : Session σ → Session σ → Prop} {a : Action σ α}

/-- The relation goes from step to step, and no step changes the options. -/
structure Stepwise (R : Session σ → Session σ → Prop) : Prop where
  refl : ∀ s, R s s
  trans : ∀ {s t u}, R s t → R t u → R s u
  options : ∀ {s t}, R s t → t.options = s.options

theorem pure (hR : Stepwise R) (x : α) : Moves o R (pure x) := fun s _ => hR.refl s

theorem throw (hR : Stepwise R) (e : Error) : Moves o R (throw e : Action σ α) :=
  fun s _ => hR.refl s

theorem get (hR : Stepwise R) : Moves o R (get : Action σ (Session σ)) := fun s _ => hR.refl s

theorem given (hR : Stepwise R) (x : Except Error α) : Moves o R (given x) := by
  intro s _
  rw [runFrom_given]
  exact hR.refl s

/-- What comes of an action is known to what is done behind it. -/
theorem bind_of (hR : Stepwise R) {f : α → Action σ β} (ha : Moves o R a)
    (hf : ∀ x s t, runFrom s a = (.ok x, t) → t.options = o → R t (runFrom t (f x)).2) :
    Moves o R (a >>= f) := by
  intro s ho
  have hs := ha s ho
  rw [runFrom_bind]
  cases hrun : runFrom s a with
  | mk x t =>
    rw [hrun] at hs
    cases x with
    | error e => exact hs
    | ok x => exact hR.trans hs (hf x s t hrun ((hR.options hs).trans ho))

theorem bind (hR : Stepwise R) {f : α → Action σ β} (ha : Moves o R a)
    (hf : ∀ x, Moves o R (f x)) : Moves o R (a >>= f) :=
  ha.bind_of hR fun x _ t _ ho => hf x t ho

theorem tryCatch (hR : Stepwise R) {f : Error → Action σ α} (ha : Moves o R a)
    (hf : ∀ e, Moves o R (f e)) : Moves o R (tryCatch a f) := by
  intro s ho
  have hs := ha s ho
  rw [runFrom_tryCatch]
  cases hrun : runFrom s a with
  | mk x t =>
    rw [hrun] at hs
    cases x with
    | ok x => exact hs
    | error e => exact hR.trans hs (hf e t ((hR.options hs).trans ho))

/-- What is worked out first is known behind it. -/
theorem given_bind (hR : Stepwise R) {x : Except Error α} {f : α → Action σ β}
    (hf : ∀ a, x = .ok a → Moves o R (f a)) : Moves o R (Store.given x >>= f) := by
  cases x with
  | error e => exact fun s _ => hR.refl s
  | ok a =>
    intro s ho
    rw [runFrom_bind, runFrom_given]
    exact hf a rfl s ho

/-- What reads the session first depends on the session. -/
theorem ofSession {f : Session σ → Action σ α}
    (h : ∀ s, s.options = o → R s (runFrom s (f s)).2) :
    Moves o R ((MonadState.get : Action σ (Session σ)) >>= f) := by
  intro s ho
  rw [runFrom_bind]
  exact h s ho

/-- What depends on nothing but the options is about the options of the sessions. -/
theorem ofOptions {f : Options → Action σ α} (h : Moves o R (f o)) :
    Moves o R ((MonadState.get : Action σ (Session σ)) >>= fun s => f s.options) := by
  refine ofSession fun s ho => ?_
  rw [ho]
  exact h s ho

end Moves

end Docbase.Store
