/-!
# Actions

Steps on a state that may fail. A step that fails keeps what it did to the state before.
-/

namespace SmtSession

def Action (σ ε α : Type) : Type := σ → Except ε α × σ

namespace Action

variable {σ τ ε ε' α β : Type}

def run (action : Action σ ε α) (state : σ) : Except ε α × σ := action state

instance : Monad (Action σ ε) where
  pure a := fun state => (.ok a, state)
  bind action next := fun state =>
    match action state with
    | (.ok a, state) => next a state
    | (.error error, state) => (.error error, state)

def fail (error : ε) : Action σ ε α := fun state => (.error error, state)

def get : Action σ ε σ := fun state => (.ok state, state)

def modify (f : σ → σ) : Action σ ε Unit := fun state => (.ok (), f state)

def ofExcept (result : Except ε α) : Action σ ε α := fun state => (result, state)

/-- The result of an action as a value, so that what follows runs in any case. -/
def attempt (action : Action σ ε α) : Action σ ε (Except ε α) := fun state =>
  let (result, state) := action state
  (.ok result, state)

/-- An action on a part of a larger state, with its failures among those of the whole. -/
def onPart (part : τ → σ) (update : τ → σ → τ) (cause : ε → ε') (action : Action σ ε α) :
    Action τ ε' α := fun state =>
  let (result, inner) := action (part state)
  (result.mapError cause, update state inner)

theorem ext {action action' : Action σ ε α} (h : ∀ state, action.run state = action'.run state) :
    action = action' :=
  funext h

@[simp]
theorem run_pure (a : α) (state : σ) : (pure a : Action σ ε α).run state = (.ok a, state) := rfl

@[simp]
theorem run_fail (error : ε) (state : σ) :
    (fail error : Action σ ε α).run state = (.error error, state) := rfl

@[simp]
theorem run_get (state : σ) : (get : Action σ ε σ).run state = (.ok state, state) := rfl

@[simp]
theorem run_modify (f : σ → σ) (state : σ) :
    (modify f : Action σ ε Unit).run state = (.ok (), f state) := rfl

@[simp]
theorem run_ofExcept (result : Except ε α) (state : σ) :
    (ofExcept result : Action σ ε α).run state = (result, state) := rfl

@[simp]
theorem run_attempt (action : Action σ ε α) (state : σ) :
    action.attempt.run state = (.ok (action.run state).1, (action.run state).2) := rfl

@[simp]
theorem run_onPart (part : τ → σ) (update : τ → σ → τ) (cause : ε → ε') (action : Action σ ε α)
    (state : τ) :
    (onPart part update cause action).run state =
      ((action.run (part state)).1.mapError cause, update state (action.run (part state)).2) :=
  rfl

section Part

variable {part : τ → σ} {update : τ → σ → τ} {cause : ε → ε'} {action : Action σ ε α} {state : τ}
  {inner : σ}

theorem run_onPart_ok {a : α} (h : action.run (part state) = (.ok a, inner)) :
    (onPart part update cause action).run state = (.ok a, update state inner) := by
  rw [run_onPart, h]
  rfl

theorem run_onPart_error {error : ε} (h : action.run (part state) = (.error error, inner)) :
    (onPart part update cause action).run state = (.error (cause error), update state inner) := by
  rw [run_onPart, h]
  rfl

end Part

theorem run_bind (action : Action σ ε α) (next : α → Action σ ε β) (state : σ) :
    (action >>= next).run state =
      match action.run state with
      | (.ok a, state) => (next a).run state
      | (.error error, state) => (.error error, state) := rfl

theorem run_bind_ok {action : Action σ ε α} {state state' : σ} {a : α}
    (h : action.run state = (.ok a, state')) (next : α → Action σ ε β) :
    (action >>= next).run state = (next a).run state' := by
  rw [run_bind, h]

theorem run_bind_error {action : Action σ ε α} {state state' : σ} {error : ε}
    (h : action.run state = (.error error, state')) (next : α → Action σ ε β) :
    (action >>= next).run state = (.error error, state') := by
  rw [run_bind, h]

/-- Two steps end where the second ends, or where the first fails. -/
theorem run_bind_cases {action : Action σ ε α} {next : α → Action σ ε β} {state state' : σ}
    {result : Except ε β} (h : (action >>= next).run state = (result, state')) :
    (∃ a middle, action.run state = (.ok a, middle) ∧ (next a).run middle = (result, state')) ∨
      ∃ error, action.run state = (.error error, state') ∧ result = .error error := by
  rw [run_bind] at h
  split at h
  · rename_i a middle hfirst
    exact Or.inl ⟨a, middle, hfirst, h⟩
  · rename_i error middle hfirst
    obtain ⟨rfl, rfl⟩ := Prod.mk.inj h
    exact Or.inr ⟨error, hfirst, rfl⟩

instance : LawfulMonad (Action σ ε) := by
  refine LawfulMonad.mk' _ ?_ (fun _ _ => rfl) ?_
  · intro α action
    funext state
    simp only [Functor.map]
    generalize action state = outcome
    obtain ⟨error | a, state'⟩ := outcome
    · rfl
    · rfl
  · intro α β γ action next last
    funext state
    simp only [bind]
    generalize action state = outcome
    obtain ⟨error | a, state'⟩ := outcome
    · rfl
    · rfl

end Action

end SmtSession
