import PolicyGradient.Failure

/-!
Computations on a state that can fail.

The state that a failure leaves behind is kept, because a failed epoch has trained for a while.
`run_bind` and its companions say what a sequence of actions does.
-/

namespace PolicyGradient

/-- A computation on states `σ` with a result or a failure; either way there is a last state. -/
abbrev Action (σ : Type) (β : Type) : Type :=
  ExceptT Failure (StateM σ) β

namespace Action

variable {σ τ β γ : Type}

/-- Result and last state from a first state. -/
def run (act : Action σ β) (s : σ) : Outcome β × σ :=
  StateT.run (ExceptT.run act) s

/-- The action that computes its result and state from the state. -/
def of (f : σ → Outcome β × σ) : Action σ β :=
  ExceptT.mk (StateT.mk f)

/-- A computation that leaves the state alone. -/
def lift (outcome : Outcome β) : Action σ β :=
  of fun s => (outcome, s)

/-- An action on a part of the state. -/
def on (part : σ → τ) (update : τ → σ → σ) (act : Action τ β) : Action σ β :=
  of fun s => let (outcome, t) := act.run (part s); (outcome, update t s)

/-- An action `n` times in a row; its results in order. -/
def replicate (n : Nat) (act : Action σ β) : Action σ (List β) :=
  match n with
  | 0 => pure []
  | n + 1 => do
      let first ← act
      let others ← replicate n act
      return first :: others

@[simp] theorem run_of (f : σ → Outcome β × σ) (s : σ) : (of f).run s = f s := rfl

@[simp] theorem run_lift (outcome : Outcome β) (s : σ) : (lift outcome).run s = (outcome, s) := rfl

@[simp] theorem run_on (part : σ → τ) (update : τ → σ → σ) (act : Action τ β) (s : σ) :
    (on part update act).run s = ((act.run (part s)).1, update (act.run (part s)).2 s) := rfl

@[simp] theorem run_pure (b : β) (s : σ) : (pure b : Action σ β).run s = (.ok b, s) := rfl

@[simp] theorem run_get (s : σ) : (get : Action σ σ).run s = (.ok s, s) := rfl

@[simp] theorem run_set (s t : σ) : (set t : Action σ PUnit).run s = (.ok ⟨⟩, t) := rfl

@[simp] theorem run_modify (f : σ → σ) (s : σ) :
    (modify f : Action σ PUnit).run s = (.ok ⟨⟩, f s) := rfl

theorem run_bind (act : Action σ β) (next : β → Action σ γ) (s : σ) :
    (act >>= next).run s =
      match act.run s with
      | (.ok b, t) => (next b).run t
      | (.error e, t) => (.error e, t) := by
  simp only [run, ExceptT.run_bind, StateT.run_bind]
  rcases (ExceptT.run act).run s with ⟨_ | _, _⟩ <;> rfl

end Action

end PolicyGradient
