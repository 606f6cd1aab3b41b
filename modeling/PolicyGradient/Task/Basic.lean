import PolicyGradient.Batch

/-!
Tasks: where trajectories come from.

An agent only draws batches from its task and tells it when an epoch ends.  A task is a transition
function on states of its own, so that one draw can depend on those before it.
-/

namespace PolicyGradient

/-- Which recorded epochs slices may come from. -/
inductive EpochScope
  | latest
  | all
  deriving DecidableEq, Repr

/-- On-policy algorithms learn from the latest epoch only. -/
def EpochScope.ofOnPolicy (onPolicy : Bool) : EpochScope :=
  if onPolicy then .latest else .all

/-- What a batch has to look like. -/
structure BatchRequest where
  batchSize : Nat
  scope : EpochScope
  sliceLength : Nat
  /-- Whether slices may end on the final state, at which no action is taken. -/
  includeFinalState : Bool
  deriving DecidableEq, Repr

/-- A task with states `τ`. -/
structure Task (α τ : Type) where
  sample : BatchRequest → τ → Outcome (Trajectory α) × τ
  /-- The discount factor. -/
  gamma : τ → α
  endEpoch : Nat → τ → Outcome Unit × τ

namespace Task

/-- A call that a task has received. -/
inductive Call
  | sample (request : BatchRequest)
  | endEpoch (epoch : Nat)
  deriving DecidableEq, Repr

/-- A task's state with the calls that the task has received, in order. -/
structure Recorded (τ : Type) where
  state : τ
  calls : List Call

/-- The same task, keeping a record of its calls. -/
def recorded {α τ : Type} (task : Task α τ) : Task α (Recorded τ) where
  sample request s :=
    let (outcome, state) := task.sample request s.state
    (outcome, ⟨state, s.calls ++ [.sample request]⟩)
  gamma s := task.gamma s.state
  endEpoch epoch s :=
    let (outcome, state) := task.endEpoch epoch s.state
    (outcome, ⟨state, s.calls ++ [.endEpoch epoch]⟩)

/-- The requests among some calls. -/
def requests (calls : List Call) : List BatchRequest :=
  calls.filterMap fun call =>
    match call with
    | .sample request => some request
    | .endEpoch _ => none

end Task

end PolicyGradient
