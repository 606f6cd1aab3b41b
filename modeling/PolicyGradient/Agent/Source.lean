import PolicyGradient.Action
import PolicyGradient.Algorithm
import PolicyGradient.Model.Basic
import PolicyGradient.Task.Basic

/-!
Where the batches of an agent come from.

Each batch is drawn from the task when it is asked for, and none is kept.  A policy batch is scored
with an evaluation copy of the value model, which takes over the current value weights first.
-/

namespace PolicyGradient.Source

variable {α ρ τ : Type}

/-- The request for a value batch. -/
def valueRequest (config : Config α ρ) (length : Nat) : BatchRequest :=
  ⟨config.valueBatchSize, .all, length, false⟩

/-- The request for a policy batch; slices of more than one timestep may end on a final state. -/
def policyRequest (config : Config α ρ) (onPolicy : Bool) : Outcome BatchRequest := do
  let length ← config.policySliceLength
  return ⟨config.policyBatchSize, .ofOnPolicy onPolicy, length, decide (1 < length)⟩

/-- Draw a trajectory whose fields fit together. -/
def trajectory (task : Task α τ) (request : BatchRequest) : Action τ (Trajectory α) := do
  let trajectory ← Action.of (task.sample request)
  Action.lift trajectory.validate
  return trajectory

/-- Draw a value batch. -/
def valueBatch (task : Task α τ) (request : BatchRequest) : Action τ (ValueBatch α) := do
  Action.lift (← trajectory task request).valueBatch

/-- The state that policy batches are drawn from. -/
structure PolicyState (α τ : Type) where
  task : τ
  /-- The evaluation copy of the value model. -/
  evaluation : Model α

/-- Value estimates `[B, L, 1]` by a model with the given weights, which stays as the evaluation
copy. -/
def estimate (weights : ModelWeights α) (observations : Tensor α 3) :
    Action (PolicyState α τ) (Tensor α 3) := do
  let model ← Action.lift ((← get).evaluation.load weights)
  let values ← Action.lift (model.output observations)
  modify fun s => { s with evaluation := model }
  return values

/-- Estimates `[B, L, 1]` of the requested sizes, without their last axis. -/
def sized (request : BatchRequest) (values : Tensor α 3) : Outcome (Tensor α 2) := do
  ensureShape .valueEstimate values.shape [request.batchSize, request.sliceLength, 1]
  values.reshape #v[request.batchSize, request.sliceLength]

/-- Draw a policy batch and score it with the given value weights. -/
def policyBatch (task : Task α τ) (algorithm : Algorithm α) (request : BatchRequest)
    (lookAhead : Nat) (weights : ModelWeights α) :
    Action (PolicyState α τ) (PolicyBatch α) := do
  let drawn ← Action.on PolicyState.task (fun t s => { s with task := t })
    (Action.of (task.sample request))
  let gamma := task.gamma (← get).task
  Action.lift drawn.validate
  let values ← estimate weights drawn.observations
  Action.lift (do algorithm.policyInputs drawn (← sized request values) gamma lookAhead)

end PolicyGradient.Source
