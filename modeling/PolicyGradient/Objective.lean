import PolicyGradient.Batch
import PolicyGradient.Loss.Policy
import PolicyGradient.Loss.Value
import PolicyGradient.Model.Basic

/-!
What a learner minimizes: a loss of a model on a batch, with its gradients at the parameters.

Before a loss is taken the output of the model has to have the sizes of the batch, so that nothing
is stretched.
-/

namespace PolicyGradient

/-- A loss and its gradients. -/
structure Objective (α β : Type) where
  loss : Model α → β → Outcome α
  gradients : Model α → β → Outcome (Gradients α)

namespace Objective

variable {α : Type} [Scalar α]

/-- Regression of the output on the targets, weighted with the mask. -/
def value : Objective α (ValueBatch α) where
  loss model batch := do
    let predictions ← model.output batch.observations
    ensureShape .valueOutput predictions.shape batch.targets.shape
    ensureShape .valueMask batch.mask.shape batch.targets.shape
    ValueLoss.value predictions batch.targets batch.mask
  gradients model batch := do
    let predictions ← model.output batch.observations
    model.gradients batch.observations
      (← ValueLoss.gradient predictions batch.targets batch.mask)

/-- A policy loss of the output. -/
def policy (loss : PolicyLoss α) : Objective α (PolicyBatch α) where
  loss model batch := do
    batch.validate
    let old ← batch.oldLogProbsWithDepth
    let inputs ← model.output batch.observations
    ensureShape .policyOutput (leadingSizes inputs) batch.advantages.shape
    loss.value inputs batch.actions batch.advantages old
  gradients model batch := do
    let old ← batch.oldLogProbsWithDepth
    let inputs ← model.output batch.observations
    model.gradients batch.observations
      (← loss.gradient inputs batch.actions batch.advantages old)

end Objective

end PolicyGradient
