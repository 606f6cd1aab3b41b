import PolicyGradient.Tensor.Basic

/-!
Batches of trajectory slices and the training inputs made from them.

A batch holds `B` slices of length `L`.  Fields with a value per timestep have shape `[B, L]`,
fields with a vector per timestep `[B, L, depth]`.
-/

namespace PolicyGradient

/-- Recorded slices: observations and actions with a depth, all else one number per timestep. -/
structure Trajectory (α : Type) where
  observations : Tensor α 3
  actions : Tensor α 3
  rewards : Tensor α 2
  returns : Tensor α 2
  logProbs : Tensor α 2
  /-- 1 on real timesteps, 0 on padding. -/
  mask : Tensor α 2

/-- Inputs of value regression: returns and mask with a depth axis of size 1. -/
structure ValueBatch (α : Type) where
  observations : Tensor α 3
  targets : Tensor α 3
  mask : Tensor α 3

/-- Inputs of a policy update. -/
structure PolicyBatch (α : Type) where
  observations : Tensor α 3
  actions : Tensor α 3
  advantages : Tensor α 2
  oldLogProbs : Tensor α 2

/-- The two axes that all fields of a batch share. -/
def leadingSizes {α : Type} (t : Tensor α 3) : List Nat :=
  [t.axis 0, t.axis 1]

/-- The same entries with a depth axis of size 1. -/
def Tensor.withDepth {α : Type} (t : Tensor α 2) : Outcome (Tensor α 3) :=
  t.reshape #v[t.axis 0, t.axis 1, 1]

namespace Trajectory

variable {α : Type}

def batchSize (t : Trajectory α) : Nat :=
  t.rewards.axis 0

def length (t : Trajectory α) : Nat :=
  t.rewards.axis 1

/-- All fields share the leading sizes of the rewards. -/
def validate (t : Trajectory α) : Outcome Unit := do
  let lead := t.rewards.shape
  ensureShape (.trajectory .observations) (leadingSizes t.observations) lead
  ensureShape (.trajectory .actions) (leadingSizes t.actions) lead
  ensureShape (.trajectory .returns) t.returns.shape lead
  ensureShape (.trajectory .logProbs) t.logProbs.shape lead
  ensureShape (.trajectory .mask) t.mask.shape lead

/-- The regression inputs of a trajectory. -/
def valueBatch (t : Trajectory α) : Outcome (ValueBatch α) := do
  let targets ← t.returns.withDepth
  let mask ← t.mask.reshape #v[t.returns.axis 0, t.returns.axis 1, 1]
  return ⟨t.observations, targets, mask⟩

end Trajectory

namespace PolicyBatch

variable {α : Type}

/-- All fields share the leading sizes of the advantages. -/
def validate (b : PolicyBatch α) : Outcome Unit := do
  let lead := b.advantages.shape
  ensureShape (.policy .observations) (leadingSizes b.observations) lead
  ensureShape (.policy .actions) (leadingSizes b.actions) lead
  ensureShape (.policy .oldLogProbs) b.oldLogProbs.shape lead

/-- The old log-probabilities in the form that policy losses take. -/
def oldLogProbsWithDepth (b : PolicyBatch α) : Outcome (Tensor α 3) :=
  b.oldLogProbs.withDepth

end PolicyBatch

end PolicyGradient
