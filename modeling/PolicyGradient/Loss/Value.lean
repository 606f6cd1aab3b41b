import PolicyGradient.Tensor.Basic

/-!
Weighted squared error, the loss of the value model.
-/

namespace PolicyGradient.ValueLoss

variable {α : Type} [Scalar α]

/-- The smallest total weight that is divided by, so that a batch of padding has loss zero. -/
def leastWeight : α :=
  1 / ((100000000 : Nat) : α)

/-- The total weight, at least `leastWeight`. -/
def totalWeight (weights : Tensor α 3) : α :=
  let total := weights.sum
  if Scalar.lt total leastWeight then leastWeight else total

/-- `Σ w (y - t)² / Σ w`. -/
def value (predictions targets weights : Tensor α 3) : Outcome α := do
  let squared ← predictions.zipWith (fun y t => (y - t) * (y - t)) targets
  let weighted ← squared.zipWith (· * ·) weights
  return weighted.sum / totalWeight weights

/-- The gradient at the predictions, carried back from the quotient to the weighted squares, from
them to the squares, and from those to the distances. -/
def gradient (predictions targets weights : Tensor α 3) : Outcome (Tensor α 3) := do
  let unit := 1 / totalWeight weights
  let distance ← predictions.zipWith (· - ·) targets
  let slope ← distance.zipWith (fun _ w => unit * w) weights
  let gradient ← distance.zipWith Scalar.squareSlope (slope.collapse distance.dims)
  return gradient.collapse predictions.dims

end PolicyGradient.ValueLoss
