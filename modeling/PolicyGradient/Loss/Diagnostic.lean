import PolicyGradient.Loss.Value

/-!
The losses computed from plain lists of log-probabilities, for diagnostics.

They take the same means as the tensor losses, entry by entry from left to right, but a list that
is empty has loss zero, and lists that are not equally long are a fault.
-/

namespace PolicyGradient.Diagnostic

variable {α : Type} [Scalar α]

/-- The mean of a list; zero for the empty one. -/
def mean (xs : List α) : α :=
  if xs.isEmpty then 0 else Scalar.sum xs / (xs.length : α)

/-- Fail unless two lists are equally long. -/
def equallyLong (xs ys : List α) : Outcome Unit :=
  if xs.length = ys.length then .ok () else faultWith .unequalLengths

/-- `-mean (log π · A)`. -/
def a2c (logProbs advantages : List α) : Outcome α := do
  equallyLong logProbs advantages
  return -mean (List.zipWith (· * ·) logProbs advantages)

/-- One term of the clipped surrogate; its bounds have to be in order. -/
def clippedTerm (epsilon logProb old advantage : α) : Outcome α :=
  let ratio := Scalar.exp (logProb - old)
  match Scalar.clamp? (1 - epsilon) (1 + epsilon) ratio with
  | some clipped => .ok (Scalar.lesser (ratio * advantage) (clipped * advantage))
  | none => faultWith .badBounds

/-- The terms of the clipped surrogate. -/
def clippedTerms (epsilon : α) : List α → List α → List α → Outcome (List α)
  | logProb :: logProbs, old :: olds, advantage :: advantages => do
      let term ← clippedTerm epsilon logProb old advantage
      let terms ← clippedTerms epsilon logProbs olds advantages
      return term :: terms
  | _, _, _ => .ok []

/-- `-mean (min (r · A, clip (r, 1 - ε, 1 + ε) · A))` for the probability ratio `r`. -/
def ppo (logProbs olds advantages : List α) (epsilon : α) : Outcome α := do
  equallyLong olds logProbs
  equallyLong advantages logProbs
  return -mean (← clippedTerms epsilon logProbs olds advantages)

/-- `-mean (log π · min (exp (A / β), w_max))`. -/
def awr (logProbs advantages : List α) (beta cap : α) : Outcome α := do
  equallyLong logProbs advantages
  return -mean (List.zipWith
    (fun logProb a => logProb * Scalar.lesser (Scalar.exp (a / beta)) cap) logProbs advantages)

/-- `Σ w (y - t)² / Σ w`. -/
def weightedSquares (predictions targets weights : List α) : Outcome α := do
  equallyLong predictions targets
  equallyLong predictions weights
  let squares := List.zipWith (fun y t => (y - t) * (y - t)) predictions targets
  return Scalar.sum (List.zipWith (· * ·) weights squares)
    / Scalar.greater (Scalar.sum weights) ValueLoss.leastWeight

end PolicyGradient.Diagnostic
