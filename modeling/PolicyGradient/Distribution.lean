import PolicyGradient.Tensor.Basic

/-!
Action distributions of a policy.

A policy model maps each timestep to the inputs of a distribution, and the distribution gives the
log-probability of the action taken there.  Beside the value each distribution has its pullback:
the gradient at the inputs, from the gradient at the log-probabilities.
-/

namespace PolicyGradient

/-- A distribution over actions, given its inputs `[B, L, inputs]` and actions `[B, L, depth]`. -/
structure Distribution (α : Type) where
  /-- Depth of the inputs that a policy model has to produce. -/
  inputs : Nat
  /-- Log-probabilities `[B, L]`. -/
  logProb : Tensor α 3 → Tensor α 3 → Outcome (Tensor α 2)
  /-- The gradient at the inputs, from the gradient at the log-probabilities. -/
  pullback : Tensor α 3 → Tensor α 3 → Tensor α 2 → Outcome (Tensor α 3)

namespace Distribution

variable {α : Type} [Scalar α]

/-- The largest entry of a list. -/
def largest : List α → α
  | [] => 0
  | x :: xs => xs.foldl Scalar.greater x

/-- The sum of the exponentials of the logits, each relative to `top`. -/
def totalWeight (top : α) (logits : List α) : α :=
  (logits.map fun x => Scalar.exp (x - top)).foldl (· + ·) 0

/-- Logarithm of the softmax at one index. -/
def logSoftmax (logits : List α) (i : Nat) : α :=
  let top := largest logits
  (logits.getD i 0 - top) - Scalar.ln (totalWeight top logits)

/-- What a gradient `g` at the logarithm of the softmax of `chosen` gives at index `i`: the part of
the chosen logit itself, less that of the total weight. -/
def logSoftmaxSlope (logits : List α) (chosen i : Nat) (g : α) : α :=
  let top := largest logits
  (if i = chosen then g else 0) +
    (-g) * (1 / totalWeight top logits) * Scalar.exp (logits.getD i 0 - top)

/-- The logits at a timestep. -/
def logitsAt (inputs : Tensor α 3) (b t : Nat) : List α :=
  (List.range (inputs.axis 2)).map fun i => inputs.entry [b, t, i]

/-- The action at a timestep as an index, cut toward zero. -/
def choiceAt (actions : Tensor α 3) (b t : Nat) : Nat :=
  ((Scalar.truncate? (actions.entry [b, t, 0])).getD 0).toNat

/-- The number, cut toward zero, is an index below `count`. -/
def isIndex (count : Nat) (x : α) : Bool :=
  match Scalar.truncate? x with
  | none => false
  | some k => decide (0 ≤ k) && decide (k < count)

/-- Every action is the index of a logit. -/
def choicesInRange (inputs actions : Tensor α 3) : Bool :=
  actions.toList.all (isIndex (inputs.axis 2))

/-- Logits and actions agree in their leading sizes, and there is one action per timestep. -/
def choicesFit (inputs actions : Tensor α 3) : Bool :=
  actions.axis 0 == inputs.axis 0 && actions.axis 1 == inputs.axis 1 &&
    inputs.axis 0 * inputs.axis 1 * actions.axis 2 == inputs.axis 0 * inputs.axis 1

/-- Fail unless every timestep has one action and it is the index of a logit. -/
def checkChoices (inputs actions : Tensor α 3) : Outcome Unit :=
  if ! choicesFit inputs actions then faultWith .incompatibleShapes
  else if ! choicesInRange inputs actions then faultWith .outOfBounds
  else .ok ()

/-- One of finitely many actions, chosen by its logit.  The declared number of actions is only
reported: the logits alone decide which indices exist. -/
def categorical (count : Nat) : Distribution α where
  inputs := count
  logProb inputs actions := do
    checkChoices inputs actions
    return Tensor.tabulate inputs.front fun p =>
      let b := p.getD 0 0
      let t := p.getD 1 0
      logSoftmax (logitsAt inputs b t) (choiceAt actions b t)
  pullback inputs actions gradient := do
    checkChoices inputs actions
    return Tensor.tabulate inputs.dims fun p =>
      let b := p.getD 0 0
      let t := p.getD 1 0
      logSoftmaxSlope (logitsAt inputs b t) (choiceAt actions b t) (p.getD 2 0)
        (gradient.entry [b, t])

/-- Half of one. -/
def half : α := 1 / (1 + 1)

/-- Logarithm of the normalizing factor of a normal density. -/
def logNorm (std : α) : α :=
  Scalar.ln std + half * Scalar.ln ((1 + 1) * Scalar.pi)

/-- Distance from the mean in standard deviations. -/
def normalized (std : α) (mean actions : Tensor α 3) : Outcome (Tensor α 3) :=
  actions.zipWith (fun a m => (a - m) / std) mean

/-- What a gradient `g` at the log-density of a component gives at its mean, which lies `z` standard
deviations below the action.  The factors are multiplied from the density inward. -/
def normalSlope (std z g : α) : α :=
  -(Scalar.squareSlope z (g * -half) * (1 / std))

/-- Independent normal components around the inputs, with a fixed standard deviation.  The
declared depth is only reported. -/
def gaussian (depth : Nat) (std : α) : Distribution α where
  inputs := depth
  logProb inputs actions := do
    let z ← normalized std inputs actions
    let density := z.map fun x => x * x * -half - logNorm std
    (density.sumAxis 2).reshape inputs.front
  pullback inputs actions gradient := do
    let z ← normalized std inputs actions
    let gradient ← gradient.reshape #v[z.axis 0, z.axis 1, 1]
    let slope ← z.zipWith (normalSlope std) gradient
    return slope.collapse inputs.dims

end Distribution

end PolicyGradient
