import PolicyGradient.Distribution

/-!
Policy gradient losses: A2C, PPO and AWR.

A loss compares the log-probabilities of recorded actions under the current policy with the
advantages of those actions.  Each loss gives its value, the mean over batch and time of a
surrogate, and its gradient at the distribution inputs.
-/

namespace PolicyGradient

/-- A loss on distribution inputs `[B, L, n]`, actions `[B, L, depth]`, advantages `[B, L]` and
the log-probabilities `[B, L, 1]` under the policy that took the actions. -/
structure PolicyLoss (α : Type) where
  name : String
  value : (inputs actions : Tensor α 3) → (advantages : Tensor α 2) → (old : Tensor α 3) →
    Outcome α
  /-- The gradient at the distribution inputs. -/
  gradient : (inputs actions : Tensor α 3) → (advantages : Tensor α 2) → (old : Tensor α 3) →
    Outcome (Tensor α 3)

namespace PolicyLoss

variable {α : Type} [Scalar α]

/-- The gradient of a negated mean at each of its `count` entries. -/
def share (count : Nat) : α :=
  -(1 / (count : α))

/-- The gradient at the inputs of the negated mean of `log π` times a factor. -/
def weightedGradient (distribution : Distribution α) (inputs actions : Tensor α 3)
    (factor : Tensor α 2) : Outcome (Tensor α 3) := do
  let logProbs ← distribution.logProb inputs actions
  let factor ← logProbs.zipWith (fun _ w => w) factor
  let slope := factor.map (share factor.data.size * ·)
  distribution.pullback inputs actions (slope.collapse logProbs.dims)

/-- `-mean (log π · A)`. -/
def a2c (distribution : Distribution α) : PolicyLoss α where
  name := "A2C"
  value inputs actions advantages _ := do
    let logProbs ← distribution.logProb inputs actions
    let surrogate ← logProbs.zipWith (· * ·) advantages
    return -(← surrogate.mean)
  gradient inputs actions advantages _ :=
    weightedGradient distribution inputs actions advantages

/-- Cut to at most `hi`, then to at least `lo`; what is not a number stays. -/
def cut (lo hi x : α) : α :=
  let y := if Scalar.lt hi x then hi else x
  if Scalar.lt y lo then lo else y

/-- Neither bound cuts. -/
def uncut (lo hi x : α) : Bool :=
  ! Scalar.lt hi x && ! Scalar.lt x lo

/-- The clipped term where it is smaller, else the plain term. -/
def pessimistic (plain clipped : α) : α :=
  if Scalar.lt clipped plain then clipped else plain

/-- The gradient `g` at the smaller term, as it falls to the plain term. -/
def plainShare (plain clipped g : α) : α :=
  if Scalar.lt clipped plain then 0 else g

/-- The gradient `g` at the smaller term, as it falls to the clipped term. -/
def clippedShare (plain clipped g : α) : α :=
  if Scalar.lt clipped plain then g else 0

/-- Probability ratios of the current policy to the one that took the actions. -/
def ratios (logProbs : Tensor α 2) (old : Tensor α 3) : Outcome (Tensor α 2) := do
  let old ← old.reshape old.front
  logProbs.zipWith (fun new old => Scalar.exp (new - old)) old

/-- The gradient at the ratios: that of the plain terms, and that of the clipped terms where the
clipping is not active. -/
def ratioGradient (lo hi : α) (ratio advantages : Tensor α 2) : Outcome (Tensor α 2) := do
  let terms ← ratio.zipWith (fun r a => (r * a, cut lo hi r * a, a)) advantages
  let g := share terms.data.size
  let plain := terms.map fun (x, y, a) => plainShare x y g * a
  let clipped := terms.map fun (x, y, a) => clippedShare x y g * a
  let inside ← ratio.zipWith (fun r g => if uncut lo hi r then g else 0)
    (clipped.collapse ratio.dims)
  (plain.collapse ratio.dims).zipWith (· + ·) inside

/-- `-mean (min (r · A, clip (r, 1 - ε, 1 + ε) · A))` for the probability ratio `r`. -/
def ppo (distribution : Distribution α) (epsilon : α) : PolicyLoss α where
  name := "PPO"
  value inputs actions advantages old := do
    let logProbs ← distribution.logProb inputs actions
    let ratio ← ratios logProbs old
    let plain ← ratio.zipWith (· * ·) advantages
    let clipped ← (ratio.map (cut (1 - epsilon) (1 + epsilon))).zipWith (· * ·) advantages
    let surrogate ← plain.zipWith pessimistic clipped
    return -(← surrogate.mean)
  gradient inputs actions advantages old := do
    let logProbs ← distribution.logProb inputs actions
    let ratio ← ratios logProbs old
    let gradient ← ratioGradient (1 - epsilon) (1 + epsilon) ratio advantages
    let slope ← gradient.zipWith (· * ·) ratio
    distribution.pullback inputs actions (slope.collapse logProbs.dims)

/-- Weights `min (exp (A / β), w_max)` of the log-likelihoods. -/
def weights (beta cap : α) (advantages : Tensor α 2) : Tensor α 2 :=
  advantages.map fun a =>
    let w := Scalar.exp (a / beta)
    if Scalar.lt cap w then cap else w

/-- `-mean (log π · min (exp (A / β), w_max))`. -/
def awr (distribution : Distribution α) (beta cap : α) : PolicyLoss α where
  name := "AWR"
  value inputs actions advantages _ := do
    let logProbs ← distribution.logProb inputs actions
    let surrogate ← logProbs.zipWith (· * ·) (weights beta cap advantages)
    return -(← surrogate.mean)
  gradient inputs actions advantages _ :=
    weightedGradient distribution inputs actions (weights beta cap advantages)

end PolicyLoss

end PolicyGradient
