import PolicyGradient.Decimal.Text
import PolicyGradient.Failure
import PolicyGradient.Scalar

/-!
Learning-rate schedules: pure functions from the step number to a rate.

The smart constructors refuse rates that are negative or not finite and phases without steps; a
`Refusal` names the parameter at fault.
-/

namespace PolicyGradient

open Decimal (Shown shortest)

/-- A schedule of learning rates. -/
inductive Schedule (ρ : Type)
  /-- One rate for all steps. -/
  | constant (lr : ρ)
  /-- From `start` to `stop` in a straight line over `total` steps, then `stop`. -/
  | linearDecay (start stop : ρ) (total : Nat)
  /-- From `start` in a straight line to the first rate of `inner` over `steps` steps, then
  `inner` with its steps counted from there. -/
  | warmup (inner : Schedule ρ) (steps : Nat) (start : ρ)
  /-- `factor · min (1, step / steps) / sqrt (max (step, steps))`. -/
  | multifactor (factor : ρ) (steps : Nat)
  /-- A rate for each step, of the caller's making. -/
  | custom (rate : Nat → ρ)

namespace Schedule

variable {ρ : Type}

/-- Which parameter of a schedule is refused. -/
inductive Refusal (ρ : Type)
  | constantNotFinite (lr : ρ)
  | constantNegative (lr : ρ)
  | decayWithoutSteps (total : Nat)
  | decayStart (lr : ρ)
  | decayStop (lr : ρ)
  | warmupStart (lr : ρ)
  | multifactorFactor (factor : ρ)
  | multifactorWithoutSteps (steps : Nat)
  deriving DecidableEq, Repr

/-- The refusal in words. -/
def Refusal.message [Shown ρ] : Refusal ρ → String
  | constantNotFinite lr => "ConstantLR: lr must be finite, got " ++ shortest lr
  | constantNegative lr => "ConstantLR: lr must be non-negative, got " ++ shortest lr
  | decayWithoutSteps total => s!"LinearDecay: total_steps must be > 0, got {total}"
  | decayStart lr =>
      "LinearDecay: start_lr must be finite and non-negative, got " ++ shortest lr
  | decayStop lr => "LinearDecay: end_lr must be finite and non-negative, got " ++ shortest lr
  | warmupStart lr =>
      "Warmup: warmup_start_lr must be finite and non-negative, got " ++ shortest lr
  | multifactorFactor factor =>
      "MultifactorSchedule: constant must be finite and non-negative, got " ++ shortest factor
  | multifactorWithoutSteps steps =>
      s!"MultifactorSchedule: warmup_steps must be > 0, got {steps}"

/-- A refused schedule ends the computation. -/
def accepted [Shown ρ] : Except (Refusal ρ) (Schedule ρ) → Outcome (Schedule ρ)
  | .ok schedule => .ok schedule
  | .error refusal => faultWith (.schedule refusal.message)

variable [Scalar ρ]

/-- A rate that can be used: finite and not negative. -/
def usable (lr : ρ) : Bool :=
  Scalar.isFinite lr && Scalar.le 0 lr

/-- A constant rate. -/
def constant? (lr : ρ) : Except (Refusal ρ) (Schedule ρ) :=
  if ! Scalar.isFinite lr then .error (.constantNotFinite lr)
  else if ! Scalar.le 0 lr then .error (.constantNegative lr)
  else .ok (.constant lr)

/-- A linear decay. -/
def linearDecay? (start stop : ρ) (total : Nat) : Except (Refusal ρ) (Schedule ρ) :=
  if total = 0 then .error (.decayWithoutSteps total)
  else if ! usable start then .error (.decayStart start)
  else if ! usable stop then .error (.decayStop stop)
  else .ok (.linearDecay start stop total)

/-- A warm-up before another schedule. -/
def warmup? (inner : Schedule ρ) (steps : Nat) (start : ρ) : Except (Refusal ρ) (Schedule ρ) :=
  if ! usable start then .error (.warmupStart start)
  else .ok (.warmup inner steps start)

/-- A linear warm-up times an inverse square root. -/
def multifactor? (factor : ρ) (steps : Nat) : Except (Refusal ρ) (Schedule ρ) :=
  if ! usable factor then .error (.multifactorFactor factor)
  else if steps = 0 then .error (.multifactorWithoutSteps steps)
  else .ok (.multifactor factor steps)

/-- `x` if it is finite, else `fallback`. -/
def finiteOr (fallback x : ρ) : ρ :=
  if Scalar.isFinite x then x else fallback

/-- The point at `progress` on the way from `start` to `stop`. -/
def between (start stop progress : ρ) : ρ :=
  start + (stop - start) * progress

/-- The rate at a step. -/
def rate : Schedule ρ → Nat → ρ
  | constant lr, _ => lr
  | linearDecay start stop total, step =>
      if total = 0 then start
      else
        finiteOr stop (between start stop (Scalar.lesser ((step : ρ) / (total : ρ)) 1))
  | warmup inner steps start, step =>
      if steps ≤ step then inner.rate (step - steps)
      else finiteOr start (between start (inner.rate 0) ((step : ρ) / (steps : ρ)))
  | multifactor factor steps, step =>
      factor * Scalar.lesser ((step : ρ) / (steps : ρ)) 1
        * (1 / Scalar.sqrt (Scalar.greater (step : ρ) (steps : ρ)))
  | custom f, step => f step

end Schedule

end PolicyGradient
