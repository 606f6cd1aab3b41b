import PolicyGradient.Scalar

/-!
What training reports: a record for each step and a summary for each epoch.
-/

namespace PolicyGradient

/-- One optimizer step. -/
structure StepRecord (α ρ : Type) where
  learner : String
  epoch : Nat
  /-- Counted over all epochs. -/
  step : Nat
  /-- The loss before the update. -/
  loss : α
  lr : ρ
  deriving DecidableEq, Repr

/-- The steps of an epoch taken together. -/
structure EpochSummary (α ρ : Type) where
  learner : String
  epoch : Nat
  steps : Nat
  meanLoss : α
  lastLoss : α
  lr : ρ
  deriving DecidableEq, Repr

/-- The summary of the records of an epoch: losses and rate are zero where no step was made. -/
def EpochSummary.ofRecords {α ρ : Type} [Scalar α] [Scalar ρ] (learner : String) (epoch : Nat)
    (records : List (StepRecord α ρ)) : EpochSummary α ρ where
  learner := learner
  epoch := epoch
  steps := records.length
  meanLoss :=
    if records.isEmpty then 0
    else Scalar.sum (records.map StepRecord.loss) / (records.length : α)
  lastLoss := (records.getLast?.map StepRecord.loss).getD 0
  lr := (records.getLast?.map StepRecord.lr).getD 0

end PolicyGradient
