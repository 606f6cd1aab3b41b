import PolicyGradient.Decimal.Text
import PolicyGradient.Metrics.Record

/-!
The log lines of a training run.

A line is kept as the event it tells of; `Line.message` puts it into words.
-/

namespace PolicyGradient

open Decimal (Shown fixed scientific)

/-- How urgent a line is. -/
inductive Level
  | debug
  | info
  | warn
  deriving DecidableEq, Repr

def Level.label : Level → String
  | debug => "DEBUG"
  | info => "INFO"
  | warn => "WARN"

/-- An event worth a log line. -/
inductive Line (α ρ : Type)
  | step (record : StepRecord α ρ)
  | epochDone (summary : EpochSummary α ρ)
  | nonFinite (learner : String) (step : Nat)
  | copied (start stop : Nat) (slots : Bool)
  | ready (algorithm : String) (length lookAhead valueBatch policyBatch shared : Nat)
  | cycle (algorithm : String) (epoch : Nat) (valueLoss policyLoss : α)
  deriving DecidableEq, Repr

namespace Line

variable {α ρ : Type}

def level : Line α ρ → Level
  | step _ | copied .. => .debug
  | epochDone _ | ready .. | cycle .. => .info
  | nonFinite .. => .warn

variable [Shown α] [Shown ρ]

def message : Line α ρ → String
  | step record =>
      s!"[{record.learner}] epoch {record.epoch} step {record.step}: " ++
        s!"loss {fixed 6 record.loss}, lr {scientific 3 record.lr}"
  | epochDone summary =>
      s!"[{summary.learner}] epoch {summary.epoch} done: {summary.steps} steps, " ++
        s!"mean loss {fixed 6 summary.meanLoss}, last loss {fixed 6 summary.lastLoss}"
  | nonFinite learner count => s!"[{learner}] non-finite loss at step {count}"
  | copied start stop slots => s!"copied layers {start}..{stop} (optimizer slots: {slots})"
  | ready algorithm length lookAhead valueBatch policyBatch shared =>
      s!"{algorithm} trainer ready: slices {length}+{lookAhead}, " ++
        s!"batches {valueBatch}/{policyBatch}, {shared} shared layers"
  | cycle algorithm epoch valueLoss policyLoss =>
      s!"{algorithm} epoch {epoch}: value loss {fixed 6 valueLoss}, " ++
        s!"policy loss {fixed 6 policyLoss}"

/-- The line as it is logged. -/
def render (line : Line α ρ) : String :=
  line.level.label ++ " " ++ line.message

end Line

end PolicyGradient
