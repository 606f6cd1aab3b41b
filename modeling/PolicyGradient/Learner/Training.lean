import PolicyGradient.Learner.Basic

/-!
Training: a learner, the state of its feed, and the journal of the run, step by step.
-/

namespace PolicyGradient

open Decimal (Shown)

/-- A learner at work. -/
structure Training (α ρ β σ : Type) where
  learner : Learner α ρ β
  source : σ
  journal : Journal α ρ

namespace Training

variable {α ρ β σ : Type}

/-- Start the feed unless it has been started before. -/
def start (feed : Feed σ β) (t : Training α ρ β σ) : Training α ρ β σ :=
  if t.learner.started then t
  else
    { t with
      learner := { t.learner with started := true }
      source := feed.start t.learner.epoch t.source }

/-- Draw the next batch. -/
def nextBatch (feed : Feed σ β) : Action (Training α ρ β σ) β :=
  .of fun t =>
    let t := t.start feed
    let (item, source) := feed.next t.source
    let t := { t with source := source }
    match item with
    | some batch => (batch, t)
    | none => (failWith (.exhausted t.learner.name), t)

variable [Scalar α] [Scalar ρ] [Shown α] [Shown ρ]

/-- Put a step on record. -/
def report (record : StepRecord α ρ) : Action (Training α ρ β σ) Unit :=
  .of fun t =>
    let warning :=
      if Scalar.isFinite record.loss then []
      else [Line.nonFinite record.learner record.step]
    let (outcome, loggers, files, lines) :=
      Loggers.step record t.journal.files t.learner.loggers
    (outcome, { t with
      learner := { t.learner with loggers := loggers }
      journal := { t.journal.log (warning ++ lines) with files := files } })

/-- One optimizer update on the next batch. -/
def trainStep [Narrows ρ α] (feed : Feed σ β) :
    Action (Training α ρ β σ) (StepRecord α ρ) := do
  let batch ← nextBatch feed
  let (learner, record) ← Action.lift ((← get).learner.update batch)
  modify fun t => { t with learner := learner }
  report record
  return record

/-- Count one more epoch. -/
def advanceEpoch : Action (Training α ρ β σ) Unit := do
  let epoch ← Action.lift (Size.add (← get).learner.epoch 1)
  modify fun t => { t with learner := { t.learner with epoch := epoch } }

/-- One epoch of `n` steps. -/
def trainGroup [Narrows ρ α] (feed : Feed σ β) (n : Nat) :
    Action (Training α ρ β σ) (List (StepRecord α ρ)) := do
  let records ← Action.replicate n (trainStep feed)
  advanceEpoch
  return records

/-- Sum up some records, and write out what the loggers hold back. -/
def conclude (records : List (StepRecord α ρ)) :
    Action (Training α ρ β σ) (EpochSummary α ρ) :=
  .of fun t =>
    let summary := EpochSummary.ofRecords t.learner.name t.learner.epoch records
    let journal := t.journal.log (Loggers.epoch summary t.learner.loggers)
    let (loggers, files) := Loggers.flush journal.files t.learner.loggers
    (.ok summary, { t with
      learner := { t.learner with loggers := loggers }
      journal := { journal with files := files } })

/-- The room that the record of a step takes, in bytes. -/
def recordWidth : Nat := 56

/-- `k` epochs of `n` steps each, with one summary for all of them. -/
def trainEpoch [Narrows ρ α] (feed : Feed σ β) (n k : Nat) :
    Action (Training α ρ β σ) (EpochSummary α ρ) := do
  Action.lift (do Size.allocate (← Size.mul n k) recordWidth)
  let groups ← Action.replicate k (trainGroup feed n)
  conclude groups.flatten

end Training

end PolicyGradient
