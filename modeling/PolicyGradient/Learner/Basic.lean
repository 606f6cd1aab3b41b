import PolicyGradient.Action
import PolicyGradient.Adam.State
import PolicyGradient.Learner.Feed
import PolicyGradient.Metrics.Logger
import PolicyGradient.Objective
import PolicyGradient.Schedule.Plan

/-!
A learner trains one model on the batches of a feed.

Each step draws one batch, takes the objective's gradients at the current weights and makes one
Adam update with the rate that the schedule gives for that step.  A step that fails has drawn its
batch and changed nothing else.
-/

namespace PolicyGradient

/-- A training loop with its model and optimizer. -/
structure Learner (α ρ β : Type) where
  name : String
  model : Model α
  objective : Objective α β
  optimizer : Adam α
  schedule : Schedule ρ
  /-- Completed epochs. -/
  epoch : Nat
  /-- Whether the feed has been started. -/
  started : Bool
  outputDir : Option String
  loggers : List Logger

namespace Learner

variable {α ρ β : Type}

/-- A learner with standard settings and no output directory. -/
def ofModel [Scalar α] [Scalar ρ] (name : String) (model : Model α) (objective : Objective α β)
    (schedule : Schedule ρ) : Learner α ρ β where
  name := name
  model := model
  objective := objective
  optimizer := .ofSettings .standard
  schedule := schedule
  epoch := 0
  started := false
  outputDir := none
  loggers := [.standard]

/-- The learner with another optimizer, which starts from zero. -/
def withOptimizer (learner : Learner α ρ β) (settings : Adam.Settings α) : Learner α ρ β :=
  { learner with optimizer := .ofSettings settings }

/-- The name of the metrics file in an output directory. -/
def metricsFile : String := "metrics.csv"

/-- The location of a name in a directory. -/
def inside (dir name : String) : String :=
  if dir = "" ∨ dir.endsWith "/" then dir ++ name else dir ++ "/" ++ name

/-- The learner with its metrics written to a directory, which is created where it is missing. -/
def withOutputDir (learner : Learner α ρ β) (dir : String) : Action Files (Learner α ρ β) := do
  Action.of fun files => files.createDirectories dir
  let (table, files) ← Action.lift (Table.create (← get) (inside dir metricsFile))
  set files
  return { learner with outputDir := some dir, loggers := learner.loggers ++ [.table table] }

/-- Updates made so far. -/
def step (learner : Learner α ρ β) : Nat :=
  learner.optimizer.step

def weights (learner : Learner α ρ β) : ModelWeights α :=
  learner.model.weights

/-- The learner with the weights of its model replaced. -/
def setWeights (learner : Learner α ρ β) (weights : ModelWeights α) :
    Outcome (Learner α ρ β) := do
  return { learner with model := ← learner.model.load weights }

def optimizerState [Zero α] (learner : Learner α ρ β) : OptimizerState α :=
  learner.optimizer.state learner.model

/-- The learner with the state of its optimizer replaced. -/
def setOptimizerState (learner : Learner α ρ β) (state : OptimizerState α) :
    Outcome (Learner α ρ β) := do
  return { learner with optimizer := ← learner.optimizer.setState learner.model state }

/-- The update by one batch, and its record. -/
def update [Scalar α] [Scalar ρ] [Narrows ρ α] (learner : Learner α ρ β) (batch : β) :
    Outcome (Learner α ρ β × StepRecord α ρ) := do
  let loss ← learner.objective.loss learner.model batch
  let gradients ← learner.objective.gradients learner.model batch
  let step ← Size.add learner.step 1
  let lr := learner.schedule.rate step
  let (optimizer, model) ←
    learner.optimizer.update (Narrows.narrow lr) learner.model gradients
  return ({ learner with model := model, optimizer := optimizer },
    ⟨learner.name, learner.epoch, step, loss, lr⟩)

/-- Write out what the loggers hold back: what is left to do when a learner is given up. -/
def close (learner : Learner α ρ β) (files : Files) : Files :=
  (Loggers.flush files learner.loggers).2

end Learner

end PolicyGradient
