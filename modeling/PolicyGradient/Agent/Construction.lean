import PolicyGradient.Agent.Basic

/-!
Construction of agents.

The settings are checked before anything else is done.  One value batch is drawn, to see whether
the value model gives outputs of the right sizes.  A construction that fails leaves behind what it
has written so far.
-/

namespace PolicyGradient

open Decimal (Shown)

/-- What an agent is built on: the state of its task and the journal. -/
structure Site (α ρ τ : Type) where
  taskState : τ
  journal : Journal α ρ

namespace Site

variable {α ρ τ : Type}

/-- Work with the files. -/
def onFiles {β : Type} (act : Action Files β) : Action (Site α ρ τ) β :=
  Action.on (fun site => site.journal.files)
    (fun files site => { site with journal := { site.journal with files := files } }) act

/-- Work with the task. -/
def onTask {β : Type} (act : Action τ β) : Action (Site α ρ τ) β :=
  Action.on Site.taskState (fun t site => { site with taskState := t }) act

/-- Write out what a learner's loggers hold back if the action fails. -/
def closingOnFailure {β γ : Type} (learner : Learner α ρ γ) (act : Action (Site α ρ τ) β) :
    Action (Site α ρ τ) β :=
  .of fun site =>
    match act.run site with
    | (.ok b, site) => (.ok b, site)
    | (.error e, site) =>
        (.error e,
          { site with journal := { site.journal with files := learner.close site.journal.files } })

end Site

namespace Agent

variable {α ρ τ : Type}

/-- Both models have the shared layers. -/
def checkShared (config : Config α ρ) (value policy : Model α) : Outcome Unit :=
  if min value.depth policy.depth < config.sharedLayers then
    failWith (.config (.tooManySharedLayers config.sharedLayers value.depth policy.depth))
  else
    .ok ()

variable [Scalar α] [Scalar ρ] [Shown ρ]

/-- A learner with the settings of one side of the agent. -/
def learner {β : Type} (name : String) (model : Model α) (objective : Objective α β)
    (optimizer : Adam.Settings α) (plan : Schedule.Plan ρ) : Outcome (Learner α ρ β) := do
  let schedule ← Schedule.accepted plan.build
  return (Learner.ofModel name model objective schedule).withOptimizer optimizer

/-- The learner with its metrics in a directory, if there is one. -/
def withMetrics {β : Type} (learner : Learner α ρ β) :
    Option String → Action (Site α ρ τ) (Learner α ρ β)
  | none => pure learner
  | some dir => Site.onFiles (learner.withOutputDir dir)

/-- The value model's outputs have the sizes of the targets. -/
def checkValueOutput (model : Model α) (batch : ValueBatch α) : Outcome Unit := do
  let output ← model.output batch.observations
  ensureShape .valueOutput output.shape batch.targets.shape

/-- What is left to build once there is a value learner. -/
def complete (task : Task α τ) (value : Learner α ρ (ValueBatch α)) (length : Nat)
    (evaluationModel : Outcome (Model α)) (policyModel : Model α) (algorithm : Algorithm α)
    (config : Config α ρ) : Action (Site α ρ τ) (Agent α ρ τ) := do
  let evaluation ← Action.lift evaluationModel
  let valueRequest := Source.valueRequest config length
  let sample ← Site.onTask (Source.valueBatch task valueRequest)
  Action.lift (checkValueOutput evaluation sample)
  let policyRequest ← Action.lift (Source.policyRequest config algorithm.onPolicy)
  let policy ← Action.lift (learner "policy" policyModel (.policy algorithm.loss)
    config.policyOptimizer config.policySchedule)
  let policy ← withMetrics policy config.outputDir
  modify fun site => { site with
    journal := site.journal.log [.ready algorithm.name length config.lookAhead
      config.valueBatchSize config.policyBatchSize config.sharedLayers] }
  let site ← get
  return {
    task := task
    taskState := site.taskState
    algorithm := algorithm
    config := config
    valueRequest := valueRequest
    policyRequest := policyRequest
    value := value
    policy := policy
    evaluation := evaluation
    epoch := 0
    journal := site.journal }

/-- Build an agent.  The value model is made twice, once to be trained and once for evaluation. -/
def construct (task : Task α τ) (valueModel evaluationModel : Outcome (Model α))
    (policyModel : Model α) (algorithm : Algorithm α) (config : Config α ρ) :
    Action (Site α ρ τ) (Agent α ρ τ) := do
  Action.lift config.validate
  let length ← Action.lift config.requireSliceLength
  let trained ← Action.lift valueModel
  Action.lift (checkShared config trained policyModel)
  let valueDir := config.outputDir.map fun dir => Learner.inside dir "value"
  match valueDir with
  | none => pure ()
  | some dir => Site.onFiles (.of fun files => files.createDirectories dir)
  let value ← Action.lift (learner "value" trained .value config.valueOptimizer
    config.valueSchedule)
  let value ← withMetrics value valueDir
  Site.closingOnFailure value
    (complete task value length evaluationModel policyModel algorithm config)

end Agent

end PolicyGradient
