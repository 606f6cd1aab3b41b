import PolicyGradient.Agent.Source
import PolicyGradient.Learner.Copy
import PolicyGradient.Learner.Training

/-!
Actor-critic agents.

An agent has a learner for the value model and one for the policy model, which train in turn on
batches of one task.  An epoch trains the value model, copies the shared layers to the policy
model, trains the policy model and copies the shared layers back.
-/

namespace PolicyGradient

open Decimal (Shown)

/-- An agent with its task, whose states are `τ`, and the journal of its run. -/
structure Agent (α ρ τ : Type) where
  task : Task α τ
  taskState : τ
  algorithm : Algorithm α
  config : Config α ρ
  valueRequest : BatchRequest
  policyRequest : BatchRequest
  value : Learner α ρ (ValueBatch α)
  policy : Learner α ρ (PolicyBatch α)
  /-- The evaluation copy of the value model. -/
  evaluation : Model α
  /-- Completed epochs. -/
  epoch : Nat
  journal : Journal α ρ

/-- The losses of an epoch of an agent. -/
structure AgentEpoch (α ρ : Type) where
  epoch : Nat
  value : EpochSummary α ρ
  policy : EpochSummary α ρ
  deriving DecidableEq, Repr

namespace Agent

variable {α ρ τ : Type}

/-- Draw a value batch. -/
def drawValue : Action (Agent α ρ τ) (ValueBatch α) := do
  let agent ← get
  Action.on Agent.taskState (fun t agent => { agent with taskState := t })
    (Source.valueBatch agent.task agent.valueRequest)

/-- Draw a policy batch, scored with the current value weights. -/
def drawPolicy : Action (Agent α ρ τ) (PolicyBatch α) := do
  let agent ← get
  Action.on (fun agent => (⟨agent.taskState, agent.evaluation⟩ : Source.PolicyState α τ))
    (fun s agent => { agent with taskState := s.task, evaluation := s.evaluation })
    (Source.policyBatch agent.task agent.algorithm agent.policyRequest agent.config.lookAhead
      agent.value.weights)

/-- The first `n` batches of a new stream of value batches. -/
def valueBatches (n : Nat) : Action (Agent α ρ τ) (List (ValueBatch α)) :=
  Action.replicate n drawValue

/-- The first `n` batches of a new stream of policy batches. -/
def policyBatches (n : Nat) : Action (Agent α ρ τ) (List (PolicyBatch α)) :=
  Action.replicate n drawPolicy

/-- Policy inputs of a given trajectory and given value estimates. -/
def policyInputs (agent : Agent α ρ τ) (trajectory : Trajectory α) (values : Tensor α 2) :
    Outcome (PolicyBatch α) :=
  agent.algorithm.policyInputs trajectory values (agent.task.gamma agent.taskState)
    agent.config.lookAhead

/-- The feed of the value learner. -/
def valueFeed (agent : Agent α ρ τ) : Feed τ (ValueBatch α) where
  start _ s := s
  next s :=
    let (outcome, s) := (Source.valueBatch agent.task agent.valueRequest).run s
    (some outcome, s)

/-- The feed of the policy learner.  The value learner rests while it is in use, so its weights
are the current ones at every draw. -/
def policyFeed (agent : Agent α ρ τ) : Feed (Source.PolicyState α τ) (PolicyBatch α) where
  start _ s := s
  next s :=
    let (outcome, s) := (Source.policyBatch agent.task agent.algorithm agent.policyRequest
      agent.config.lookAhead agent.value.weights).run s
    (some outcome, s)

/-- Work with the value learner. -/
def onValue {β : Type} (act : Action (Training α ρ (ValueBatch α) τ) β) :
    Action (Agent α ρ τ) β :=
  Action.on (fun agent => ⟨agent.value, agent.taskState, agent.journal⟩)
    (fun t agent => { agent with value := t.learner, taskState := t.source, journal := t.journal })
    act

/-- Work with the policy learner. -/
def onPolicy {β : Type}
    (act : Action (Training α ρ (PolicyBatch α) (Source.PolicyState α τ)) β) :
    Action (Agent α ρ τ) β :=
  Action.on (fun agent => ⟨agent.policy, ⟨agent.taskState, agent.evaluation⟩, agent.journal⟩)
    (fun t agent => { agent with
      policy := t.learner
      taskState := t.source.task
      evaluation := t.source.evaluation
      journal := t.journal }) act

variable [Scalar α] [Scalar ρ] [Shown α] [Shown ρ] [Narrows ρ α]

/-- Copy the shared layers to the policy model, with their optimizer slots. -/
def shareToPolicy : Action (Agent α ρ τ) Unit := do
  let agent ← get
  if 0 < agent.config.sharedLayers then
    Action.on (fun agent => (agent.policy, agent.journal))
      (fun s agent => { agent with policy := s.1, journal := s.2 })
      (Copy.layers 0 agent.config.sharedLayers true agent.value)
  else
    return ()

/-- Copy the shared layers back to the value model, with their optimizer slots. -/
def shareToValue : Action (Agent α ρ τ) Unit := do
  let agent ← get
  if 0 < agent.config.sharedLayers then
    Action.on (fun agent => (agent.value, agent.journal))
      (fun s agent => { agent with value := s.1, journal := s.2 })
      (Copy.layers 0 agent.config.sharedLayers true agent.policy)
  else
    return ()

/-- Train the value model for its steps of an epoch. -/
def trainValue : Action (Agent α ρ τ) (EpochSummary α ρ) := do
  let agent ← get
  onValue (Training.trainEpoch agent.valueFeed agent.config.valueSteps 1)

/-- Train the policy model for its steps of an epoch. -/
def trainPolicy : Action (Agent α ρ τ) (EpochSummary α ρ) := do
  let agent ← get
  onPolicy (Training.trainEpoch agent.policyFeed agent.config.policySteps 1)

/-- Log an epoch and count it. -/
def conclude (value policy : EpochSummary α ρ) : Action (Agent α ρ τ) (AgentEpoch α ρ) := do
  let agent ← get
  let line := Line.cycle agent.algorithm.name agent.epoch value.meanLoss policy.meanLoss
  set { agent with journal := agent.journal.log [line] }
  let next ← Action.lift (Size.add agent.epoch 1)
  modify fun agent => { agent with epoch := next }
  return ⟨agent.epoch, value, policy⟩

/-- One epoch of both learners. -/
def trainEpoch : Action (Agent α ρ τ) (AgentEpoch α ρ) := do
  let value ← trainValue
  shareToPolicy
  let policy ← trainPolicy
  shareToValue
  conclude value policy

/-- Tell the task that an epoch has ended. -/
def endEpoch (epoch : Nat) : Action (Agent α ρ τ) Unit := do
  let agent ← get
  Action.on Agent.taskState (fun t agent => { agent with taskState := t })
    (Action.of (agent.task.endEpoch epoch))

/-- One epoch, after which the task is told. -/
def runEpoch : Action (Agent α ρ τ) (AgentEpoch α ρ) := do
  let summary ← trainEpoch
  endEpoch summary.epoch
  return summary

/-- The room that the losses of an epoch take, in bytes. -/
def epochWidth : Nat := 120

/-- `n` epochs, telling the task after each. -/
def run (n : Nat) : Action (Agent α ρ τ) (List (AgentEpoch α ρ)) := do
  Action.lift (Size.allocate n epochWidth)
  Action.replicate n runEpoch

/-- Write out what the learners' loggers hold back: what is left to do when an agent is given
up. -/
def close (agent : Agent α ρ τ) : Files :=
  agent.policy.close (agent.value.close agent.journal.files)

end Agent

end PolicyGradient
