import PolicyGradient.Proofs.Agents
import PolicyGradient.Proofs.Resume
import PolicyGradient.Proofs.Scoring
import PolicyGradient.Proofs.Shapes

/-!
What an agent keeps from its construction.

Its task, algorithm, settings and requests stay, and the models for training and for evaluation keep
their forms (`Agent.Asked.sameSetup`, `Agent.Asked.value`).  `Agent.Asked` are the states in which a
policy batch may be asked for: those between calls and those between the steps of an epoch's policy
training.
-/

namespace PolicyGradient

open Outcome
open Decimal (Shown)

variable {α ρ β σ τ : Type}

/-- However the feed is used, it leaves a property of its state true. -/
structure Feed.Preserves (feed : Feed σ β) (P : σ → Prop) : Prop where
  start : ∀ epoch s, P s → P (feed.start epoch s)
  next : ∀ s, P s → P (feed.next s).2

namespace Training

variable {feed : Feed σ β} {P : σ → Prop}

theorem preserves_source_nextBatch (h : feed.Preserves P) :
    Action.Preserves (fun t : Training α ρ β σ => P t.source) (nextBatch feed) := by
  intro t ht
  have hstart : P (t.start feed).source := by
    by_cases hstarted : t.learner.started
    · rwa [start, if_pos hstarted]
    · rw [start, if_neg hstarted]
      exact h.start _ _ ht
  simp only [nextBatch, Action.run_of]
  split
  · exact h.next _ hstart
  · exact h.next _ hstart

variable [Scalar α] [Scalar ρ] [Shown α] [Shown ρ] [Narrows ρ α]

theorem preserves_source_trainStep (h : feed.Preserves P) :
    Action.Preserves (fun t : Training α ρ β σ => P t.source) (trainStep feed) := by
  intro t ht
  have hdrawn := preserves_source_nextBatch h t ht
  rcases trainStep_cases feed t with hlast | ⟨_, _, _, _, hlast⟩
  · rw [hlast]
    exact hdrawn
  · rw [hlast]
    exact hdrawn

theorem preserves_source_trainEpoch (h : feed.Preserves P) (n k : Nat) :
    Action.Preserves (fun t : Training α ρ β σ => P t.source) (trainEpoch feed n k) :=
  preserves_epochs (preserves_source_trainStep h) (fun _ _ ht => ht) (fun _ _ ht => ht) n k

end Training

namespace Agent

/-- The agents have the same task, algorithm and settings, make the same requests, and evaluate
with models of the same form. -/
structure SameSetup (agent other : Agent α ρ τ) : Prop where
  task : agent.task = other.task
  algorithm : agent.algorithm = other.algorithm
  config : agent.config = other.config
  valueRequest : agent.valueRequest = other.valueRequest
  policyRequest : agent.policyRequest = other.policyRequest
  evaluation : agent.evaluation.SameForm other.evaluation

theorem SameSetup.refl (agent : Agent α ρ τ) : agent.SameSetup agent :=
  ⟨rfl, rfl, rfl, rfl, rfl, rfl, rfl⟩

/-- What changes in an agent at work is not part of its setup. -/
theorem SameSetup.aside {agent other : Agent α ρ τ} (h : agent.SameSetup other) (taskState : τ)
    (value : Learner α ρ (ValueBatch α)) (policy : Learner α ρ (PolicyBatch α))
    {evaluation : Model α} (hform : evaluation.SameForm other.evaluation) (epoch : Nat)
    (journal : Journal α ρ) : SameSetup { agent with
      taskState := taskState, value := value, policy := policy, evaluation := evaluation,
      epoch := epoch, journal := journal } other :=
  ⟨h.task, h.algorithm, h.config, h.valueRequest, h.policyRequest, hform⟩

/-- Policy batches leave the form of the evaluation copy alone. -/
theorem policyFeed_preserves (agent : Agent α ρ τ) (model : Model α) :
    agent.policyFeed.Preserves fun s => s.evaluation.SameForm model where
  start _ _ h := h
  next s h := Source.preserves_sameForm model s h

variable [Scalar α] [Scalar ρ] [Shown α] [Shown ρ] [Narrows ρ α]

/-- The first `n` policy steps of an epoch. -/
def policySteps (n : Nat) : Action (Agent α ρ τ) (List (StepRecord α ρ)) := do
  let agent ← get
  onPolicy (Action.replicate n (Training.trainStep agent.policyFeed))

/-- The states in which an agent may be asked for a policy batch: between calls, and within an
epoch after each policy step. -/
inductive Asked (first : Agent α ρ τ) : Agent α ρ τ → Prop
  | between {agent : Agent α ρ τ} (h : first.Reached agent) : Asked first agent
  | within {agent trained shared : Agent α ρ τ} {losses : EpochSummary α ρ}
      (h : first.Reached agent) (hvalue : trainValue.run agent = (.ok losses, trained))
      (hshare : shareToPolicy.run trained = (.ok (), shared)) (n : Nat) :
      Asked first ((policySteps n).run shared).2

theorem Asked.of_kept {I : Agent α ρ τ → Prop} {first agent : Agent α ρ τ} (hI : Kept I)
    (hsteps : ∀ n, Action.Preserves I (policySteps n)) (h : first.Asked agent) (hfirst : I first) :
    I agent := by
  cases h with
  | between h => exact hI.of_reached h hfirst
  | within h hvalue hshare n =>
      have htrained := hI.trainValue.of_run_eq (hI.of_reached h hfirst) hvalue
      exact hsteps n _ (hI.shareToPolicy.of_run_eq htrained hshare)

section

variable (first : Agent α ρ τ)

/-- The parts of an agent's work leave its setup as it is. -/
theorem kept_sameSetup : Kept fun agent : Agent α ρ τ => agent.SameSetup first where
  drawValue := Action.preserves_get.bind fun _ => Action.preserves_on _ fun _ _ h =>
    h.aside _ _ _ h.evaluation _ _
  drawPolicy := by
    refine Action.preserves_get.bind fun _ =>
      (Source.preserves_sameForm first.evaluation).on (fun _ h => h.evaluation) ?_
    exact fun _ _ h ht => h.aside _ _ _ ht _ _
  trainValue := Action.preserves_get.bind fun _ => Action.preserves_on _ fun _ _ h =>
    h.aside _ _ _ h.evaluation _ _
  shareToPolicy := by
    refine Action.preserves_get.bind fun agent => ?_
    split
    · exact Action.preserves_on _ fun _ _ h => h.aside _ _ _ h.evaluation _ _
    · exact Action.preserves_pure ()
  trainPolicy := by
    refine Action.preserves_get.bind fun agent => (Training.preserves_source_trainEpoch
      (agent.policyFeed_preserves first.evaluation) _ 1).on (fun _ h => h.evaluation) ?_
    exact fun _ _ h ht => h.aside _ _ _ ht _ _
  shareToValue := by
    refine Action.preserves_get.bind fun agent => ?_
    split
    · exact Action.preserves_on _ fun _ _ h => h.aside _ _ _ h.evaluation _ _
    · exact Action.preserves_pure ()
  conclude value policy := by
    intro agent h
    simp only [conclude, Action.run_bind, Action.run_get, Action.run_set, Action.run_lift]
    cases Size.add agent.epoch 1 with
    | error e => exact h.aside _ _ _ h.evaluation _ _
    | ok next => exact h.aside _ _ _ h.evaluation _ _
  endEpoch _ := Action.preserves_get.bind fun _ => Action.preserves_on _ fun _ _ h =>
    h.aside _ _ _ h.evaluation _ _

theorem preserves_policySteps_sameSetup (n : Nat) :
    Action.Preserves (fun agent : Agent α ρ τ => agent.SameSetup first) (policySteps n) := by
  refine Action.preserves_get.bind fun agent => ((Training.preserves_source_trainStep
    (agent.policyFeed_preserves first.evaluation)).replicate n).on (fun _ h => h.evaluation) ?_
  exact fun _ _ h ht => h.aside _ _ _ ht _ _

end

theorem preserves_policySteps {config : Config α ρ} {P : Learner α ρ (ValueBatch α) → Prop}
    {Q : Learner α ρ (PolicyBatch α) → Prop} (hQ : Learner.Invariant Q) (n : Nat) :
    Action.Preserves (Keeps (τ := τ) config P Q) (policySteps n) := by
  refine Action.preserves_get.bind fun agent =>
    ((Training.preserves_trainStep hQ agent.policyFeed).replicate n).on ?_ ?_
  · exact fun _ h => h.2.2
  · exact fun _ _ h ht => ⟨h.1, h.2.1, ht⟩

section

variable {first agent : Agent α ρ τ}

theorem Asked.sameSetup (h : first.Asked agent) : agent.SameSetup first :=
  of_kept (I := fun agent => agent.SameSetup first) (kept_sameSetup first)
    (preserves_policySteps_sameSetup first) h (.refl first)

/-- The value model keeps its form if each of its identities stands for one shape. -/
theorem Asked.value (h : first.Asked agent) {shapes : Nat → List Nat}
    (hshaped : first.value.Shaped shapes) : agent.value.model.SameForm first.value.model := by
  have hQ : Learner.Invariant fun _ : Learner α ρ (PolicyBatch α) => True :=
    ⟨fun _ _ _ _ => trivial, fun _ _ => trivial, fun _ _ => trivial, fun _ _ => trivial⟩
  have hP := Learner.invariant_shaped (ρ := ρ) (β := ValueBatch α) shapes first.value.model
  have hkeeps : Keeps first.config _ _ agent :=
    h.of_kept (kept_keeps hP hQ) (preserves_policySteps hQ) ⟨rfl, ⟨hshaped, rfl, rfl⟩, trivial⟩
  exact hkeeps.2.1.2

end

end Agent

end PolicyGradient
