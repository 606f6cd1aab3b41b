import PolicyGradient.Proofs.Agents
import PolicyGradient.Task.Synthetic

/-!
Shared layers.

The copies of an epoch take the shared layers over with their slots and leave all other layers as
training has left them.  So the learners agree in the shared layers after every epoch that succeeds,
whatever calls have come before it and however those have ended.
-/

namespace PolicyGradient

open Outcome
open Decimal (Shown)

variable {α ρ τ : Type}

namespace Learner

variable {β β' ρ' : Type} [Zero α]

/-- Both learners have the first `n` layers, with the same weights and the same slots. -/
def Tied (n : Nat) (x : Learner α ρ β) (y : Learner α ρ' β') : Prop :=
  ∀ i < n,
    (∃ layer, x.weights.layer? i = some layer ∧ y.weights.layer? i = some layer) ∧
    ∃ slots, x.optimizerState.modelSlots[i]? = some slots ∧
      y.optimizerState.modelSlots[i]? = some slots

/-- From layer `n` on the learners have the same weights and the same slots. -/
def SameFrom (n : Nat) (x y : Learner α ρ β) : Prop :=
  ∀ i, n ≤ i → x.weights.layer? i = y.weights.layer? i ∧
    x.optimizerState.modelSlots[i]? = y.optimizerState.modelSlots[i]?

theorem Tied.symm {n : Nat} {x : Learner α ρ β} {y : Learner α ρ' β'} (h : Tied n x y) :
    Tied n y x := by
  intro i hi
  obtain ⟨⟨layer, hx, hy⟩, slots, hslots, hslots'⟩ := h i hi
  exact ⟨⟨layer, hy, hx⟩, slots, hslots', hslots⟩

end Learner

namespace Layers

variable {γ : Type}

/-- An overlay of the first layers has those of `given`. -/
theorem getElem?_overlay_below {n i : Nat} {given own : List γ} (hgiven : n ≤ given.length)
    (hown : n ≤ own.length) (hi : i < n) :
    ∃ layer, given[i]? = some layer ∧ (overlay 0 n given own)[i]? = some layer := by
  have hlayer : given[i]? = some given[i] := List.getElem?_eq_getElem (by omega)
  refine ⟨given[i], hlayer, ?_⟩
  rw [getElem?_overlay (Nat.zero_le n) hgiven hown, if_pos ⟨Nat.zero_le i, hi⟩, hlayer]

theorem getElem?_overlay_above {n i : Nat} {given own : List γ} (hgiven : n ≤ given.length)
    (hown : n ≤ own.length) (hi : n ≤ i) : (overlay 0 n given own)[i]? = own[i]? := by
  rw [getElem?_overlay (Nat.zero_le n) hgiven hown, if_neg]
  omega

end Layers

namespace Copy

variable {β β' ρ' : Type} [Scalar α] {n : Nat}
variable {source : Learner α ρ β} {destination last : Learner α ρ' β'}

/-- A copy of the first layers ties them and leaves the others and the step alone. -/
theorem tied_of_run_layers {journal journal' : Journal α ρ} (hids : destination.model.DistinctIds)
    (h : (layers 0 n true source).run (destination, journal) = (.ok (), (last, journal'))) :
    source.Tied n last ∧ last.SameFrom n destination ∧ last.step = destination.step := by
  obtain ⟨_, _, ⟨hgiven, hown, hweights⟩, ⟨hgiven', hown', hslots⟩, hstep⟩ :=
    of_run_layers hids h
  refine ⟨?_, ?_, hstep⟩
  · intro i hi
    have hlayer := Layers.getElem?_overlay_below hgiven hown hi
    have hslot := Layers.getElem?_overlay_below hgiven' hown' hi
    rw [← hweights] at hlayer
    rw [← hslots] at hslot
    exact ⟨hlayer, hslot⟩
  · intro i hi
    have hlayer := Layers.getElem?_overlay_above hgiven hown hi
    have hslot := Layers.getElem?_overlay_above hgiven' hown' hi
    rw [← hweights] at hlayer
    rw [← hslots] at hslot
    exact ⟨hlayer, hslot⟩

end Copy

namespace Agent

variable {agent after : Agent α ρ τ}

theorem of_conclude {value policy : EpochSummary α ρ} {losses : AgentEpoch α ρ}
    (h : (conclude value policy).run agent = (.ok losses, after)) :
    losses.value = value ∧ losses.policy = policy ∧ after.value = agent.value ∧
      after.policy = agent.policy := by
  simp only [conclude, Action.run_bind, Action.run_get, Action.run_set, Action.run_lift] at h
  cases hnext : Size.add agent.epoch 1 with
  | error e => simp [hnext] at h
  | ok next =>
      rw [hnext] at h
      cases h
      exact ⟨rfl, rfl, rfl, rfl⟩

variable [Scalar α]

theorem of_shareToPolicy (hshared : 0 < agent.config.sharedLayers)
    (hids : agent.policy.model.DistinctIds) (h : shareToPolicy.run agent = (.ok (), after)) :
    after.value = agent.value ∧ agent.value.Tied agent.config.sharedLayers after.policy ∧
      after.policy.SameFrom agent.config.sharedLayers agent.policy ∧
      after.policy.step = agent.policy.step := by
  obtain ⟨_, _, hget, hrun⟩ := Action.run_bind_eq_ok.mp h
  cases hget
  rw [if_pos hshared] at hrun
  obtain ⟨_, hcopy, rfl⟩ := Action.run_on_eq_ok.mp hrun
  exact ⟨rfl, Copy.tied_of_run_layers hids hcopy⟩

theorem of_shareToValue (hshared : 0 < agent.config.sharedLayers)
    (hids : agent.value.model.DistinctIds) (h : shareToValue.run agent = (.ok (), after)) :
    after.policy = agent.policy ∧ agent.policy.Tied agent.config.sharedLayers after.value ∧
      after.value.SameFrom agent.config.sharedLayers agent.value ∧
      after.value.step = agent.value.step := by
  obtain ⟨_, _, hget, hrun⟩ := Action.run_bind_eq_ok.mp h
  cases hget
  rw [if_pos hshared] at hrun
  obtain ⟨_, hcopy, rfl⟩ := Action.run_on_eq_ok.mp hrun
  exact ⟨rfl, Copy.tied_of_run_layers hids hcopy⟩

variable [Scalar ρ] [Shown α] [Shown ρ] [Narrows ρ α]

theorem of_trainValue {losses : EpochSummary α ρ} (h : trainValue.run agent = (.ok losses, after)) :
    after.policy = agent.policy ∧
      after.value.step = agent.value.step + agent.config.valueSteps := by
  obtain ⟨_, _, hget, hrun⟩ := Action.run_bind_eq_ok.mp h
  cases hget
  obtain ⟨_, htrain, rfl⟩ := Action.run_on_eq_ok.mp hrun
  have hstep := Training.step_of_trainEpoch htrain
  rw [Nat.one_mul] at hstep
  exact ⟨rfl, hstep⟩

theorem of_trainPolicy {losses : EpochSummary α ρ}
    (h : trainPolicy.run agent = (.ok losses, after)) :
    after.value = agent.value ∧
      after.policy.step = agent.policy.step + agent.config.policySteps := by
  obtain ⟨_, _, hget, hrun⟩ := Action.run_bind_eq_ok.mp h
  cases hget
  obtain ⟨_, htrain, rfl⟩ := Action.run_on_eq_ok.mp hrun
  have hstep := Training.step_of_trainEpoch htrain
  rw [Nat.one_mul] at hstep
  exact ⟨rfl, hstep⟩

/-- The parts of an epoch that succeeds. -/
theorem of_trainEpoch {losses : AgentEpoch α ρ}
    (h : trainEpoch.run agent = (.ok losses, after)) :
    ∃ trained shared finished last,
      trainValue.run agent = (.ok losses.value, trained) ∧
      shareToPolicy.run trained = (.ok (), shared) ∧
      trainPolicy.run shared = (.ok losses.policy, finished) ∧
      shareToValue.run finished = (.ok (), last) ∧
      after.value = last.value ∧ after.policy = last.policy := by
  obtain ⟨value, trained, htrain, hrest⟩ := Action.run_bind_eq_ok.mp h
  obtain ⟨_, shared, hshare, hrest⟩ := Action.run_bind_eq_ok.mp hrest
  obtain ⟨policy, finished, htrain', hrest⟩ := Action.run_bind_eq_ok.mp hrest
  obtain ⟨_, last, hshare', hconclude⟩ := Action.run_bind_eq_ok.mp hrest
  obtain ⟨rfl, rfl, hvalue, hpolicy⟩ := of_conclude hconclude
  exact ⟨trained, shared, finished, last, htrain, hshare, htrain', hshare', hvalue, hpolicy⟩

/-- The agent has these settings, and in neither model two parameters share an identity. -/
def Distinct (config : Config α ρ) (agent : Agent α ρ τ) : Prop :=
  Keeps config (fun learner => learner.model.DistinctIds)
    (fun learner => learner.model.DistinctIds) agent

omit [Shown α] [Narrows ρ α] in
theorem distinct_of_construct {task : Task α τ} {valueModel evaluationModel : Outcome (Model α)}
    {policyModel : Model α} {algorithm : Algorithm α} {config : Config α ρ}
    {site site' : Site α ρ τ}
    (h : (construct task valueModel evaluationModel policyModel algorithm config).run site =
      (.ok agent, site'))
    (hvalue : ∀ model, valueModel = .ok model → model.DistinctIds)
    (hpolicy : policyModel.DistinctIds) : Distinct config agent := by
  have hbuilt := built_of_construct h
  refine ⟨hbuilt.config_eq, hvalue _ hbuilt.value_model, ?_⟩
  simpa only [hbuilt.policy_model] using hpolicy

/-- After an epoch that succeeds the learners of an agent agree in the shared layers, all other
layers are as the training of their own learner has left them, and each learner has made its own
steps. -/
theorem tied_after_epoch {task : Task α τ} {valueModel evaluationModel : Outcome (Model α)}
    {policyModel : Model α} {algorithm : Algorithm α} {config : Config α ρ}
    {site site' : Site α ρ τ} {first agent after : Agent α ρ τ} {losses : AgentEpoch α ρ}
    (hbuilt : (construct task valueModel evaluationModel policyModel algorithm config).run site =
      (.ok first, site'))
    (hvalue : ∀ model, valueModel = .ok model → model.DistinctIds)
    (hpolicy : policyModel.DistinctIds) (hshared : 0 < config.sharedLayers)
    (hreached : first.Reached agent) (hepoch : trainEpoch.run agent = (.ok losses, after)) :
    after.value.Tied config.sharedLayers after.policy ∧
      (∃ trained shared finished, trainValue.run agent = (.ok losses.value, trained) ∧
        shareToPolicy.run trained = (.ok (), shared) ∧
        trainPolicy.run shared = (.ok losses.policy, finished) ∧
        shared.policy.SameFrom config.sharedLayers agent.policy ∧
        after.value.SameFrom config.sharedLayers trained.value ∧
        after.policy = finished.policy) ∧
      after.value.step = agent.value.step + config.valueSteps ∧
      after.policy.step = agent.policy.step + config.policySteps := by
  have hP := Learner.invariant_distinctIds (α := α) (ρ := ρ) (β := ValueBatch α)
  have hQ := Learner.invariant_distinctIds (α := α) (ρ := ρ) (β := PolicyBatch α)
  obtain ⟨trained, shared, finished, last, htrain, hshare, htrain', hshare', hlast, hlast'⟩ :=
    of_trainEpoch hepoch
  -- The settings and the identities that the copies rely on stay through each part of the epoch.
  have hagent : Distinct config agent :=
    hreached.keeps hP hQ (distinct_of_construct hbuilt hvalue hpolicy)
  have htrained : Distinct config trained :=
    (preserves_trainValue hP).of_run_eq hagent htrain
  have hbetween : Distinct config shared :=
    (preserves_shareToPolicy hQ).of_run_eq htrained hshare
  have hfinished : Distinct config finished :=
    (preserves_trainPolicy hQ).of_run_eq hbetween htrain'
  obtain ⟨hpolicyKept, hsteps⟩ := of_trainValue htrain
  obtain ⟨hvalueKept, _, hothers, hsame⟩ :=
    of_shareToPolicy (by rwa [htrained.1]) htrained.2.2 hshare
  obtain ⟨hvalueKept', hsteps'⟩ := of_trainPolicy htrain'
  obtain ⟨hpolicyKept', htied, hothers', hsame'⟩ :=
    of_shareToValue (by rwa [hfinished.1]) hfinished.2.1 hshare'
  rw [htrained.1, hpolicyKept] at hothers
  rw [hfinished.1] at htied hothers'
  rw [hvalueKept', hvalueKept] at hothers' hsame'
  refine ⟨?_, ⟨trained, shared, finished, htrain, hshare, htrain', hothers, ?_, ?_⟩, ?_, ?_⟩
  · rw [hlast, hlast', hpolicyKept']
    exact htied.symm
  · rw [hlast]
    exact hothers'
  · rw [hlast', hpolicyKept']
  · rw [hlast, hsame', hsteps, hagent.1]
  · rw [hlast', hpolicyKept', hsteps', hsame, hpolicyKept, hbetween.1]

namespace Line

/-- The perceptron `x ↦ tanh (x v) w`. -/
def bent (v w : Float32) : Model Float32 :=
  Perceptron.bent 0 v w

theorem bent_distinctIds (v w : Float32) : (bent v w).DistinctIds :=
  Perceptron.bent_distinctIds 0 v w

/-- A task with one observation and one action, both numbers, that fails at its fourth call. -/
def numbers : Task Float32 Synthetic.State :=
  Synthetic.Settings.task {
    seed := 1
    observationDepth := 1
    gamma := 0.5
    actionCount := none
    actionDepth := 1
    allReal := true
    fixedBatchSize := none
    fixedLength := none
    failCall := some 3
    failEndEpoch := none
    breakCall := none
    breakField := none }

/-- Two value steps and one policy step an epoch, with the first layer shared. -/
def config : Config Float32 Float where
  valueBatchSize := 1
  valueSteps := 2
  policyBatchSize := 1
  policySteps := 1
  sharedLayers := 1
  lookAhead := 0
  sliceLength := some 1
  outputDir := none
  valueOptimizer := .standard
  valueSchedule := .constant 0.5
  policyOptimizer := .standard
  policySchedule := .constant 0.5

/-- Build an agent of two such perceptrons. -/
def build : Action (Site Float32 Float Synthetic.State) (Agent Float32 Float Synthetic.State) :=
  construct numbers (.ok (bent 0.5 1)) (.ok (bent 0.5 1)) (bent 0.25 2) (.a2c (.gaussian 1 0.5))
    config

def site : Site Float32 Float Synthetic.State := ⟨⟨.ofSeed 1, 0, []⟩, .start .empty⟩

/-- Whether a first epoch succeeds, and whether a second one does. -/
def runs : Action (Site Float32 Float Synthetic.State) (Bool × Bool) := do
  let first ← build
  return (((perform .trainEpoch).run first).1.isOk,
    (trainEpoch.run ((perform .trainEpoch).run first).2).1.isOk)

/-- The agent of two perceptrons after an epoch that fails when a policy batch is drawn. -/
theorem tied_after_epoch_bent : ∃ first agent after,
    (build.run site).1 = .ok first ∧ ((perform .trainEpoch).run first).1.isOk = false ∧
      agent = ((perform .trainEpoch).run first).2 ∧ after = (trainEpoch.run agent).2 ∧
      after.value.Tied 1 after.policy ∧ after.value.step = agent.value.step + 2 ∧
      after.policy.step = agent.policy.step + 1 := by
  have hruns : (runs.run site).1 = .ok (false, true) := by decide +kernel
  obtain ⟨first, here, hbuilt, hlast⟩ := Action.run_bind_eq_ok.mp (Prod.ext hruns rfl)
  have hpair := Except.ok.inj (congrArg Prod.fst hlast)
  obtain ⟨hfails, hsucceeds⟩ := Prod.ext_iff.mp hpair
  cases hepoch : (trainEpoch.run ((perform .trainEpoch).run first).2).1 with
  | error e => simp [hepoch, Except.isOk, Except.toBool] at hsucceeds
  | ok losses =>
      obtain ⟨htied, _, hsteps⟩ := tied_after_epoch hbuilt
        (fun _ hmodel => Except.ok.inj hmodel ▸ bent_distinctIds 0.5 1) (bent_distinctIds 0.25 2)
        (by decide) (.call .trainEpoch .refl) (Prod.ext hepoch rfl)
      exact ⟨first, _, _, congrArg Prod.fst hbuilt, hfails, rfl, rfl, htied, hsteps⟩

end Line

end Agent

end PolicyGradient
