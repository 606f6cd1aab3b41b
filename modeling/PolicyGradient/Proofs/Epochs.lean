import PolicyGradient.Proofs.Counters
import PolicyGradient.Proofs.Deliveries
import PolicyGradient.Proofs.Restorable
import PolicyGradient.Proofs.Sharing

/-!
The counters of an agent.

The steps of both learners count the batches that they have learned from, through all failures and
copies.  The agent's epoch is that of the policy learner, which the value learner may be ahead of
(`Agent.counted_of_learned`).  These two can only stay together because the copy back to the value
model is always possible after the copy to the policy model (`Agent.exists_shareToValue`).
-/

namespace PolicyGradient

open Outcome
open Decimal (Shown)

variable {α ρ β γ τ : Type}

/-- Each identity stands for one shape, and gradients fill their parameters. -/
structure Model.Regular (model : Model α) : Prop where
  shaped : ∃ shapes, model.Shaped shapes
  fits : model.architecture.Fits model.layout

theorem Learner.Fresh.epoch [Scalar α] [Scalar ρ] {learner : Learner α ρ β} (h : learner.Fresh) :
    learner.epoch = 0 := by
  induction h with
  | ofModel => rfl
  | withOptimizer _ _ ih => exact ih
  | withOutputDir _ hrun ih =>
      obtain ⟨_, rfl⟩ := of_withOutputDir hrun
      exact ih

namespace Agent

/-- The counters of an agent and of its learners. -/
structure Counters where
  epoch : Nat
  valueEpoch : Nat
  valueStep : Nat
  policyEpoch : Nat
  policyStep : Nat
  deriving DecidableEq

/-- The policy learner has counted the agent's epochs, and the value learner those and maybe
more. -/
structure Counters.Ordered (counters : Counters) : Prop where
  policy : counters.policyEpoch = counters.epoch
  value : counters.epoch ≤ counters.valueEpoch

/-- Where the counters of an agent stand. -/
def counters (agent : Agent α ρ τ) : Counters :=
  ⟨agent.epoch, agent.value.epoch, agent.value.step, agent.policy.epoch, agent.policy.step⟩

section

variable {agent : Agent α ρ τ}

theorem counters_conclude (value policy : EpochSummary α ρ) (agent : Agent α ρ τ) :
    ((conclude value policy).run agent).2.counters =
      { agent.counters with epoch := ((conclude value policy).run agent).2.epoch } := by
  simp only [conclude, Action.run_bind, Action.run_get, Action.run_set, Action.run_lift]
  cases Size.add agent.epoch 1 with
  | error e => rfl
  | ok next => rfl

theorem epoch_of_conclude (h : agent.epoch + 1 < Size.limit) (value policy : EpochSummary α ρ) :
    ((conclude value policy).run agent).2.epoch = agent.epoch + 1 := by
  have hnext : Size.add agent.epoch 1 = .ok (agent.epoch + 1) := Size.add_eq_ok.mpr ⟨h, rfl⟩
  simp only [conclude, Action.run_bind, Action.run_get, Action.run_set, Action.run_lift, hnext]
  rfl

end

section

variable [Scalar α] (agent : Agent α ρ τ)

theorem counters_shareToPolicy : (shareToPolicy.run agent).2.counters = agent.counters := by
  rw [shareToPolicy, Action.run_bind, Action.run_get]
  dsimp only
  split
  · obtain ⟨hstep, hepoch⟩ := Copy.counters_of_layers 0 agent.config.sharedLayers agent.value
      agent.policy agent.journal
    rw [Action.run_on, counters, hstep, hepoch]
    rfl
  · rfl

theorem counters_shareToValue : (shareToValue.run agent).2.counters = agent.counters := by
  rw [shareToValue, Action.run_bind, Action.run_get]
  dsimp only
  split
  · obtain ⟨hstep, hepoch⟩ := Copy.counters_of_layers 0 agent.config.sharedLayers agent.policy
      agent.value agent.journal
    rw [Action.run_on, counters, hstep, hepoch]
    rfl
  · rfl

end

section

variable [Scalar α] {agent after : Agent α ρ τ}

/-- The copy that is made to the policy model. -/
theorem write_of_shareToPolicy (hshared : 0 < agent.config.sharedLayers)
    (h : shareToPolicy.run agent = (.ok (), after)) :
    after.value = agent.value ∧ (Copy.write 0 agent.config.sharedLayers true agent.value).run
      agent.policy = (.ok (), after.policy) := by
  rw [shareToPolicy, Action.run_bind, Action.run_get] at h
  dsimp only at h
  rw [if_pos hshared] at h
  obtain ⟨copied, hcopy, rfl⟩ := Action.run_on_eq_ok.mp h
  obtain ⟨houtcome, hlast⟩ := Copy.run_layers 0 agent.config.sharedLayers true agent.value
    agent.policy agent.journal
  rw [hcopy] at houtcome hlast
  exact ⟨rfl, Prod.ext houtcome.symm hlast.symm⟩

/-- A copy that can be made to the value model is made. -/
theorem exists_shareToValue_of_write {last : Learner α ρ (ValueBatch α)}
    (h : (Copy.write 0 agent.config.sharedLayers true agent.policy).run agent.value =
      (.ok (), last)) : ∃ after, shareToValue.run agent = (.ok (), after) := by
  obtain ⟨houtcome, _⟩ := Copy.run_layers 0 agent.config.sharedLayers true agent.policy
    agent.value agent.journal
  rw [h] at houtcome
  rw [shareToValue, Action.run_bind, Action.run_get]
  dsimp only
  split
  · exact ⟨_, Prod.ext houtcome rfl⟩
  · exact ⟨agent, rfl⟩

end

variable [Scalar α] [Scalar ρ] [Shown α] [Shown ρ] [Narrows ρ α]

/-- The value batches that a value training learns from. -/
def learnedValues (agent : Agent α ρ τ) : List (ValueBatch α) :=
  Training.learnedInEpochs agent.valueFeed agent.config.valueSteps 1 (valuePart agent)

/-- The policy batches that a policy training learns from. -/
def learnedPolicies (agent : Agent α ρ τ) : List (PolicyBatch α) :=
  Training.learnedInEpochs agent.policyFeed agent.config.policySteps 1 (policyPart agent)

/-- The policy batches that an epoch learns from, if it gets to the policy training. -/
def epochPolicies (agent : Agent α ρ τ) : List (PolicyBatch α) :=
  match valueHalf.run agent with
  | (.ok _, half) => learnedPolicies half
  | (.error _, _) => []

section

variable (agent : Agent α ρ τ)

theorem counters_trainValue : (trainValue.run agent).2.counters = { agent.counters with
    valueEpoch := (trainValue.run agent).2.value.epoch
    valueStep := agent.value.step + (learnedValues agent).length } := by
  have hstep := Training.step_learnedInEpochs agent.valueFeed (valuePart agent)
    agent.config.valueSteps 1
  exact congrArg (fun step => Counters.mk _ _ step _ _) hstep

theorem counters_trainPolicy : (trainPolicy.run agent).2.counters = { agent.counters with
    policyEpoch := (trainPolicy.run agent).2.policy.epoch
    policyStep := agent.policy.step + (learnedPolicies agent).length } := by
  have hstep := Training.step_learnedInEpochs agent.policyFeed (policyPart agent)
    agent.config.policySteps 1
  exact congrArg (fun step => Counters.mk _ _ _ _ step) hstep

/-- A value training counts its epoch if it succeeds. -/
theorem epoch_le_trainValue : agent.value.epoch ≤ (trainValue.run agent).2.value.epoch := by
  show _ ≤ ((Training.trainEpoch agent.valueFeed agent.config.valueSteps 1).run
    (valuePart agent)).2.learner.epoch
  rcases hrun : (Training.trainEpoch agent.valueFeed agent.config.valueSteps 1).run
    (valuePart agent) with ⟨e | summary, t⟩
  · exact Nat.le_of_eq (Training.epoch_of_trainEpoch_error hrun).symm
  · exact (Training.epoch_of_trainEpoch hrun).1 ▸ Nat.le_succ _

variable {agent} {after : Agent α ρ τ} {losses : EpochSummary α ρ}

theorem epoch_of_trainValue (h : trainValue.run agent = (.ok losses, after)) :
    after.value.epoch = agent.value.epoch + 1 := by
  obtain ⟨_, htrain, rfl⟩ := run_trainValue_eq_ok.mp h
  exact (Training.epoch_of_trainEpoch htrain).1

theorem epoch_of_trainPolicy (h : trainPolicy.run agent = (.ok losses, after)) :
    after.policy.epoch = agent.policy.epoch + 1 ∧ agent.policy.epoch + 1 < Size.limit := by
  obtain ⟨_, htrain, rfl⟩ := run_trainPolicy_eq_ok.mp h
  exact Training.epoch_of_trainEpoch htrain

theorem epoch_of_trainPolicy_error {e : Failure} (h : trainPolicy.run agent = (.error e, after)) :
    after.policy.epoch = agent.policy.epoch := by
  obtain ⟨houtcome, rfl⟩ := Prod.ext_iff.mp h
  have hrun : (Training.trainEpoch agent.policyFeed agent.config.policySteps 1).run
      (policyPart agent) = (.error e, _) := Prod.ext houtcome rfl
  exact Training.epoch_of_trainEpoch_error hrun

end

section

variable (agent : Agent α ρ τ)

theorem counters_valueHalf : (valueHalf.run agent).2.counters = { agent.counters with
    valueEpoch := (trainValue.run agent).2.value.epoch
    valueStep := agent.value.step + (learnedValues agent).length } := by
  rw [valueHalf, Action.run_bind, ← counters_trainValue]
  rcases trainValue.run agent with ⟨e | value, trained⟩
  · rfl
  · dsimp only
    rw [Action.state_bind_pure, counters_shareToPolicy]

/-- After the policy training only the agent's epoch is counted. -/
theorem counters_policyHalf (value : EpochSummary α ρ) :
    ((policyHalf value).run agent).2.counters = { (trainPolicy.run agent).2.counters with
      epoch := ((policyHalf value).run agent).2.epoch } := by
  rw [policyHalf, Action.run_bind]
  rcases trainPolicy.run agent with ⟨e | policy, trained⟩
  · rfl
  · have hshared := counters_shareToValue trained
    dsimp only
    rw [Action.run_bind, ← hshared]
    rcases shareToValue.run trained with ⟨e | _, shared⟩
    · rfl
    · exact counters_conclude value policy shared

/-- However an epoch ends, the steps of the learners count the batches that they learn from. -/
theorem steps_trainEpoch :
    (trainEpoch.run agent).2.value.step = agent.value.step + (learnedValues agent).length ∧
      (trainEpoch.run agent).2.policy.step = agent.policy.step + (epochPolicies agent).length := by
  have hfirst := counters_valueHalf agent
  rw [trainEpoch_eq, Action.run_bind, epochPolicies]
  rcases hhalf : valueHalf.run agent with ⟨e | value, half⟩
  · rw [hhalf] at hfirst
    exact ⟨congrArg Counters.valueStep hfirst, congrArg Counters.policyStep hfirst⟩
  · rw [hhalf] at hfirst
    have hvalue : half.value.step = agent.value.step + (learnedValues agent).length :=
      congrArg Counters.valueStep hfirst
    have hpolicy : half.policy.step = agent.policy.step := congrArg Counters.policyStep hfirst
    have hrest := counters_policyHalf half value
    rw [counters_trainPolicy] at hrest
    dsimp only
    rw [← hvalue, ← hpolicy]
    exact ⟨congrArg Counters.valueStep hrest, congrArg Counters.policyStep hrest⟩

theorem counters_runEpoch :
    (runEpoch.run agent).2.counters = (trainEpoch.run agent).2.counters := by
  rw [runEpoch, Action.run_bind]
  rcases trainEpoch.run agent with ⟨e | losses, trained⟩
  · rfl
  · dsimp only
    rw [Action.state_bind_pure]
    rfl

theorem steps_runEpoch :
    (runEpoch.run agent).2.value.step = agent.value.step + (learnedValues agent).length ∧
      (runEpoch.run agent).2.policy.step = agent.policy.step + (epochPolicies agent).length := by
  obtain ⟨hvalue, hpolicy⟩ := steps_trainEpoch agent
  have hrun := counters_runEpoch agent
  exact ⟨(congrArg Counters.valueStep hrun).trans hvalue,
    (congrArg Counters.policyStep hrun).trans hpolicy⟩

end

section

variable {config : Config α ρ} {shapes shapes' : Nat → List Nat} {first first' : Model α}
variable {agent half finished : Agent α ρ τ} {value policy : EpochSummary α ρ}

/-- The agent has these settings, and its learners can be copied to each other wherever their
layouts agree. -/
def Restorable (config : Config α ρ) (shapes shapes' : Nat → List Nat) (first first' : Model α)
    (agent : Agent α ρ τ) : Prop :=
  Keeps config (fun learner => learner.Restorable shapes first)
    (fun learner => learner.Restorable shapes' first') agent

/-- Once the shared layers have been copied to the policy model, they can be copied back after its
training. -/
theorem exists_shareToValue (hfits : first.architecture.Fits first.layout)
    (hfits' : first'.architecture.Fits first'.layout)
    (h : agent.Restorable config shapes shapes' first first')
    (hhalf : valueHalf.run agent = (.ok value, half))
    (hpolicy : trainPolicy.run half = (.ok policy, finished)) :
    ∃ last, shareToValue.run finished = (.ok (), last) := by
  have hP : Learner.Invariant fun learner : Learner α ρ (ValueBatch α) =>
      learner.Restorable shapes first := Learner.invariant_restorable hfits
  have hQ : Learner.Invariant fun learner : Learner α ρ (PolicyBatch α) =>
      learner.Restorable shapes' first' := Learner.invariant_restorable hfits'
  obtain ⟨_, trained, htrain, hrest⟩ := Action.run_bind_eq_ok.mp hhalf
  obtain ⟨_, _, hshare, hlast⟩ := Action.run_bind_eq_ok.mp hrest
  cases hlast
  have htrained : trained.Restorable config shapes shapes' first first' :=
    (preserves_trainValue hP).of_run_eq h htrain
  have hshared : half.Restorable config shapes shapes' first first' :=
    (preserves_shareToPolicy hQ).of_run_eq htrained hshare
  have hfinished : finished.Restorable config shapes shapes' first first' :=
    (preserves_trainPolicy hQ).of_run_eq hshared hpolicy
  obtain ⟨hvalue, _⟩ := of_trainPolicy hpolicy
  by_cases hsome : 0 < config.sharedLayers
  · obtain ⟨hsource, hwrite⟩ := write_of_shareToPolicy (htrained.1 ▸ hsome) hshare
    obtain ⟨_, hback⟩ := Copy.exists_write_back hwrite
      (hfinished.2.2.form.trans htrained.2.2.form.symm) htrained.2.1.fits hfinished.2.2.fits
    rw [← hsource, ← hvalue, htrained.1, ← hfinished.1] at hback
    exact exists_shareToValue_of_write hback
  · refine ⟨finished, ?_⟩
    rw [shareToValue, Action.run_bind, Action.run_get]
    dsimp only
    rw [hfinished.1, if_neg hsome]
    rfl

/-- The policy training and what is left to do after it count an epoch for both the policy learner
and the agent, or for neither of them. -/
theorem ordered_policyHalf (hpolicy : half.policy.epoch = half.epoch)
    (hvalue : half.epoch + 1 ≤ half.value.epoch)
    (hback : ∀ policy finished, trainPolicy.run half = (.ok policy, finished) →
      ∃ last, shareToValue.run finished = (.ok (), last)) :
    ((policyHalf value).run half).2.counters.Ordered := by
  have htrain := counters_trainPolicy half
  rw [policyHalf, Action.run_bind]
  rcases hrun : trainPolicy.run half with ⟨e | policy, finished⟩
  · have hsame := epoch_of_trainPolicy_error hrun
    rw [hrun] at htrain
    dsimp only at htrain ⊢
    rw [htrain, hsame]
    exact ⟨hpolicy, Nat.le_trans (Nat.le_succ _) hvalue⟩
  · obtain ⟨hmore, hlimit⟩ := epoch_of_trainPolicy hrun
    obtain ⟨last, hshare⟩ := hback policy finished hrun
    have hshared := counters_shareToValue finished
    rw [hrun] at htrain
    rw [hshare] at hshared
    have hlast := hshared.trans htrain
    have hepoch : last.epoch = half.epoch := congrArg Counters.epoch hlast
    -- There is room for the agent's epoch because there has been room for the policy learner's.
    have hroom : last.epoch + 1 < Size.limit := by
      rwa [hepoch, ← hpolicy]
    dsimp only
    rw [Action.run_bind, hshare]
    dsimp only
    rw [counters_conclude, epoch_of_conclude hroom, hlast, hepoch]
    exact ⟨hmore.trans (congrArg (· + 1) hpolicy), hvalue⟩

/-- However an epoch ends, the counts of epochs stay in order. -/
theorem ordered_trainEpoch (hfits : first.architecture.Fits first.layout)
    (hfits' : first'.architecture.Fits first'.layout)
    (h : agent.Restorable config shapes shapes' first first') (hordered : agent.counters.Ordered) :
    (trainEpoch.run agent).2.counters.Ordered := by
  have hfirst := counters_valueHalf agent
  rw [trainEpoch_eq, Action.run_bind]
  rcases hhalf : valueHalf.run agent with ⟨e | value, half⟩
  · rw [hhalf] at hfirst
    dsimp only at hfirst ⊢
    rw [hfirst]
    exact ⟨hordered.policy, Nat.le_trans hordered.value (epoch_le_trainValue agent)⟩
  · obtain ⟨_, trained, htrain, _⟩ := Action.run_bind_eq_ok.mp hhalf
    rw [hhalf, htrain, epoch_of_trainValue htrain] at hfirst
    have hepoch : half.epoch = agent.epoch := congrArg Counters.epoch hfirst
    have hpolicy : half.policy.epoch = agent.policy.epoch := congrArg Counters.policyEpoch hfirst
    have hvalue : half.value.epoch = agent.value.epoch + 1 := congrArg Counters.valueEpoch hfirst
    apply ordered_policyHalf
    · rw [hpolicy, hepoch]
      exact hordered.policy
    · rw [hvalue, hepoch]
      exact Nat.succ_le_succ hordered.value
    · exact fun policy finished => exists_shareToValue hfits hfits' h hhalf

/-- The learners of the agent can be copied to each other, and its counts of epochs are in order. -/
def InOrder (config : Config α ρ) (shapes shapes' : Nat → List Nat) (first first' : Model α)
    (agent : Agent α ρ τ) : Prop :=
  agent.Restorable config shapes shapes' first first' ∧ agent.counters.Ordered

/-- Calls leave the counts of epochs in order, however they end. -/
theorem preserves_inOrder (hfits : first.architecture.Fits first.layout)
    (hfits' : first'.architecture.Fits first'.layout) :
    Action.Preserves (InOrder (τ := τ) config shapes shapes' first first') runEpoch ∧
      ∀ call, Action.Preserves (InOrder (τ := τ) config shapes shapes' first first')
        (perform call) := by
  have hkept : Kept (Restorable (τ := τ) config shapes shapes' first first') :=
    kept_keeps (Learner.invariant_restorable hfits) (Learner.invariant_restorable hfits')
  have hepoch : Action.Preserves (InOrder (τ := τ) config shapes shapes' first first')
      runEpoch := by
    intro agent h
    refine ⟨hkept.runEpoch agent h.1, ?_⟩
    rw [counters_runEpoch]
    exact ordered_trainEpoch hfits hfits' h.1 h.2
  refine ⟨hepoch, fun call => ?_⟩
  cases call with
  | trainEpoch =>
      intro agent h
      refine ⟨hkept.perform .trainEpoch agent h.1, ?_⟩
      rw [perform, Action.state_bind_pure]
      exact ordered_trainEpoch hfits hfits' h.1 h.2
  | run n =>
      exact ((Action.preserves_lift _).bind fun _ => hepoch.replicate n).bind fun _ =>
        Action.preserves_pure ()
  | drawValue =>
      intro agent h
      refine ⟨hkept.perform .drawValue agent h.1, ?_⟩
      rw [perform, Action.state_bind_pure]
      exact h.2
  | drawPolicy =>
      intro agent h
      refine ⟨hkept.perform .drawPolicy agent h.1, ?_⟩
      rw [perform, Action.state_bind_pure]
      exact h.2

end

/-- What is noted before each epoch of a call. -/
def notedInCall (note : Agent α ρ τ → List γ) : Call → Agent α ρ τ → List γ
  | .trainEpoch, agent => note agent
  | .run n, agent =>
      match Size.allocate n epochWidth with
      | .ok _ => Action.noted note runEpoch n agent
      | .error _ => []
  | .drawValue, _ => []
  | .drawPolicy, _ => []

/-- The states that an agent gets into (`Reached`), with the value batches and the policy batches
that have been learned from on the way there. -/
inductive Learned (first : Agent α ρ τ) :
    List (ValueBatch α) → List (PolicyBatch α) → Agent α ρ τ → Prop
  | refl : Learned first [] [] first
  | call {values : List (ValueBatch α)} {policies : List (PolicyBatch α)} {agent : Agent α ρ τ}
      (call : Call) (h : Learned first values policies agent) :
      Learned first (values ++ notedInCall learnedValues call agent)
        (policies ++ notedInCall epochPolicies call agent) ((perform call).run agent).2
  | epochs {values : List (ValueBatch α)} {policies : List (PolicyBatch α)} {agent : Agent α ρ τ}
      (n : Nat) (h : Learned first values policies agent) :
      Learned first (values ++ Action.noted learnedValues runEpoch n agent)
        (policies ++ Action.noted epochPolicies runEpoch n agent)
        ((Action.replicate n runEpoch).run agent).2

/-- The counters of an agent whose learners have learned from these batches. -/
structure Counted (values : List (ValueBatch α)) (policies : List (PolicyBatch α))
    (agent : Agent α ρ τ) : Prop where
  policyEpoch : agent.policy.epoch = agent.epoch
  valueEpoch : agent.epoch ≤ agent.value.epoch
  valueStep : agent.value.step = values.length
  policyStep : agent.policy.step = policies.length
  /-- If the shared layers are copied to the policy model, then they are copied back as well. -/
  copiedBack : ∀ value half policy finished, valueHalf.run agent = (.ok value, half) →
    trainPolicy.run half = (.ok policy, finished) →
      ∃ last, shareToValue.run finished = (.ok (), last)

section

variable {first agent : Agent α ρ τ} {values : List (ValueBatch α)}
variable {policies : List (PolicyBatch α)}

/-- What calls leave true, and the epochs of a run, holds in all states. -/
theorem Reached.of_preserves {I : Agent α ρ τ → Prop} (hepoch : Action.Preserves I runEpoch)
    (hcall : ∀ call, Action.Preserves I (perform call)) (h : first.Reached agent)
    (hfirst : I first) : I agent := by
  induction h with
  | refl => exact hfirst
  | call call _ ih => exact hcall call _ ih
  | epochs n _ ih => exact hepoch.replicate n _ ih

theorem Learned.reached (h : first.Learned values policies agent) : first.Reached agent := by
  induction h with
  | refl => exact .refl
  | call call _ ih => exact .call call ih
  | epochs n _ ih => exact .epochs n ih

/-- All states that can be reached are in the ledger. -/
theorem Reached.exists_learned (h : first.Reached agent) :
    ∃ values policies, first.Learned values policies agent := by
  induction h with
  | refl => exact ⟨[], [], .refl⟩
  | call call _ ih =>
      obtain ⟨_, _, hlearned⟩ := ih
      exact ⟨_, _, .call call hlearned⟩
  | epochs n _ ih =>
      obtain ⟨_, _, hlearned⟩ := ih
      exact ⟨_, _, .epochs n hlearned⟩

theorem steps_epochs (n : Nat) (agent : Agent α ρ τ) :
    ((Action.replicate n runEpoch).run agent).2.value.step =
        agent.value.step + (Action.noted learnedValues runEpoch n agent).length ∧
      ((Action.replicate n runEpoch).run agent).2.policy.step =
        agent.policy.step + (Action.noted epochPolicies runEpoch n agent).length :=
  ⟨Action.count_noted (fun agent : Agent α ρ τ => agent.value.step)
      (fun agent => (steps_runEpoch agent).1) n agent,
    Action.count_noted (fun agent : Agent α ρ τ => agent.policy.step)
      (fun agent => (steps_runEpoch agent).2) n agent⟩

/-- However a call ends, the steps count the batches that have been learned from. -/
theorem steps_perform (call : Call) (agent : Agent α ρ τ) :
    ((perform call).run agent).2.value.step =
        agent.value.step + (notedInCall learnedValues call agent).length ∧
      ((perform call).run agent).2.policy.step =
        agent.policy.step + (notedInCall epochPolicies call agent).length := by
  cases call with
  | trainEpoch =>
      rw [perform, Action.state_bind_pure]
      exact steps_trainEpoch agent
  | run n =>
      rw [perform, Action.state_bind_pure, run, Action.run_lift_bind, notedInCall, notedInCall]
      cases Size.allocate n epochWidth with
      | error e => exact ⟨rfl, rfl⟩
      | ok _ => exact steps_epochs n agent
  | drawValue =>
      rw [perform, Action.state_bind_pure]
      exact ⟨rfl, rfl⟩
  | drawPolicy =>
      rw [perform, Action.state_bind_pure]
      exact ⟨rfl, rfl⟩

theorem Learned.steps (h : first.Learned values policies agent) :
    agent.value.step = first.value.step + values.length ∧
      agent.policy.step = first.policy.step + policies.length := by
  induction h with
  | refl => exact ⟨rfl, rfl⟩
  | @call values policies agent call _ ih =>
      obtain ⟨hvalue, hpolicy⟩ := steps_perform call agent
      rw [hvalue, hpolicy, ih.1, ih.2, List.length_append, List.length_append, Nat.add_assoc,
        Nat.add_assoc]
      exact ⟨rfl, rfl⟩
  | @epochs values policies agent n _ ih =>
      obtain ⟨hvalue, hpolicy⟩ := steps_epochs n agent
      rw [hvalue, hpolicy, ih.1, ih.2, List.length_append, List.length_append, Nat.add_assoc,
        Nat.add_assoc]
      exact ⟨rfl, rfl⟩

end

section

variable {task : Task α τ} {valueModel evaluationModel : Outcome (Model α)}
variable {policyModel : Model α} {algorithm : Algorithm α} {config : Config α ρ}
variable {site site' : Site α ρ τ} {first agent : Agent α ρ τ}

omit [Scalar ρ] [Shown α] [Shown ρ] [Narrows ρ α] [Scalar α] in
theorem frame_of_withMetrics {learner learner' : Learner α ρ β} {dir : Option String}
    (h : (withMetrics learner dir).run site = (.ok learner', site')) :
    learner' = { learner with outputDir := learner'.outputDir, loggers := learner'.loggers } := by
  cases dir with
  | none =>
      cases h
      rfl
  | some dir =>
      rw [withMetrics, Site.onFiles] at h
      obtain ⟨_, hfiles, _⟩ := Action.run_on_eq_ok.mp h
      obtain ⟨_, rfl⟩ := Learner.of_withOutputDir hfiles
      rfl

omit [Shown α] [Narrows ρ α] in
theorem of_complete {value : Learner α ρ (ValueBatch α)} {length : Nat}
    (h : (complete task value length evaluationModel policyModel algorithm config).run site =
      (.ok agent, site')) : agent.value = value ∧ agent.epoch = 0 := by
  unfold complete at h
  obtain ⟨_, _, h⟩ := Action.run_lift_bind_eq_ok.mp h
  obtain ⟨_, _, _, h⟩ := Action.run_bind_eq_ok.mp h
  obtain ⟨_, _, h⟩ := Action.run_lift_bind_eq_ok.mp h
  obtain ⟨_, _, h⟩ := Action.run_lift_bind_eq_ok.mp h
  obtain ⟨_, _, h⟩ := Action.run_lift_bind_eq_ok.mp h
  obtain ⟨_, _, _, h⟩ := Action.run_bind_eq_ok.mp h
  cases h
  exact ⟨rfl, rfl⟩

omit [Shown α] [Narrows ρ α] in
/-- The value learner that an agent is built with. -/
theorem of_construct
    (h : (construct task valueModel evaluationModel policyModel algorithm config).run site =
      (.ok first, site')) :
    first.epoch = 0 ∧ ∃ model schedule, valueModel = .ok model ∧
      Schedule.accepted config.valueSchedule.build = .ok schedule ∧
      first.value = { (Learner.ofModel "value" model .value schedule).withOptimizer
          config.valueOptimizer with
        outputDir := first.value.outputDir, loggers := first.value.loggers } := by
  rw [construct_eq] at h
  obtain ⟨_, _, h⟩ := Action.run_lift_bind_eq_ok.mp h
  obtain ⟨_, _, h⟩ := Action.run_lift_bind_eq_ok.mp h
  obtain ⟨model, hmodel, h⟩ := Action.run_lift_bind_eq_ok.mp h
  obtain ⟨_, _, h⟩ := Action.run_lift_bind_eq_ok.mp h
  obtain ⟨_, _, _, h⟩ := Action.run_bind_eq_ok.mp h
  obtain ⟨_, hplain, h⟩ := Action.run_lift_bind_eq_ok.mp h
  obtain ⟨value, _, hmetrics, h⟩ := Action.run_bind_eq_ok.mp h
  obtain ⟨hvalue, hepoch⟩ := of_complete (run_closingOnFailure_eq_ok.mp h)
  obtain ⟨schedule, hschedule, hbuilt⟩ := bind_eq_ok.mp hplain
  cases hbuilt
  refine ⟨hepoch, model, schedule, hmodel, hschedule, ?_⟩
  rw [hvalue]
  exact frame_of_withMetrics hmetrics

/-- Whatever calls an agent has answered, and however they have ended: the epochs of the agent are
those of its policy learner, of which the value learner has no fewer, and the learners' steps count
the batches that they have learned from. -/
theorem counted_of_learned {values : List (ValueBatch α)} {policies : List (PolicyBatch α)}
    (hbuilt : (construct task valueModel evaluationModel policyModel algorithm config).run site =
      (.ok first, site'))
    (hvalue : ∀ model, valueModel = .ok model → model.Regular) (hpolicy : policyModel.Regular)
    (h : first.Learned values policies agent) : agent.Counted values policies := by
  have hfirst := built_of_construct hbuilt
  obtain ⟨⟨shapes, hshaped⟩, hfits⟩ := hvalue _ hfirst.value_model
  obtain ⟨⟨shapes', hshaped'⟩, hfits'⟩ := hfirst.policy_model ▸ hpolicy
  have hstart : first.Restorable config shapes shapes' first.value.model first.policy.model := by
    refine ⟨hfirst.config_eq, hfirst.value.restorable ?_ hshaped,
      hfirst.policy.restorable ?_ hshaped'⟩
    · rw [hfirst.value_objective]
      exact Objective.value_ofModel
    · rw [hfirst.policy_objective]
      exact Objective.policy_ofModel _
  obtain ⟨hzero, _⟩ := of_construct hbuilt
  have hordered : first.counters.Ordered := by
    refine ⟨hfirst.policy.epoch.trans hzero.symm, ?_⟩
    rw [counters, hzero]
    exact Nat.zero_le _
  have hlast : agent.InOrder config shapes shapes' first.value.model first.policy.model :=
    h.reached.of_preserves (preserves_inOrder hfits hfits').1 (preserves_inOrder hfits hfits').2
      ⟨hstart, hordered⟩
  obtain ⟨hsteps, hsteps'⟩ := h.steps
  have hunused : first.value.step = 0 ∧ first.policy.step = 0 :=
    ⟨hfirst.value.unused.2, hfirst.policy.unused.2⟩
  rw [hunused.1, Nat.zero_add] at hsteps
  rw [hunused.2, Nat.zero_add] at hsteps'
  exact {
    policyEpoch := hlast.2.policy
    valueEpoch := hlast.2.value
    valueStep := hsteps
    policyStep := hsteps'
    copiedBack := fun _ _ _ _ hhalf htrain =>
      exists_shareToValue hfits hfits' hlast.1 hhalf htrain }

end

namespace Line

theorem bent_regular (v w : Float32) : (bent v w).Regular where
  shaped := (bent_distinctIds v w).exists_shaped
  fits := Perceptron.bent_fits 0 v w

/-- Whether a first epoch succeeds, and the counters after a second one. -/
def tally : Action (Site Float32 Float Synthetic.State) (Bool × Counters) := do
  let first ← build
  let (outcome, failed) := (perform .trainEpoch).run first
  return (outcome.isOk, ((perform .trainEpoch).run failed).2.counters)

/-- An epoch that fails when its policy batch is drawn counts for the value learner only. -/
theorem counted_bent : ∃ first agent values policies,
    (build.run site).1 = .ok first ∧ ((perform .trainEpoch).run first).1.isOk = false ∧
      agent = ((perform .trainEpoch).run ((perform .trainEpoch).run first).2).2 ∧
      agent.Counted values policies ∧ agent.epoch = 1 ∧ agent.value.epoch = 2 ∧
      values.length = 4 ∧ policies.length = 1 := by
  have htally : (tally.run site).1 = .ok (false, ⟨1, 2, 4, 1, 1⟩) := by decide +kernel
  obtain ⟨first, here, hbuilt, hlast⟩ := Action.run_bind_eq_ok.mp (Prod.ext htally rfl)
  obtain ⟨hfails, hcounters⟩ := Prod.ext_iff.mp (Except.ok.inj (congrArg Prod.fst hlast))
  have hcounted := counted_of_learned hbuilt
    (fun _ hmodel => Except.ok.inj hmodel ▸ bent_regular 0.5 1) (bent_regular 0.25 2)
    (.call .trainEpoch (.call .trainEpoch .refl))
  refine ⟨first, _, _, _, congrArg Prod.fst hbuilt, hfails, rfl, hcounted, ?_, ?_, ?_, ?_⟩
  · exact congrArg Counters.epoch hcounters
  · exact congrArg Counters.valueEpoch hcounters
  · exact hcounted.valueStep.symm.trans (congrArg Counters.valueStep hcounters)
  · exact hcounted.policyStep.symm.trans (congrArg Counters.policyStep hcounters)

end Line

end Agent

end PolicyGradient
