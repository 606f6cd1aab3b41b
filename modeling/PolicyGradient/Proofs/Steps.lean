import PolicyGradient.Proofs.Setup

/-!
The epochs of an agent, step by step.

The learners of an agent train on feeds that are set up when the training starts.  Each step of
theirs is the same as drawing a batch from the agent as it is at that moment and learning from it
(`Agent.trainValue_eq`, `Agent.trainPolicy_eq`).  So what holds of every draw holds of the draws
within an epoch.
-/

namespace PolicyGradient

open Outcome
open Decimal (Shown)

namespace Action

variable {σ τ β γ : Type}

theorem ext {act act' : Action σ β} (h : ∀ s, act.run s = act'.run s) : act = act' :=
  funext h

/-- Where an action may be exchanged, it may be exchanged each time it is repeated. -/
theorem run_replicate_congr {P : σ → Prop} {act act' : Action σ β} (hact : Preserves P act)
    (h : ∀ s, P s → act.run s = act'.run s) (n : Nat) {s : σ} (hs : P s) :
    (replicate n act).run s = (replicate n act').run s := by
  induction n generalizing s with
  | zero => rfl
  | succ n ih =>
      simp only [replicate, run_bind]
      rw [← h s hs]
      have hlast := hact s hs
      rcases hrun : act.run s with ⟨_ | first, t⟩
      · rfl
      · rw [hrun] at hlast
        simp only [ih hlast]

/-- Reading and writing a part of a state. -/
structure Lens (part : σ → τ) (update : τ → σ → σ) : Prop where
  part_update : ∀ t s, part (update t s) = t
  update_part : ∀ s, update (part s) s = s
  update_update : ∀ t t' s, update t (update t' s) = update t s

namespace Lens

variable {part : σ → τ} {update : τ → σ → σ}

theorem on_pure (h : Lens part update) (b : β) : on part update (pure b) = pure b := by
  refine ext fun s => ?_
  rw [run_on, run_pure, run_pure, h.update_part]

theorem on_lift (h : Lens part update) (x : Outcome β) : on part update (lift x) = lift x := by
  refine ext fun s => ?_
  rw [run_on, run_lift, run_lift, h.update_part]

/-- Work on a part is done in sequence. -/
theorem on_bind (h : Lens part update) (act : Action τ β) (next : β → Action τ γ) :
    on part update (act >>= next) = on part update act >>= fun b => on part update (next b) := by
  refine ext fun s => ?_
  rw [run_on, run_bind, run_bind, run_on]
  rcases act.run (part s) with ⟨_ | b, t⟩
  · rfl
  · simp only [run_on, h.part_update, h.update_update]

theorem on_replicate (h : Lens part update) (n : Nat) (act : Action τ β) :
    on part update (replicate n act) = replicate n (on part update act) := by
  induction n with
  | zero => exact h.on_pure []
  | succ n ih => simp only [replicate, h.on_bind, ih, h.on_pure]

end Lens

end Action

variable {α ρ β σ τ : Type}

namespace Training

/-- Count the learner's feed as started. -/
def markStarted : Action (Training α ρ β σ) Unit :=
  modify fun t => { t with learner := { t.learner with started := true } }

/-- A feed that is not changed when it is started gives out its next item. -/
theorem run_nextBatch_of_start {feed : Feed σ β} (hfeed : ∀ epoch s, feed.start epoch s = s)
    (t : Training α ρ β σ) : (nextBatch feed).run t = (do
      markStarted
      .of fun t =>
        let (item, source) := feed.next t.source
        (item.getD (failWith (.exhausted t.learner.name)), { t with source := source })).run t := by
  have hstart : t.start feed = { t with learner := { t.learner with started := true } } := by
    by_cases hstarted : t.learner.started
    · rw [start, if_pos hstarted, ← hstarted]
    · rw [start, if_neg hstarted, hfeed]
  simp only [nextBatch, markStarted, Action.run_of, Action.run_bind, Action.run_modify, hstart]
  cases (feed.next t.source).1 with
  | none => rfl
  | some item => rfl

variable [Scalar α] [Scalar ρ] [Shown α] [Shown ρ] [Narrows ρ α]

/-- Learn from a batch. -/
def learn (batch : β) : Action (Training α ρ β σ) (StepRecord α ρ) := do
  let (learner, record) ← Action.lift ((← get).learner.update batch)
  modify fun t => { t with learner := learner }
  report record
  return record

theorem preserves_source_learn {P : σ → Prop} (batch : β) :
    Action.Preserves (fun t : Training α ρ β σ => P t.source) (learn batch) :=
  Action.preserves_get.bind fun _ => (Action.preserves_lift _).bind fun _ =>
    Action.Preserves.bind (fun _ h => h) fun _ => Action.Preserves.bind (fun _ h => h) fun _ =>
      Action.preserves_pure _

theorem trainStep_eq (feed : Feed σ β) :
    trainStep (α := α) (ρ := ρ) feed = nextBatch feed >>= learn := rfl

end Training

namespace Agent

/-- The value learner at work. -/
def valuePart (agent : Agent α ρ τ) : Training α ρ (ValueBatch α) τ :=
  ⟨agent.value, agent.taskState, agent.journal⟩

def setValuePart (t : Training α ρ (ValueBatch α) τ) (agent : Agent α ρ τ) : Agent α ρ τ :=
  { agent with value := t.learner, taskState := t.source, journal := t.journal }

/-- The policy learner at work. -/
def policyPart (agent : Agent α ρ τ) : Training α ρ (PolicyBatch α) (Source.PolicyState α τ) :=
  ⟨agent.policy, ⟨agent.taskState, agent.evaluation⟩, agent.journal⟩

def setPolicyPart (t : Training α ρ (PolicyBatch α) (Source.PolicyState α τ))
    (agent : Agent α ρ τ) : Agent α ρ τ :=
  { agent with
    policy := t.learner
    taskState := t.source.task
    evaluation := t.source.evaluation
    journal := t.journal }

theorem lens_value : Action.Lens (valuePart (α := α) (ρ := ρ) (τ := τ)) setValuePart where
  part_update _ _ := rfl
  update_part _ := rfl
  update_update _ _ _ := rfl

theorem onValue_eq (act : Action (Training α ρ (ValueBatch α) τ) σ) :
    onValue act = Action.on valuePart setValuePart act := rfl

theorem onPolicy_eq (act : Action (Training α ρ (PolicyBatch α) (Source.PolicyState α τ)) σ) :
    onPolicy act = Action.on policyPart setPolicyPart act := rfl

theorem lens_policy : Action.Lens (policyPart (α := α) (ρ := ρ) (τ := τ)) setPolicyPart where
  part_update _ _ := rfl
  update_part _ := rfl
  update_update _ _ _ := rfl

variable [Scalar α] [Scalar ρ] [Shown α] [Shown ρ] [Narrows ρ α]

/-- Work with a part of the state for an epoch of `n` steps: the steps, after which the epoch is
counted and summed up. -/
def inSteps (part : σ → Training α ρ β τ) (update : Training α ρ β τ → σ → σ) (n : Nat)
    (step : Action σ (StepRecord α ρ)) : Action σ (EpochSummary α ρ) := do
  Action.lift (do Size.allocate (← Size.mul n 1) Training.recordWidth)
  let records ← Action.replicate n step
  Action.on part update Training.advanceEpoch
  Action.on part update (Training.conclude records)

theorem on_trainEpoch {part : σ → Training α ρ β τ} {update : Training α ρ β τ → σ → σ}
    (h : Action.Lens part update) (feed : Feed τ β) (n : Nat) :
    Action.on part update (Training.trainEpoch feed n 1) =
      inSteps part update n (Action.on part update (Training.trainStep feed)) := by
  simp only [inSteps, Training.trainEpoch, Training.trainGroup, Action.replicate, h.on_bind,
    h.on_lift, h.on_replicate, bind_assoc, pure_bind, List.flatten_cons, List.flatten_nil,
    List.append_nil]

omit [Shown α] [Shown ρ] [Narrows ρ α] in
theorem run_inSteps_congr {part : σ → Training α ρ β τ} {update : Training α ρ β τ → σ → σ}
    {n : Nat} {step step' : Action σ (StepRecord α ρ)} {s : σ}
    (h : (Action.replicate n step).run s = (Action.replicate n step').run s) :
    (inSteps part update n step).run s = (inSteps part update n step').run s := by
  simp only [inSteps, Action.run_lift_bind]
  split
  · rw [Action.run_bind, Action.run_bind, h]
  · rfl

/-- Draw a value batch from the agent as it is, and learn from it. -/
def valueStep : Action (Agent α ρ τ) (StepRecord α ρ) := do
  onValue Training.markStarted
  let batch ← drawValue
  onValue (Training.learn batch)

/-- Draw a policy batch from the agent as it is, and learn from it. -/
def policyStep : Action (Agent α ρ τ) (StepRecord α ρ) := do
  onPolicy Training.markStarted
  let batch ← drawPolicy
  onPolicy (Training.learn batch)

section

variable (agent : Agent α ρ τ)

/-- A step of the value training draws from the agent as it is. -/
theorem run_valueStep :
    (onValue (Training.trainStep agent.valueFeed)).run agent = valueStep.run agent := by
  have hdraw : (onValue (Training.nextBatch agent.valueFeed)).run agent =
      (do onValue Training.markStarted; drawValue : Action (Agent α ρ τ) _).run agent := by
    rw [onValue_eq, Action.run_on, Training.run_nextBatch_of_start fun _ _ => rfl]
    rfl
  rw [Training.trainStep_eq, valueStep, onValue_eq, lens_value.on_bind, ← bind_assoc,
    Action.run_bind, Action.run_bind, ← hdraw]
  rfl

theorem run_policyStep :
    (onPolicy (Training.trainStep agent.policyFeed)).run agent = policyStep.run agent := by
  have hdraw : (onPolicy (Training.nextBatch agent.policyFeed)).run agent =
      (do onPolicy Training.markStarted; drawPolicy : Action (Agent α ρ τ) _).run agent := by
    rw [onPolicy_eq, Action.run_on, Training.run_nextBatch_of_start fun _ _ => rfl]
    rfl
  rw [Training.trainStep_eq, policyStep, onPolicy_eq, lens_policy.on_bind, ← bind_assoc,
    Action.run_bind, Action.run_bind, ← hdraw]
  rfl

/-- The feed that value training has set up stays the one of the agent as it is. -/
theorem run_valueSteps (n : Nat) :
    (Action.replicate n (onValue (Training.trainStep agent.valueFeed))).run agent =
      (Action.replicate n valueStep).run agent := by
  have hfeed : Action.Preserves (fun t : Agent α ρ τ => t.valueFeed = agent.valueFeed)
      (onValue (Training.trainStep agent.valueFeed)) := Action.preserves_on _ fun _ _ h => h
  refine Action.run_replicate_congr hfeed ?_ n rfl
  intro t ht
  rw [← ht, run_valueStep]

/-- The feed that policy training has set up stays the one of the agent as it is, because the value
learner rests. -/
theorem run_policySteps (n : Nat) :
    (Action.replicate n (onPolicy (Training.trainStep agent.policyFeed))).run agent =
      (Action.replicate n policyStep).run agent := by
  have hfeed : Action.Preserves (fun t : Agent α ρ τ => t.policyFeed = agent.policyFeed)
      (onPolicy (Training.trainStep agent.policyFeed)) := Action.preserves_on _ fun _ _ h => h
  refine Action.run_replicate_congr hfeed ?_ n rfl
  intro t ht
  rw [← ht, run_policyStep]

end

/-- The policy steps of an epoch draw from the agent as it is after each of them. -/
theorem policySteps_eq (n : Nat) :
    policySteps (α := α) (ρ := ρ) (τ := τ) n = Action.replicate n policyStep := by
  refine Action.ext fun agent => ?_
  rw [policySteps, Action.run_bind, Action.run_get, ← run_policySteps]
  simp only [onPolicy_eq, lens_policy.on_replicate]

/-- The value training of an epoch is made of steps that draw from the agent as it is. -/
theorem run_trainValue (agent : Agent α ρ τ) : trainValue.run agent =
    (inSteps valuePart setValuePart agent.config.valueSteps valueStep).run agent := by
  rw [trainValue, Action.run_bind, Action.run_get]
  simp only [onValue_eq, on_trainEpoch lens_value]
  exact run_inSteps_congr (run_valueSteps agent _)

/-- The policy training of an epoch is made of steps that draw from the agent as it is. -/
theorem run_trainPolicy (agent : Agent α ρ τ) : trainPolicy.run agent =
    (inSteps policyPart setPolicyPart agent.config.policySteps policyStep).run agent := by
  rw [trainPolicy, Action.run_bind, Action.run_get]
  simp only [onPolicy_eq, on_trainEpoch lens_policy]
  exact run_inSteps_congr (run_policySteps agent _)

section

variable {agent after : Agent α ρ τ} {losses : EpochSummary α ρ}

/-- A value training that succeeds has trained on the feed that it has set up. -/
theorem run_trainValue_eq_ok : trainValue.run agent = (.ok losses, after) ↔
    ∃ t, (Training.trainEpoch agent.valueFeed agent.config.valueSteps 1).run (valuePart agent) =
      (.ok losses, t) ∧ after = setValuePart t agent := by
  rw [trainValue, Action.run_bind, Action.run_get]
  exact Action.run_on_eq_ok

/-- So has a policy training. -/
theorem run_trainPolicy_eq_ok : trainPolicy.run agent = (.ok losses, after) ↔
    ∃ t, (Training.trainEpoch agent.policyFeed agent.config.policySteps 1).run
      (policyPart agent) = (.ok losses, t) ∧ after = setPolicyPart t agent := by
  rw [trainPolicy, Action.run_bind, Action.run_get]
  exact Action.run_on_eq_ok

end

end Agent

end PolicyGradient
