import PolicyGradient.Proofs.Events

/-!
Which batches a learner learns from.

A learner draws its batches from the task one by one and learns from each before it draws the next.
So none is skipped, none is used twice, and none is left for later: a training uses the batches
that its events have delivered, in their order, whether it succeeds or ends at one of its steps
(`Agent.follows_trainValue`, `Agent.follows_trainPolicy`).
-/

namespace PolicyGradient

open Outcome
open Decimal (Shown)

variable {α ρ β γ σ τ : Type}

namespace Learner

/-- The learners differ in how far their epochs have come at most, and in their loggers. -/
def Aside (x y : Learner α ρ β) : Prop :=
  y = { x with epoch := y.epoch, started := y.started, loggers := y.loggers }

theorem Aside.refl (x : Learner α ρ β) : x.Aside x := rfl

theorem Aside.trans {x y z : Learner α ρ β} (hxy : x.Aside y) (hyz : y.Aside z) : x.Aside z := by
  unfold Aside at *
  rw [hyz, hxy]

variable [Scalar α] [Scalar ρ] [Narrows ρ α]

/-- Updates by these batches, one after the other, lead from one learner to the other. -/
inductive Trains : Learner α ρ β → List β → Learner α ρ β → Prop
  | nil {x y : Learner α ρ β} (h : x.Aside y) : Trains x [] y
  | cons {x x' y z : Learner α ρ β} {batch : β} {batches : List β} {record : StepRecord α ρ}
      (h : x.Aside x') (hupdate : x'.update batch = .ok (y, record)) (hrest : Trains y batches z) :
      Trains x (batch :: batches) z

theorem Trains.of_aside {x y z : Learner α ρ β} {batches : List β} (h : x.Aside y)
    (htrains : Trains y batches z) : Trains x batches z := by
  cases htrains with
  | nil hyz => exact .nil (h.trans hyz)
  | cons hy hupdate hrest => exact .cons (h.trans hy) hupdate hrest

theorem Trains.append {x y z : Learner α ρ β} {batches batches' : List β}
    (h : Trains x batches y) (h' : Trains y batches' z) : Trains x (batches ++ batches') z := by
  induction h with
  | nil hx => exact h'.of_aside hx
  | cons hx hupdate _ ih => exact .cons hx hupdate (ih h')

/-- The batches have been used: the learner has learned from all of them, or the work is not done
because it cannot learn from the last one. -/
inductive Used (x : Learner α ρ β) : List β → Learner α ρ β → Bool → Prop
  | learned {batches : List β} {y : Learner α ρ β} {done : Bool} (h : Trains x batches y) :
      Used x batches y done
  | refused {batches : List β} {y : Learner α ρ β} {batch : β} {e : Failure}
      (h : Trains x batches y) (hrefused : y.update batch = .error e) :
      Used x (batches ++ [batch]) y false

theorem Used.of_aside {x y z : Learner α ρ β} {batches : List β} {done : Bool} (h : x.Aside y)
    (hused : y.Used batches z done) : x.Used batches z done := by
  cases hused with
  | learned htrains => exact .learned (htrains.of_aside h)
  | refused htrains hrefused => exact .refused (htrains.of_aside h) hrefused

theorem Used.trains {x y : Learner α ρ β} {batches : List β} (h : x.Used batches y true) :
    Trains x batches y := by
  cases h with
  | learned h => exact h

theorem Used.append {x y z : Learner α ρ β} {batches batches' : List β} {done : Bool}
    (h : x.Used batches y true) (h' : y.Used batches' z done) :
    x.Used (batches ++ batches') z done := by
  cases h' with
  | learned htrains => exact .learned (h.trains.append htrains)
  | refused htrains hrefused =>
      rw [← List.append_assoc]
      exact .refused (h.trains.append htrains) hrefused

end Learner

namespace Training

/-- The action has nothing to do with the feed, nor with what the learner has learned. -/
structure Idle (act : Action (Training α ρ β σ) γ) : Prop where
  source : ∀ t : Training α ρ β σ, (act.run t).2.source = t.source
  learner : ∀ t : Training α ρ β σ, t.learner.Aside (act.run t).2.learner

theorem idle_advanceEpoch : Idle (advanceEpoch : Action (Training α ρ β σ) Unit) where
  source t := preserves_count (P := fun u => u.source = t.source) (fun _ _ hu => hu) t rfl
  learner t := by
    simp only [advanceEpoch, Action.run_bind, Action.run_get, Action.run_lift]
    cases Size.add t.learner.epoch 1 with
    | error e => exact .refl _
    | ok epoch => exact rfl

theorem idle_conclude [Scalar α] [Scalar ρ] (records : List (StepRecord α ρ)) :
    Idle (conclude records : Action (Training α ρ β σ) _) :=
  ⟨fun _ => rfl, fun _ => rfl⟩

variable [Scalar α] [Scalar ρ] [Shown α] [Shown ρ] [Narrows ρ α]

/-- What a learner is given to learn from, it uses. -/
theorem used_learn (batch : β) (t : Training α ρ β σ) :
    t.learner.Used [batch] ((learn batch).run t).2.learner ((learn batch).run t).1.isOk := by
  rw [learn, Action.run_bind, Action.run_get]
  dsimp only
  rw [Action.run_lift_bind]
  cases hupdate : t.learner.update batch with
  | error e => exact .refused (.nil (.refl _)) hupdate
  | ok updated =>
      obtain ⟨learner, record⟩ := updated
      refine .learned (.cons (.refl _) hupdate (.nil ?_))
      dsimp only
      rw [Action.run_bind, Action.run_modify]
      dsimp only
      rw [Action.state_bind_pure]
      obtain ⟨loggers, hloggers⟩ := learner_of_report record { t with learner := learner }
      rw [hloggers]
      exact rfl

end Training

namespace Event

/-- The value batch that has been delivered. -/
def valueBatch? : Event α → Option (ValueBatch α)
  | value _ item => item.toOption
  | _ => none

/-- The policy batch that has been delivered. -/
def policyBatch? : Event α → Option (PolicyBatch α)
  | policy _ item => item.toOption
  | _ => none

end Event

namespace Agent

section

variable [Scalar α] [Scalar ρ] [Narrows ρ α]

/-- The learner uses the batches that the events have delivered. -/
def learns (learner : Agent α ρ τ → Learner α ρ β) (batch? : Event α → Option β) : Effect α ρ τ :=
  fun agent events after done =>
    (learner agent).Used (events.filterMap batch?) (learner after) done

theorem additive_learns (learner : Agent α ρ τ → Learner α ρ β) (batch? : Event α → Option β) :
    (learns learner batch?).Additive where
  nil agent _ := .learned (.nil (.refl (learner agent)))
  append h h' := by
    rw [learns, List.filterMap_append]
    exact h.append h'

end

/-- A side of an agent: its learner at work, the draws that it makes its steps with, and the events
that these are. -/
structure Side (first : Agent α ρ τ) (part : Agent α ρ τ → Training α ρ β σ)
    (update : Training α ρ β σ → Agent α ρ τ → Agent α ρ τ) (draw : Action (Agent α ρ τ) β)
    (kind : Kind) (batch? : Event α → Option β) : Prop where
  lens : Action.Lens part update
  kept : ∀ {agent t}, agent.SameSetup first → t.source = (part agent).source →
    (update t agent).SameSetup first
  taskState : ∀ {agent t}, t.source = (part agent).source →
    (update t agent).taskState = agent.taskState
  drawn : ∀ {agent}, agent.SameSetup first → (draw.run agent).2.SameSetup first ∧
    (part (draw.run agent).2).learner = (part agent).learner ∧
    ∃ event, first.Occurs agent.taskState (draw.run agent).2.taskState event ∧
      event.kind = kind ∧ event.ok = (draw.run agent).1.isOk ∧
      batch? event = (draw.run agent).1.toOption

namespace Side

variable {first : Agent α ρ τ} {part : Agent α ρ τ → Training α ρ β σ}
variable {update : Training α ρ β σ → Agent α ρ τ → Agent α ρ τ} {draw : Action (Agent α ρ τ) β}
variable {kind : Kind} {batch? : Event α → Option β}

variable [Scalar α] [Scalar ρ] [Narrows ρ α]

theorem follows_idle (h : first.Side part update draw kind batch?)
    {act : Action (Training α ρ β σ) γ} (hact : Training.Idle act) :
    first.Follows [] (learns (fun agent => (part agent).learner) batch?)
      (Action.on part update act) := by
  refine follows_nil (fun agent hagent => h.kept hagent (hact.source _))
    (fun agent => h.taskState (hact.source _)) fun agent => ?_
  rw [learns, Action.run_on]
  dsimp only
  rw [h.lens.part_update]
  exact .learned (.nil (hact.learner _))

variable [Shown α] [Shown ρ]

/-- A step is one event, and the learner uses the batch that the event has delivered. -/
theorem follows_step (h : first.Side part update draw kind batch?) :
    first.Follows [kind] (learns (fun agent => (part agent).learner) batch?) (do
      Action.on part update Training.markStarted
      let batch ← draw
      Action.on part update (Training.learn batch)) := by
  intro agent hagent
  rw [Action.run_bind, Action.run_on]
  dsimp only [Training.markStarted, Action.run_modify]
  generalize hmarked : update _ agent = marked
  have hsetup : marked.SameSetup first := hmarked ▸ h.kept hagent rfl
  have htask : marked.taskState = agent.taskState := hmarked ▸ h.taskState rfl
  have haside : (part agent).learner.Aside (part marked).learner := by
    rw [← hmarked, h.lens.part_update]
    exact rfl
  obtain ⟨hsetup', hlearner, event, hoccurs, hkind, hok, hbatch⟩ := h.drawn hsetup
  rw [Action.run_bind]
  rcases hdraw : draw.run marked with ⟨e | batch, drawn⟩
  · rw [hdraw] at hsetup' hlearner hoccurs hok hbatch
    refine ⟨hsetup', [event], .cons (htask ▸ hoccurs) (.nil _), ?_, ?_⟩
    · rw [← hkind]
      exact Event.fits_singleton event fun h => nomatch h
    · rw [learns, List.filterMap_cons, hbatch, hlearner]
      exact .learned (.nil haside)
  · rw [hdraw] at hsetup' hlearner hoccurs hok hbatch
    have hsource := Training.preserves_source_learn (P := fun s => s = (part drawn).source) batch
      (part drawn) rfl
    have hused := Training.used_learn batch (part drawn)
    dsimp only [Action.run_on]
    refine ⟨h.kept hsetup' hsource, [event], ?_, ?_, ?_⟩
    · rw [h.taskState hsource]
      exact .cons (htask ▸ hoccurs) (.nil _)
    · rw [← hkind]
      exact Event.fits_singleton event fun _ => hok
    · rw [learns, List.filterMap_cons, hbatch, h.lens.part_update]
      exact (hlearner ▸ hused).of_aside haside

/-- An epoch of one learner. -/
theorem follows_inSteps (h : first.Side part update draw kind batch?) (n : Nat)
    {step : Action (Agent α ρ τ) (StepRecord α ρ)} (hstep : step = do
      Action.on part update Training.markStarted
      let batch ← draw
      Action.on part update (Training.learn batch)) :
    first.Follows (List.replicate n kind) (learns (fun agent => (part agent).learner) batch?)
      (inSteps part update n step) := by
  have hE := additive_learns (fun agent : Agent α ρ τ => (part agent).learner) batch?
  rw [hstep]
  have hsteps := (h.follows_step.replicate hE n).bind hE fun records =>
    (h.follows_idle Training.idle_advanceEpoch).bind hE fun _ =>
      h.follows_idle (Training.idle_conclude records)
  simp only [List.flatten_replicate_singleton, List.append_nil] at hsteps
  exact (follows_lift hE _).bind hE fun _ => hsteps

end Side

/-- The value side, where a draw is one event from whose answer the batch is made. -/
theorem side_value (first : Agent α ρ τ) :
    first.Side valuePart setValuePart drawValue .value Event.valueBatch? where
  lens := lens_value
  kept hagent _ := hagent.aside _ _ _ hagent.evaluation _ _
  taskState h := h
  drawn {agent} hagent := by
    obtain ⟨answer, hoccurs⟩ := occurs_drawValue hagent
    exact ⟨hagent.aside _ _ _ hagent.evaluation _ _, rfl, _, hoccurs, rfl, rfl, rfl⟩

/-- The policy side. -/
theorem side_policy (first : Agent α ρ τ) :
    first.Side policyPart setPolicyPart drawPolicy .policy Event.policyBatch? where
  lens := lens_policy
  kept {agent t} hagent h := by
    refine hagent.aside _ _ _ ?_ _ _
    rw [h]
    exact hagent.evaluation
  taskState h := congrArg Source.PolicyState.task h
  drawn {agent} hagent := by
    obtain ⟨answer, hoccurs⟩ := occurs_drawPolicy hagent
    refine ⟨hagent.aside _ _ _ ?_ _ _, rfl, _, hoccurs, rfl, rfl, rfl⟩
    exact Source.preserves_sameForm first.evaluation _ hagent.evaluation

variable [Scalar α] [Scalar ρ] [Shown α] [Shown ρ] [Narrows ρ α]

section

variable (first : Agent α ρ τ)

/-- The value training of an epoch asks for a value batch at each step and uses it there. -/
theorem follows_trainValue :
    first.Follows (List.replicate first.config.valueSteps .value)
      (learns Agent.value Event.valueBatch?) trainValue := by
  intro agent h
  rw [run_trainValue, h.config]
  exact (side_value first).follows_inSteps first.config.valueSteps rfl agent h

/-- The policy training of an epoch asks for a policy batch at each step and uses it there. -/
theorem follows_trainPolicy :
    first.Follows (List.replicate first.config.policySteps .policy)
      (learns Agent.policy Event.policyBatch?) trainPolicy := by
  intro agent h
  rw [run_trainPolicy, h.config]
  exact (side_policy first).follows_inSteps first.config.policySteps rfl agent h

theorem follows_shareToPolicy : first.Follows [] .any shareToPolicy :=
  follows_nil (kept_sameSetup first).shareToPolicy (fun agent => (taskState_of_share agent).1)
    fun _ => trivial

theorem follows_shareToValue : first.Follows [] .any shareToValue :=
  follows_nil (kept_sameSetup first).shareToValue (fun agent => (taskState_of_share agent).2)
    fun _ => trivial

theorem follows_conclude (value policy : EpochSummary α ρ) :
    first.Follows [] .any (conclude value policy) :=
  follows_nil ((kept_sameSetup first).conclude value policy) (taskState_of_conclude value policy)
    fun _ => trivial

theorem follows_endEpoch (epoch : Nat) : first.Follows [.ended] .any (endEpoch epoch) := by
  intro agent h
  have hoccurs := occurs_endEpoch h epoch
  exact ⟨(kept_sameSetup first).endEpoch epoch agent h, [_], .cons hoccurs (.nil _),
    Event.fits_singleton (.ended epoch _) id, trivial⟩

end

/-- The value training of an epoch and the copy to the policy. -/
def valueHalf : Action (Agent α ρ τ) (EpochSummary α ρ) := do
  let value ← trainValue
  shareToPolicy
  return value

/-- The policy training of an epoch and what is left to do after it. -/
def policyHalf (value : EpochSummary α ρ) : Action (Agent α ρ τ) (AgentEpoch α ρ) := do
  let policy ← trainPolicy
  shareToValue
  conclude value policy

theorem trainEpoch_eq : trainEpoch (α := α) (ρ := ρ) (τ := τ) = valueHalf >>= policyHalf := by
  simp only [trainEpoch, valueHalf, policyHalf, bind_assoc, pure_bind]

/-- What becomes of the batches of an epoch: those of the first events are used in the value
training, and those of the other events in the policy training, if the epoch gets there. -/
structure EpochEvents (agent : Agent α ρ τ) (values policies : List (Event α)) : Prop where
  value_kind : ∀ event ∈ values, event.kind = .value
  value : learns Agent.value Event.valueBatch? agent values (trainValue.run agent).2
    (trainValue.run agent).1.isOk
  policy_kind : ∀ event ∈ policies, event.kind = .policy
  policy : ∀ losses half, valueHalf.run agent = (.ok losses, half) →
    learns Agent.policy Event.policyBatch? half policies (trainPolicy.run half).2
      (trainPolicy.run half).1.isOk
  none : (valueHalf.run agent).1.isOk = false → policies = []

/-- The events of an epoch are those of its two halves. -/
def halves : Effect α ρ τ :=
  fun agent events _ _ =>
    ∃ values policies, events = values ++ policies ∧ EpochEvents agent values policies

section

variable (first : Agent α ρ τ)

/-- What the agent plans to ask of its task in an epoch. -/
def epochPlan : List Kind :=
  List.replicate first.config.valueSteps .value ++ List.replicate first.config.policySteps .policy

/-- In the first half of an epoch the value learner uses the batches. -/
theorem follows_valueHalf : first.Follows (List.replicate first.config.valueSteps .value)
    (fun agent events _ _ => learns Agent.value Event.valueBatch? agent events
      (trainValue.run agent).2 (trainValue.run agent).1.isOk) valueHalf := by
  refine (follows_trainValue first).then fun value => ?_
  exact (follows_shareToPolicy first).bind Effect.additive_any fun _ =>
    follows_pure Effect.additive_any value

/-- In the second half the policy learner uses them. -/
theorem follows_policyHalf (value : EpochSummary α ρ) :
    first.Follows (List.replicate first.config.policySteps .policy)
      (fun half events _ _ => learns Agent.policy Event.policyBatch? half events
        (trainPolicy.run half).2 (trainPolicy.run half).1.isOk) (policyHalf value) := by
  refine (follows_trainPolicy first).then fun policy => ?_
  exact (follows_shareToValue first).bind Effect.additive_any fun _ =>
    follows_conclude first value policy

/-- However an epoch ends, its events fit its plan and its batches are used. -/
theorem follows_trainEpoch : first.Follows first.epochPlan halves trainEpoch := by
  intro agent h
  obtain ⟨hsetup, values, hhistory, hfits, hvalues⟩ := follows_valueHalf first agent h
  rw [trainEpoch_eq, Action.run_bind]
  rcases hhalf : valueHalf.run agent with ⟨e | value, half⟩
  · rw [hhalf] at hsetup hhistory hfits
    have hnone : ∀ event ∈ ([] : List (Event α)), event.kind = .policy := by simp
    refine ⟨hsetup, values, hhistory, hfits.extend, values, [], (List.append_nil _).symm, ?_⟩
    refine ⟨hfits.kind_eq, hvalues, hnone, fun losses other hdone => ?_, fun _ => rfl⟩
    rw [hhalf] at hdone
    cases hdone
  · rw [hhalf] at hsetup hhistory hfits
    obtain ⟨hsetup', policies, hhistory', hfits', hpolicies⟩ :=
      follows_policyHalf first value half hsetup
    refine ⟨hsetup', values ++ policies, hhistory.append hhistory', hfits.append hfits', values,
      policies, rfl, ?_⟩
    refine ⟨hfits.kind_eq, hvalues, hfits'.kind_eq, fun losses other hdone => ?_, fun hfailed => ?_⟩
    · rw [hhalf] at hdone
      cases hdone
      exact hpolicies
    · rw [hhalf] at hfailed
      cases hfailed

/-- In a run the end of each epoch follows upon the epoch. -/
theorem follows_run (n : Nat) :
    first.Follows (List.replicate n (first.epochPlan ++ [.ended])).flatten .any (run n) := by
  have hE : Effect.Additive (α := α) (ρ := ρ) (τ := τ) .any := Effect.additive_any
  have hepoch : first.Follows (first.epochPlan ++ [.ended]) .any runEpoch := by
    have hrest := (follows_trainEpoch first).any.bind hE fun summary =>
      (follows_endEpoch first summary.epoch).bind hE fun _ => follows_pure hE summary
    exact hrest
  exact (follows_lift hE _).bind hE fun _ => hepoch.replicate hE n

end

end Agent

end PolicyGradient
