import PolicyGradient.Agent.Construction
import PolicyGradient.Proofs.Copy

/-!
Agents after any sequence of calls.

What the parts of an agent's work leave true stays true through all calls (`Agent.Kept`).  They
change the learners only by training them and by copying layers into them, so it is enough that
those leave it true (`Agent.kept_keeps`).  An agent that has been built has two fresh learners of
the models that it was given, and has drawn one batch (`Agent.built_of_construct`).
-/

namespace PolicyGradient

open Outcome
open Decimal (Shown)

variable {α ρ τ : Type}

namespace Copy

variable {β κ : Type} [Holder κ α] [Scalar α] [Scalar ρ] [Narrows ρ α] {P : Learner α ρ β → Prop}

theorem preserves_write (hP : Learner.Invariant P) (start stop : Nat) (slots : Bool) (source : κ) :
    Action.Preserves P (write start stop slots source) := by
  intro destination hdestination
  cases hprepare : prepare start stop slots source destination with
  | error e =>
      rw [run_write_of_error hprepare]
      exact hdestination
  | ok prepared =>
      obtain ⟨weights, state⟩ := prepared
      rw [run_write hprepare]
      cases hset : Holder.setWeights destination weights with
      | error e => exact hdestination
      | ok loaded =>
          have hloaded : P loaded := hP.setWeights hdestination hset
          cases state with
          | none => exact hloaded
          | some state =>
              cases hstore : Holder.setOptimizerState loaded state with
              | error e => simpa only [hstore] using hloaded
              | ok restored =>
                  simp only [hstore]
                  exact hP.setOptimizerState hloaded hstore

theorem preserves_layers (hP : Learner.Invariant P) (start stop : Nat) (slots : Bool)
    (source : κ) :
    Action.Preserves (fun s : Learner α ρ β × Journal α ρ => P s.1)
      (layers start stop slots source) := by
  rintro ⟨destination, journal⟩ hdestination
  rw [(run_layers start stop slots source destination journal).2]
  exact preserves_write hP start stop slots source destination hdestination

end Copy

theorem Config.sliceLength_of_require {config : Config α ρ} {length : Nat}
    (h : config.requireSliceLength = .ok length) : config.sliceLength = some length := by
  unfold requireSliceLength at h
  split at h
  case h_1 own hown =>
    cases h
    exact hown
  case h_2 => cases h

namespace Agent

/-- What can be asked of an agent. -/
inductive Call
  | trainEpoch
  | run (n : Nat)
  /-- The next batch of a stream of value batches. -/
  | drawValue
  /-- The next batch of a stream of policy batches. -/
  | drawPolicy

/-- The agent has these settings, and its learners these properties. -/
def Keeps (config : Config α ρ) (P : Learner α ρ (ValueBatch α) → Prop)
    (Q : Learner α ρ (PolicyBatch α) → Prop) (agent : Agent α ρ τ) : Prop :=
  agent.config = config ∧ P agent.value ∧ Q agent.policy

variable {config : Config α ρ} {P : Learner α ρ (ValueBatch α) → Prop}
variable {Q : Learner α ρ (PolicyBatch α) → Prop}

/-- Drawing batches leaves the learners alone. -/
theorem preserves_draw :
    Action.Preserves (Keeps (τ := τ) config P Q) drawValue ∧
      Action.Preserves (Keeps (τ := τ) config P Q) drawPolicy := by
  constructor
  · exact Action.preserves_get.bind fun _ => Action.preserves_on _ fun _ _ h => h
  · exact Action.preserves_get.bind fun _ => Action.preserves_on _ fun _ _ h => h

theorem preserves_conclude (value policy : EpochSummary α ρ) :
    Action.Preserves (Keeps (τ := τ) config P Q) (conclude value policy) := by
  intro agent h
  simp only [conclude, Action.run_bind, Action.run_get, Action.run_set, Action.run_lift]
  cases Size.add agent.epoch 1 with
  | error e => exact h
  | ok next => exact h

variable [Scalar α] [Scalar ρ] [Shown α] [Shown ρ] [Narrows ρ α]

/-- Answer a call. -/
def perform : Call → Action (Agent α ρ τ) Unit
  | .trainEpoch => do
      let _ ← trainEpoch
  | .run n => do
      let _ ← run n
  | .drawValue => do
      let _ ← drawValue
  | .drawPolicy => do
      let _ ← drawPolicy

/-- The states that an agent gets into after it has been built, whether its calls succeed or fail:
after each call, and in a run also after each epoch. -/
inductive Reached (first : Agent α ρ τ) : Agent α ρ τ → Prop
  | refl : Reached first first
  | call {agent : Agent α ρ τ} (call : Call) (h : Reached first agent) :
      Reached first ((perform call).run agent).2
  | epochs {agent : Agent α ρ τ} (n : Nat) (h : Reached first agent) :
      Reached first ((Action.replicate n runEpoch).run agent).2

theorem preserves_trainValue (hP : Learner.Invariant P) :
    Action.Preserves (Keeps (τ := τ) config P Q) trainValue := by
  refine Action.preserves_get.bind fun agent =>
    (Training.preserves_trainEpoch hP agent.valueFeed _ 1).on ?_ ?_
  · exact fun _ h => h.2.1
  · exact fun _ _ h ht => ⟨h.1, ht, h.2.2⟩

theorem preserves_trainPolicy (hQ : Learner.Invariant Q) :
    Action.Preserves (Keeps (τ := τ) config P Q) trainPolicy := by
  refine Action.preserves_get.bind fun agent =>
    (Training.preserves_trainEpoch hQ agent.policyFeed _ 1).on ?_ ?_
  · exact fun _ h => h.2.2
  · exact fun _ _ h ht => ⟨h.1, h.2.1, ht⟩

omit [Shown α] [Shown ρ] in
theorem preserves_shareToPolicy (hQ : Learner.Invariant Q) :
    Action.Preserves (Keeps (τ := τ) config P Q) shareToPolicy := by
  refine Action.preserves_get.bind fun agent => ?_
  split
  · refine (Copy.preserves_layers hQ 0 _ true agent.value).on ?_ ?_
    · exact fun _ h => h.2.2
    · exact fun _ _ h ht => ⟨h.1, h.2.1, ht⟩
  · exact Action.preserves_pure ()

omit [Shown α] [Shown ρ] in
theorem preserves_shareToValue (hP : Learner.Invariant P) :
    Action.Preserves (Keeps (τ := τ) config P Q) shareToValue := by
  refine Action.preserves_get.bind fun agent => ?_
  split
  · refine (Copy.preserves_layers hP 0 _ true agent.policy).on ?_ ?_
    · exact fun _ h => h.2.1
    · exact fun _ _ h ht => ⟨h.1, ht, h.2.2⟩
  · exact Action.preserves_pure ()

/-- A property that every part of an agent's work leaves true. -/
structure Kept (I : Agent α ρ τ → Prop) : Prop where
  drawValue : Action.Preserves I drawValue
  drawPolicy : Action.Preserves I drawPolicy
  trainValue : Action.Preserves I trainValue
  shareToPolicy : Action.Preserves I shareToPolicy
  trainPolicy : Action.Preserves I trainPolicy
  shareToValue : Action.Preserves I shareToValue
  conclude : ∀ value policy, Action.Preserves I (conclude value policy)
  endEpoch : ∀ epoch, Action.Preserves I (endEpoch epoch)

section

variable {I : Agent α ρ τ → Prop}

theorem Kept.trainEpoch (h : Kept I) : Action.Preserves I trainEpoch :=
  h.trainValue.bind fun value =>
    h.shareToPolicy.bind fun _ =>
      h.trainPolicy.bind fun policy =>
        h.shareToValue.bind fun _ => h.conclude value policy

theorem Kept.runEpoch (h : Kept I) : Action.Preserves I runEpoch :=
  h.trainEpoch.bind fun summary =>
    (h.endEpoch summary.epoch).bind fun _ => Action.preserves_pure summary

/-- However a call ends, a property that its parts leave true stays true. -/
theorem Kept.perform (h : Kept I) (call : Call) : Action.Preserves I (perform call) := by
  cases call with
  | trainEpoch => exact h.trainEpoch.bind fun _ => Action.preserves_pure ()
  | run n =>
      refine ((Action.preserves_lift _).bind fun _ => ?_).bind fun _ => Action.preserves_pure ()
      exact h.runEpoch.replicate n
  | drawValue => exact h.drawValue.bind fun _ => Action.preserves_pure ()
  | drawPolicy => exact h.drawPolicy.bind fun _ => Action.preserves_pure ()

theorem Kept.of_reached (h : Kept I) {first agent : Agent α ρ τ} (hreached : Reached first agent)
    (hfirst : I first) : I agent := by
  induction hreached with
  | refl => exact hfirst
  | call call _ ih => exact h.perform call _ ih
  | epochs n _ ih => exact h.runEpoch.replicate n _ ih

end

/-- The parts of an agent's work leave the settings and the invariants of the learners. -/
theorem kept_keeps (hP : Learner.Invariant P) (hQ : Learner.Invariant Q) :
    Kept (Keeps (τ := τ) config P Q) where
  drawValue := preserves_draw.1
  drawPolicy := preserves_draw.2
  trainValue := preserves_trainValue hP
  shareToPolicy := preserves_shareToPolicy hQ
  trainPolicy := preserves_trainPolicy hQ
  shareToValue := preserves_shareToValue hP
  conclude := preserves_conclude
  endEpoch _ := Action.preserves_get.bind fun _ => Action.preserves_on _ fun _ _ h => h

/-- An agent keeps what it has been built with. -/
theorem Reached.keeps {first agent : Agent α ρ τ} (h : Reached first agent)
    (hP : Learner.Invariant P) (hQ : Learner.Invariant Q) (hfirst : Keeps config P Q first) :
    Keeps config P Q agent :=
  (kept_keeps hP hQ).of_reached h hfirst

/-- What an agent is like when it has just been built with a task in the state `start`. -/
structure Built (task : Task α τ) (valueModel evaluationModel : Outcome (Model α))
    (policyModel : Model α) (algorithm : Algorithm α) (config : Config α ρ) (start : τ)
    (agent : Agent α ρ τ) : Prop where
  task_eq : agent.task = task
  algorithm_eq : agent.algorithm = algorithm
  config_eq : agent.config = config
  valid : config.validate = .ok ()
  valueRequest : ∃ length, config.sliceLength = some length ∧
    agent.valueRequest = Source.valueRequest config length
  policyRequest : Source.policyRequest config algorithm.onPolicy = .ok agent.policyRequest
  value : agent.value.Fresh
  value_model : valueModel = .ok agent.value.model
  value_objective : agent.value.objective = .value
  policy : agent.policy.Fresh
  policy_model : agent.policy.model = policyModel
  policy_objective : agent.policy.objective = .policy algorithm.loss
  evaluation : evaluationModel = .ok agent.evaluation
  sample : ∃ batch,
    (Source.valueBatch task agent.valueRequest).run start = (.ok batch, agent.taskState)

section

variable {β : Type}

omit [Shown α] [Narrows ρ α] in
theorem of_learner {name : String} {model : Model α} {objective : Objective α β}
    {optimizer : Adam.Settings α} {plan : Schedule.Plan ρ} {built : Learner α ρ β}
    (h : learner name model objective optimizer plan = .ok built) :
    built.Fresh ∧ built.model = model ∧ built.objective = objective := by
  obtain ⟨schedule, _, hbuilt⟩ := bind_eq_ok.mp h
  cases hbuilt
  exact ⟨.withOptimizer (.ofModel name model objective schedule) optimizer, rfl, rfl⟩

omit [Scalar α] [Scalar ρ] [Shown α] [Shown ρ] [Narrows ρ α] in
theorem taskState_of_withMetrics (learner : Learner α ρ β) (dir : Option String)
    (site : Site α ρ τ) : ((withMetrics learner dir).run site).2.taskState = site.taskState := by
  cases dir with
  | none => rfl
  | some dir => rfl

omit [Shown α] [Shown ρ] [Narrows ρ α] in
theorem of_withMetrics {learner learner' : Learner α ρ β} {dir : Option String}
    {site site' : Site α ρ τ} (hfresh : learner.Fresh)
    (h : (withMetrics learner dir).run site = (.ok learner', site')) :
    learner'.Fresh ∧ learner'.model = learner.model ∧ learner'.objective = learner.objective := by
  cases dir with
  | none =>
      cases h
      exact ⟨hfresh, rfl, rfl⟩
  | some dir =>
      rw [withMetrics, Site.onFiles] at h
      obtain ⟨_, hfiles, _⟩ := Action.run_on_eq_ok.mp h
      obtain ⟨_, heq⟩ := Learner.of_withOutputDir hfiles
      refine ⟨.withOutputDir hfresh hfiles, ?_, ?_⟩
      · rw [heq]
      · rw [heq]

end

section

variable {task : Task α τ} {valueModel evaluationModel : Outcome (Model α)}
variable {policyModel : Model α} {algorithm : Algorithm α} {site site' : Site α ρ τ}
variable {agent : Agent α ρ τ}

omit [Shown α] [Narrows ρ α] in
theorem built_of_complete {value : Learner α ρ (ValueBatch α)} {length : Nat}
    (hvalid : config.validate = .ok ()) (hlength : config.sliceLength = some length)
    (hvalue : value.Fresh) (hobjective : value.objective = .value)
    (h : (complete task value length evaluationModel policyModel algorithm config).run site =
      (.ok agent, site')) :
    Built task (.ok value.model) evaluationModel policyModel algorithm config site.taskState
      agent := by
  unfold complete at h
  obtain ⟨evaluation, hevaluation, h⟩ := Action.run_lift_bind_eq_ok.mp h
  obtain ⟨batch, drawn, hsample, h⟩ := Action.run_bind_eq_ok.mp h
  obtain ⟨_, _, h⟩ := Action.run_lift_bind_eq_ok.mp h
  obtain ⟨request, hrequest, h⟩ := Action.run_lift_bind_eq_ok.mp h
  obtain ⟨plain, hplain, h⟩ := Action.run_lift_bind_eq_ok.mp h
  obtain ⟨policy, last, hmetrics, h⟩ := Action.run_bind_eq_ok.mp h
  cases h
  obtain ⟨hfresh, hmodel, hplan⟩ := of_learner hplain
  obtain ⟨hfresh', hmodel', hplan'⟩ := of_withMetrics hfresh hmetrics
  -- Of what is done with the site only the draw concerns the task.
  obtain ⟨t, hdraw, rfl⟩ := Action.run_on_eq_ok.mp hsample
  have hlast : last.taskState = t := by
    have hkept := taskState_of_withMetrics plain config.outputDir { site with taskState := t }
    rwa [hmetrics] at hkept
  exact {
    task_eq := rfl
    algorithm_eq := rfl
    config_eq := rfl
    valid := hvalid
    valueRequest := ⟨length, hlength, rfl⟩
    policyRequest := hrequest
    value := hvalue
    value_model := rfl
    value_objective := hobjective
    policy := hfresh'
    policy_model := hmodel'.trans hmodel
    policy_objective := hplan'.trans hplan
    evaluation := hevaluation
    sample := ⟨batch, hlast ▸ hdraw⟩ }

omit [Scalar α] [Scalar ρ] [Shown α] [Shown ρ] [Narrows ρ α] in
theorem run_closingOnFailure_eq_ok {β γ : Type} {learner : Learner α ρ γ}
    {act : Action (Site α ρ τ) β} {b : β} :
    (Site.closingOnFailure learner act).run site = (.ok b, site') ↔
      act.run site = (.ok b, site') := by
  simp only [Site.closingOnFailure, Action.run_of]
  rcases act.run site with ⟨_ | _, _⟩
  · simp
  · simp

/-- Make a directory, if there is one. -/
def makeDirectory : Option String → Action (Site α ρ τ) Unit
  | none => pure ()
  | some dir => Site.onFiles (.of fun files => files.createDirectories dir)

omit [Scalar α] [Scalar ρ] [Shown α] [Shown ρ] [Narrows ρ α] in
theorem taskState_of_makeDirectory (dir : Option String) (site : Site α ρ τ) :
    ((makeDirectory dir).run site).2.taskState = site.taskState := by
  cases dir with
  | none => rfl
  | some dir => rfl

/-- The location of the value learner's metrics. -/
def valueDir (config : Config α ρ) : Option String :=
  config.outputDir.map fun dir => Learner.inside dir "value"

omit [Shown α] [Narrows ρ α] in
/-- Construction in sequence. -/
theorem construct_eq : construct task valueModel evaluationModel policyModel algorithm config =
    (do
      Action.lift config.validate
      let length ← Action.lift config.requireSliceLength
      let trained ← Action.lift valueModel
      Action.lift (checkShared config trained policyModel)
      makeDirectory (valueDir config)
      let value ← Action.lift (learner "value" trained .value config.valueOptimizer
        config.valueSchedule)
      let value ← withMetrics value (valueDir config)
      Site.closingOnFailure value
        (complete task value length evaluationModel policyModel algorithm config)) := by
  unfold construct valueDir
  refine bind_congr fun _ => bind_congr fun length => bind_congr fun trained =>
    bind_congr fun _ => ?_
  cases config.outputDir with
  | none => rfl
  | some dir => rfl

omit [Shown α] [Narrows ρ α] in
/-- An agent that has been built has the settings and the models that it was given, fresh learners
and one batch drawn. -/
theorem built_of_construct
    (h : (construct task valueModel evaluationModel policyModel algorithm config).run site =
      (.ok agent, site')) :
    Built task valueModel evaluationModel policyModel algorithm config site.taskState agent := by
  rw [construct_eq] at h
  obtain ⟨_, hvalid, h⟩ := Action.run_lift_bind_eq_ok.mp h
  obtain ⟨length, hlength, h⟩ := Action.run_lift_bind_eq_ok.mp h
  obtain ⟨trained, htrained, h⟩ := Action.run_lift_bind_eq_ok.mp h
  obtain ⟨_, _, h⟩ := Action.run_lift_bind_eq_ok.mp h
  obtain ⟨_, here, hdir, h⟩ := Action.run_bind_eq_ok.mp h
  have hhere := taskState_of_makeDirectory (valueDir config) site
  rw [hdir] at hhere
  obtain ⟨plain, hplain, h⟩ := Action.run_lift_bind_eq_ok.mp h
  obtain ⟨value, there, hmetrics, h⟩ := Action.run_bind_eq_ok.mp h
  have hthere := taskState_of_withMetrics plain (valueDir config) here
  rw [hmetrics] at hthere
  obtain ⟨hfresh, hmodel, hobjective⟩ := of_learner hplain
  obtain ⟨hfresh', hmodel', hobjective'⟩ := of_withMetrics hfresh hmetrics
  have hbuilt := built_of_complete hvalid (Config.sliceLength_of_require hlength) hfresh'
    (hobjective'.trans hobjective) (run_closingOnFailure_eq_ok.mp h)
  rwa [hmodel', hmodel, ← htrained, hthere, hhere] at hbuilt

end

end Agent

end PolicyGradient
