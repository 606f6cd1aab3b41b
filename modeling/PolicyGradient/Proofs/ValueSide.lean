import PolicyGradient.Proofs.Epochs
import PolicyGradient.Proofs.Renaming

/-!
The value side of an agent that shares no layers.

What value training does depends on the value learner and on what the task answers to its draws, and
on nothing else.  So two agents with the same value model do the same on the value side, epoch by
epoch, as long as their tasks answer the draws of the value learners alike
(`Agent.valueRun_independent`).  What the tasks answer to the policy learners does not matter, nor
do the policy models, the algorithms and the settings of the policy side.
-/

namespace PolicyGradient

open Outcome
open Decimal (Shown)

variable {α ρ β γ δ σ σ' τ τ' : Type}

namespace Action

theorem noted_of_ok {note : σ → List γ} {act : Action σ β} {s t : σ} {b : β}
    (h : act.run s = (.ok b, t)) (n : Nat) :
    noted note act (n + 1) s = note s ++ noted note act n t := by
  rw [noted, h]

theorem length_noted {note : σ → List γ} {act : Action σ β} (hnote : ∀ s, (note s).length = 1)
    {n : Nat} {s t : σ} {bs : List β} (h : (replicate n act).run s = (.ok bs, t)) :
    (noted note act n s).length = n := by
  induction n generalizing s bs with
  | zero => rfl
  | succ n ih =>
      obtain ⟨_, u, hfirst, hrest⟩ := run_bind_eq_ok.mp h
      obtain ⟨_, _, hothers, hlast⟩ := run_bind_eq_ok.mp hrest
      cases hlast
      rw [noted_of_ok hfirst, List.length_append, hnote, ih hothers, Nat.add_comm]

theorem forall_noted {P : γ → Prop} {note : σ → List γ} (h : ∀ s, ∀ c ∈ note s, P c)
    (act : Action σ β) (n : Nat) (s : σ) : ∀ c ∈ noted note act n s, P c := by
  induction n generalizing s with
  | zero => exact fun c hc => absurd hc List.not_mem_nil
  | succ n ih =>
      rw [noted]
      rcases act.run s with ⟨e | b, t⟩
      · exact h s
      · intro c hc
        rcases List.mem_append.mp hc with hnow | hlater
        · exact h s c hnow
        · exact ih t c hlater

/-- What is made of the notes is made of each of them. -/
theorem map_noted (g : γ → δ) (note : σ → List γ) (act : Action σ β) (n : Nat) (s : σ) :
    (noted note act n s).map g = noted (fun s => (note s).map g) act n s := by
  induction n generalizing s with
  | zero => rfl
  | succ n ih =>
      rw [noted, noted]
      rcases act.run s with ⟨e | b, t⟩
      · rfl
      · dsimp only
        rw [List.map_append, ih]

end Action

namespace Training

variable [Scalar α] [Scalar ρ] [Shown α] [Shown ρ] [Narrows ρ α]

/-- An epoch that succeeds has made its steps, counted itself and summed up the records. -/
theorem of_trainEpoch {feed : Feed σ β} {n : Nat} {t u : Training α ρ β σ}
    {summary : EpochSummary α ρ} (h : (trainEpoch feed n 1).run t = (.ok summary, u)) :
    ∃ records s, (Action.replicate n (trainStep feed)).run t = (.ok records, s) ∧
      summary = .ofRecords s.learner.name (s.learner.epoch + 1) records ∧
      s.learner.Aside u.learner ∧ u.learner.epoch = s.learner.epoch + 1 := by
  obtain ⟨_, _, h⟩ := Action.run_lift_bind_eq_ok.mp h
  obtain ⟨_, _, hgroups, hlast⟩ := Action.run_bind_eq_ok.mp h
  obtain ⟨_, _, hgroup, hrest⟩ := Action.run_bind_eq_ok.mp hgroups
  cases hrest
  obtain ⟨records, s, hsteps, hrest⟩ := Action.run_bind_eq_ok.mp hgroup
  obtain ⟨_, _, hadvance, hend⟩ := Action.run_bind_eq_ok.mp hrest
  cases hend
  obtain ⟨_, rfl⟩ := advanceEpoch_eq_ok.mp hadvance
  cases hlast
  refine ⟨_, s, hsteps, ?_, rfl, rfl⟩
  simp only [List.flatten_cons, List.flatten_nil, List.append_nil]

/-- What the feed gives out for a step. -/
def offered (feed : Feed σ β) (t : Training α ρ β σ) : List (Option (Outcome β)) :=
  [(feed.next (t.start feed).source).1]

section

variable {f : Nat → Nat} {feed : Feed σ β} {feed' : Feed σ' β} {n : Nat}
variable {t t' : Training α ρ β σ} {u u' : Training α ρ β σ'}

/-- Given the same item, learners that differ in identities make the same step of it. -/
theorem trainStep_renamed (hf : f.Injective) (h : t.learner.Renamed f u.learner)
    (hoffered : offered feed t = offered feed' u) {record record' : StepRecord α ρ}
    (hrun : (trainStep feed).run t = (.ok record, t'))
    (hrun' : (trainStep feed').run u = (.ok record', u')) :
    record = record' ∧ t'.learner.Renamed f u'.learner := by
  obtain ⟨batch, learner, _, hitem, hupdate, hlast, _⟩ := of_trainStep hrun
  obtain ⟨batch', learner', _, hitem', hupdate', hlast', _⟩ := of_trainStep hrun'
  have hsame : batch = batch' := by
    rw [offered, offered, hitem, hitem'] at hoffered
    injection hoffered with hhead
    injection hhead with hbatch
    injection hbatch
  subst hsame
  have hstarted : Learner.Renamed f { t.learner with started := true }
      { u.learner with started := true } := h.aside rfl rfl h.epoch
  have hagree := hstarted.update hf batch
  rw [hupdate, hupdate'] at hagree
  cases hagree with
  | ok hlearners =>
      refine ⟨hlearners.2, ?_⟩
      rw [hlast, hlast']
      exact hlearners.1.aside rfl rfl hlearners.1.epoch

/-- Given the same items, they make the same steps. -/
theorem steps_renamed (hf : f.Injective) (h : t.learner.Renamed f u.learner)
    (hoffered : Action.noted (offered feed) (trainStep feed) n t =
      Action.noted (offered feed') (trainStep feed') n u)
    {records records' : List (StepRecord α ρ)}
    (hrun : (Action.replicate n (trainStep feed)).run t = (.ok records, t'))
    (hrun' : (Action.replicate n (trainStep feed')).run u = (.ok records', u')) :
    records = records' ∧ t'.learner.Renamed f u'.learner := by
  induction n generalizing t u records records' with
  | zero =>
      cases hrun
      cases hrun'
      exact ⟨rfl, h⟩
  | succ n ih =>
      obtain ⟨first, s, hfirst, hrest⟩ := Action.run_bind_eq_ok.mp hrun
      obtain ⟨others, _, hothers, hlast⟩ := Action.run_bind_eq_ok.mp hrest
      cases hlast
      obtain ⟨first', s', hfirst', hrest'⟩ := Action.run_bind_eq_ok.mp hrun'
      obtain ⟨others', _, hothers', hlast'⟩ := Action.run_bind_eq_ok.mp hrest'
      cases hlast'
      rw [Action.noted_of_ok hfirst, Action.noted_of_ok hfirst'] at hoffered
      obtain ⟨hnow, hlater⟩ := List.append_inj hoffered rfl
      obtain ⟨rfl, hmiddle⟩ := trainStep_renamed hf h hnow hfirst hfirst'
      obtain ⟨rfl, hend⟩ := ih hmiddle hlater hothers hothers'
      exact ⟨rfl, hend⟩

/-- Given the same items, they train alike for an epoch. -/
theorem trainEpoch_renamed (hf : f.Injective) (h : t.learner.Renamed f u.learner)
    (hoffered : Action.noted (offered feed) (trainStep feed) n t =
      Action.noted (offered feed') (trainStep feed') n u)
    {summary summary' : EpochSummary α ρ}
    (hrun : (trainEpoch feed n 1).run t = (.ok summary, t'))
    (hrun' : (trainEpoch feed' n 1).run u = (.ok summary', u')) :
    summary = summary' ∧ t'.learner.Renamed f u'.learner := by
  obtain ⟨records, s, hsteps, hsummary, haside, hepoch⟩ := of_trainEpoch hrun
  obtain ⟨records', s', hsteps', hsummary', haside', hepoch'⟩ := of_trainEpoch hrun'
  obtain ⟨rfl, hmiddle⟩ := steps_renamed hf h hoffered hsteps hsteps'
  refine ⟨?_, hmiddle.aside haside haside' ?_⟩
  · rw [hsummary, hsummary', hmiddle.name, hmiddle.epoch]
  · rw [hepoch, hepoch', hmiddle.epoch]

end

end Training

namespace Agent

/-- The value batch that is made of an answer of the task. -/
def batchOf (answer : Outcome (Trajectory α)) : Outcome (ValueBatch α) := do
  let trajectory ← answer
  trajectory.validate
  trajectory.valueBatch

/-- What the task answers to a draw of the value learner. -/
def valueAnswer (agent : Agent α ρ τ) (t : Training α ρ (ValueBatch α) τ) :
    List (Outcome (Trajectory α)) :=
  [(agent.task.sample agent.valueRequest t.source).1]

variable [Scalar α] [Scalar ρ] [Shown α] [Shown ρ] [Narrows ρ α]

omit [Scalar α] [Scalar ρ] [Shown α] [Shown ρ] [Narrows ρ α] in
theorem offered_valueFeed (agent : Agent α ρ τ) (t : Training α ρ (ValueBatch α) τ) :
    Training.offered agent.valueFeed t =
      (agent.valueAnswer t).map fun answer => some (batchOf answer) := by
  have hsource : (t.start agent.valueFeed).source = t.source := by
    rw [Training.start]
    split
    · rfl
    · rfl
  rw [Training.offered, hsource, valueAnswer, List.map_singleton]
  show [some ((Source.valueBatch agent.task agent.valueRequest).run t.source).1] = _
  rw [Source.run_valueBatch]
  rfl

/-- What the task answers to the draws of a value training, one after the other. -/
def valueAnswers (agent : Agent α ρ τ) : List (Outcome (Trajectory α)) :=
  Action.noted agent.valueAnswer (Training.trainStep agent.valueFeed) agent.config.valueSteps
    (valuePart agent)

section

variable {f : Nat → Nat} {agent after : Agent α ρ τ} {agent' after' : Agent α ρ τ'}

/-- Value training depends on the value learner, on its number of steps and on the answers to its
draws. -/
theorem trainValue_renamed (hf : f.Injective) (h : agent.value.Renamed f agent'.value)
    (hsteps : agent'.config.valueSteps = agent.config.valueSteps)
    (hanswers : agent'.valueAnswers = agent.valueAnswers) {losses losses' : EpochSummary α ρ}
    (hrun : trainValue.run agent = (.ok losses, after))
    (hrun' : trainValue.run agent' = (.ok losses', after')) :
    losses = losses' ∧ after.value.Renamed f after'.value := by
  obtain ⟨_, htrain, rfl⟩ := run_trainValue_eq_ok.mp hrun
  obtain ⟨_, htrain', rfl⟩ := run_trainValue_eq_ok.mp hrun'
  rw [hsteps] at htrain'
  apply Training.trainEpoch_renamed hf h ?_ htrain htrain'
  have hoffered := congrArg (List.map fun answer => some (batchOf answer)) hanswers
  rw [valueAnswers, valueAnswers, Action.map_noted, Action.map_noted, hsteps] at hoffered
  simp only [← offered_valueFeed] at hoffered
  exact hoffered.symm

omit [Scalar ρ] [Shown α] [Shown ρ] [Narrows ρ α] in
/-- Where no layers are shared, nothing is copied. -/
theorem run_share_of_none (hnone : agent.config.sharedLayers = 0) :
    shareToPolicy.run agent = (.ok (), agent) ∧ shareToValue.run agent = (.ok (), agent) := by
  have hshared : ¬ 0 < agent.config.sharedLayers := by
    rw [hnone]
    exact Nat.lt_irrefl 0
  rw [shareToPolicy, shareToValue, Action.run_bind, Action.run_bind, Action.run_get]
  dsimp only
  rw [if_neg hshared, if_neg hshared]
  exact ⟨rfl, rfl⟩

/-- So an epoch leaves the value learner as its value training does. -/
theorem value_of_trainEpoch {losses : AgentEpoch α ρ} (hnone : agent.config.sharedLayers = 0)
    (h : trainEpoch.run agent = (.ok losses, after)) :
    ∃ trained, trainValue.run agent = (.ok losses.value, trained) ∧
      after.value = trained.value := by
  obtain ⟨trained, shared, finished, last, htrain, hshare, htrain', hshare', hlast, _⟩ :=
    of_trainEpoch h
  have hkept := kept_sameSetup agent
  have htrained := hkept.trainValue.of_run_eq (.refl agent) htrain
  have hshared := hkept.shareToPolicy.of_run_eq htrained hshare
  have hfinished := hkept.trainPolicy.of_run_eq hshared htrain'
  rw [(run_share_of_none (by rw [htrained.config, hnone])).1] at hshare
  rw [(run_share_of_none (by rw [hfinished.config, hnone])).2] at hshare'
  cases hshare
  cases hshare'
  exact ⟨trained, htrain, hlast.trans (of_trainPolicy htrain').1⟩

end

/-- What an epoch leaves on the value side. -/
structure ValueEpoch (α ρ : Type) where
  weights : ModelWeights α
  optimizerState : OptimizerState α
  summary : EpochSummary α ρ

/-- `n` epochs that succeed one after the other: the task's answers to the draws of the value
learner, and what each epoch leaves on the value side.  Between two epochs the task may change, as
when it is told that an epoch has ended. -/
inductive ValueRun (first : Agent α ρ τ) :
    Nat → List (Outcome (Trajectory α)) → List (ValueEpoch α ρ) → Agent α ρ τ → Prop
  | none : ValueRun first 0 [] [] first
  | epoch {n : Nat} {answers : List (Outcome (Trajectory α))} {trace : List (ValueEpoch α ρ)}
      {agent after : Agent α ρ τ} {losses : AgentEpoch α ρ}
      (h : ValueRun first n answers trace agent) (t : τ)
      (hrun : trainEpoch.run { agent with taskState := t } = (.ok losses, after)) :
      ValueRun first (n + 1) (answers ++ valueAnswers { agent with taskState := t })
        (trace ++ [⟨after.value.weights, after.value.optimizerState, losses.value⟩]) after

/-- There is one answer for each value step. -/
theorem length_valueAnswers {agent trained : Agent α ρ τ} {losses : EpochSummary α ρ}
    (h : trainValue.run agent = (.ok losses, trained)) :
    agent.valueAnswers.length = agent.config.valueSteps := by
  obtain ⟨_, htrain, _⟩ := run_trainValue_eq_ok.mp h
  obtain ⟨_, _, hsteps, _⟩ := Training.of_trainEpoch htrain
  exact Action.length_noted (fun _ => rfl) hsteps

theorem ValueRun.config {first agent : Agent α ρ τ} {n : Nat}
    {answers : List (Outcome (Trajectory α))} {trace : List (ValueEpoch α ρ)}
    (h : first.ValueRun n answers trace agent) : agent.config = first.config := by
  induction h with
  | none => rfl
  | epoch h t hrun ih =>
      have hkept := (kept_sameSetup _).trainEpoch.of_run_eq (.refl _) hrun
      exact hkept.config.trans ih

section

variable {f : Nat → Nat} {first agent : Agent α ρ τ} {first' agent' : Agent α ρ τ'} {n : Nat}
variable {answers answers' : List (Outcome (Trajectory α))} {trace trace' : List (ValueEpoch α ρ)}

/-- Epoch by epoch, value learners that differ in identities stay so and do the same, as long as
their draws are answered alike. -/
theorem ValueRun.renamed (hf : f.Injective) (hfirst : first.value.Renamed f first'.value)
    (hshared : first.config.sharedLayers = 0) (hshared' : first'.config.sharedLayers = 0)
    (hsteps : first'.config.valueSteps = first.config.valueSteps)
    (h : first.ValueRun n answers trace agent) (h' : first'.ValueRun n answers' trace' agent')
    (hanswers : answers' = answers) :
    trace = trace' ∧ agent.value.Renamed f agent'.value := by
  induction h generalizing answers' trace' agent' with
  | none =>
      cases h'
      exact ⟨rfl, hfirst⟩
  | epoch h t hrun ih =>
      cases h' with
      | epoch h' t' hrun' =>
          obtain ⟨trained, htrain, hlast⟩ := value_of_trainEpoch (h.config ▸ hshared) hrun
          obtain ⟨trained', htrain', hlast'⟩ := value_of_trainEpoch (h'.config ▸ hshared') hrun'
          have hsame := hsteps
          rw [← h.config, ← h'.config] at hsame
          -- As many answers have been given in this epoch, so those before it agree as well.
          have hlength := length_valueAnswers htrain'
          obtain ⟨hbefore, hnow⟩ := List.append_inj' hanswers
            (hlength.trans (hsame.trans (length_valueAnswers htrain).symm))
          obtain ⟨rfl, hmiddle⟩ := ih h' hbefore
          obtain ⟨hlosses, hvalue⟩ : _ ∧ trained.value.Renamed f trained'.value := by
            refine trainValue_renamed hf ?_ ?_ hnow htrain htrain'
            · exact hmiddle
            · exact hsame
          rw [← hlast, ← hlast'] at hvalue
          rw [hvalue.weights, hvalue.optimizerState, hlosses]
          exact ⟨rfl, hvalue⟩

end

/-- Two agents that share no layers and are built alike on the value side, up to the identities of
the parameters, do the same on the value side in each of their epochs, as long as their tasks answer
the draws of the value learners alike. -/
theorem valueRun_independent {task : Task α τ} {task' : Task α τ'}
    {valueModel evaluationModel evaluationModel' : Outcome (Model α)}
    {policyModel policyModel' : Model α} {algorithm algorithm' : Algorithm α}
    {config config' : Config α ρ} {site here : Site α ρ τ} {site' here' : Site α ρ τ'}
    {first agent : Agent α ρ τ} {first' agent' : Agent α ρ τ'} {f : Nat → Nat} (hf : f.Injective)
    (hbuilt : (construct task valueModel evaluationModel policyModel algorithm config).run site =
      (.ok first, here))
    (hbuilt' : (construct task' (valueModel.map (Model.rename f)) evaluationModel' policyModel'
      algorithm' config').run site' = (.ok first', here'))
    (hshared : config.sharedLayers = 0) (hshared' : config'.sharedLayers = 0)
    (hsteps : config'.valueSteps = config.valueSteps)
    (hoptimizer : config'.valueOptimizer = config.valueOptimizer)
    (hschedule : config'.valueSchedule = config.valueSchedule) {n : Nat}
    {answers : List (Outcome (Trajectory α))} {trace trace' : List (ValueEpoch α ρ)}
    (hrun : first.ValueRun n answers trace agent)
    (hrun' : first'.ValueRun n answers trace' agent') : trace = trace' := by
  obtain ⟨_, model, schedule, hmodel, hplan, hvalue⟩ := of_construct hbuilt
  obtain ⟨_, model', schedule', hmodel', hplan', hvalue'⟩ := of_construct hbuilt'
  have hconfig := (built_of_construct hbuilt).config_eq
  have hconfig' := (built_of_construct hbuilt').config_eq
  rw [hmodel] at hmodel'
  cases hmodel'
  rw [hschedule, hplan] at hplan'
  cases hplan'
  have hfirst : first.value.Renamed f first'.value := by
    rw [hvalue, hvalue', hoptimizer]
    exact ⟨rfl, rfl, Objective.value_ignoresIds, rfl, rfl, ⟨rfl, rfl, rfl, fun _ => rfl⟩, rfl⟩
  refine (hrun.renamed hf hfirst ?_ ?_ ?_ hrun' rfl).1
  · rw [hconfig, hshared]
  · rw [hconfig', hshared']
  · rw [hconfig, hconfig', hsteps]

namespace Line

/-- A tensor with one entry. -/
def single (rank : Nat) (x : Float32) : Tensor Float32 rank :=
  .tabulate (.replicate rank 1) fun _ => x

/-- A trajectory of one timestep. -/
def moment (x y : Float32) : Trajectory Float32 where
  observations := single 3 x
  actions := single 3 y
  rewards := single 2 y
  returns := single 2 y
  logProbs := single 2 (-1)
  mask := single 2 1

/-- A task with one answer to all value draws, and one to all other draws. -/
def constant (value policy : Trajectory Float32) : Task Float32 Nat where
  sample request s := (.ok (if request.scope = .all then value else policy), s + 1)
  gamma _ := 0.5
  endEpoch _ s := (.ok (), s)

/-- Whether two epochs succeed. -/
def twice (build : Action (Site Float32 Float Nat) (Agent Float32 Float Nat)) :
    Action (Site Float32 Float Nat) Bool := do
  let first ← build
  return (Action.run (do let _ ← trainEpoch; trainEpoch) first).1.isOk

/-- An agent that shares no layers. -/
def apart : Action (Site Float32 Float Nat) (Agent Float32 Float Nat) :=
  construct (constant (moment 2 1) (moment 1 0.5)) (.ok (bent 0.5 1)) (.ok (bent 0.5 1))
    (bent 0.25 2) (.a2c (.gaussian 1 0.5)) { config with sharedLayers := 0 }

/-- One with another policy side, and with other identities in the value model. -/
def apart' : Action (Site Float32 Float Nat) (Agent Float32 Float Nat) :=
  construct (constant (moment 2 1) (moment 3 2))
    (Except.map (Model.rename (· + 5)) (.ok (bent 0.5 1))) (.ok (bent 0.5 1)) (bent 0.75 1)
    (.a2c (.gaussian 1 0.25)) { config with sharedLayers := 0, policySteps := 2 }

section

variable {value policy : Trajectory Float32} {agent : Agent Float32 Float Nat}

theorem valueAnswers_constant (htask : agent.task = constant value policy)
    (hscope : agent.valueRequest.scope = .all) {losses : AgentEpoch Float32 Float}
    {after : Agent Float32 Float Nat} (hrun : trainEpoch.run agent = (.ok losses, after)) :
    agent.valueAnswers = List.replicate agent.config.valueSteps (.ok value) := by
  obtain ⟨_, _, htrain, _⟩ := Action.run_bind_eq_ok.mp hrun
  rw [List.eq_replicate_iff]
  refine ⟨length_valueAnswers htrain, ?_⟩
  apply Action.forall_noted
  intro t answer hanswer
  rw [valueAnswer, htask] at hanswer
  rw [List.mem_singleton.mp hanswer]
  show Except.ok (if agent.valueRequest.scope = .all then value else policy) = _
  rw [if_pos hscope]

/-- An agent with such a task runs on the same answers, whatever its policy side is like. -/
theorem exists_valueRun {valueModel evaluationModel : Outcome (Model Float32)}
    {policyModel : Model Float32} {algorithm : Algorithm Float32} {config : Config Float32 Float}
    {site : Site Float32 Float Nat}
    (h : ((twice (construct (constant value policy) valueModel evaluationModel policyModel algorithm
      config)).run site).1 = .ok true) :
    ∃ first here trace agent, (construct (constant value policy) valueModel evaluationModel
        policyModel algorithm config).run site = (.ok first, here) ∧
      first.ValueRun 2 (List.replicate config.valueSteps (.ok value) ++
        List.replicate config.valueSteps (.ok value)) trace agent := by
  obtain ⟨first, here, hbuilt, hlast⟩ := Action.run_bind_eq_ok.mp (Prod.ext h rfl)
  have hfirst := built_of_construct hbuilt
  obtain ⟨length, _, hrequest⟩ := hfirst.valueRequest
  have htwice := Except.ok.inj (congrArg Prod.fst hlast)
  obtain ⟨_, hepochs⟩ := Outcome.exists_of_isOk htwice
  obtain ⟨_, middle, hepoch, hepoch'⟩ := Action.run_bind_eq_ok.mp (Prod.ext hepochs rfl)
  have hsetup := (kept_sameSetup first).trainEpoch.of_run_eq (.refl first) hepoch
  have hscope : first.valueRequest.scope = .all := by
    rw [hrequest]
    rfl
  have hanswers := valueAnswers_constant hfirst.task_eq hscope hepoch
  have hanswers' := valueAnswers_constant (hsetup.task.trans hfirst.task_eq)
    (hsetup.valueRequest ▸ hscope) hepoch'
  rw [hfirst.config_eq] at hanswers
  rw [hsetup.config, hfirst.config_eq] at hanswers'
  have hrun : first.ValueRun 2 ([] ++ first.valueAnswers ++ middle.valueAnswers) _ _ :=
    .epoch (.epoch .none first.taskState hepoch) middle.taskState hepoch'
  rw [List.nil_append, hanswers, hanswers'] at hrun
  exact ⟨first, here, _, _, hbuilt, hrun⟩

end

/-- The value sides of two agents with different policy sides do the same in two epochs. -/
theorem valueRun_apart : ∃ first here first' here' answers trace agent agent',
    apart.run ⟨0, .start .empty⟩ = (.ok first, here) ∧
      apart'.run ⟨0, .start .empty⟩ = (.ok first', here') ∧
      first.ValueRun 2 answers trace agent ∧ first'.ValueRun 2 answers trace agent' := by
  have hruns : ((twice apart).run ⟨0, .start .empty⟩).1 = .ok true := by decide +kernel
  have hruns' : ((twice apart').run ⟨0, .start .empty⟩).1 = .ok true := by decide +kernel
  obtain ⟨first, here, trace, agent, hbuilt, hrun⟩ := exists_valueRun hruns
  obtain ⟨first', here', trace', agent', hbuilt', hrun'⟩ := exists_valueRun hruns'
  have hshift : Function.Injective (· + 5) := fun _ _ h => Nat.add_right_cancel h
  obtain rfl := valueRun_independent hshift hbuilt hbuilt' rfl rfl rfl rfl rfl hrun hrun'
  exact ⟨first, here, first', here', _, trace, agent, agent', hbuilt, hbuilt', hrun, hrun'⟩

end Line

end Agent

end PolicyGradient
