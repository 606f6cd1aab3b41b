import PolicyGradient.Proofs.Events

/-!
What a construction asks of the task.

All that can be wrong with the settings is found before the task is called for the first time.
After that no configuration error can come up any more, unless the task or the model answers with
one (`Agent.taskState_of_configError`).  A construction calls the task once at most
(`Agent.calls_of_construct`).
-/

namespace PolicyGradient

open Outcome
open Decimal (Shown)

variable {α ρ β γ σ τ : Type}

/-- The computation does not end with a configuration error. -/
def Outcome.NoConfig (x : Outcome β) : Prop :=
  ∀ fault, x ≠ failWith (.config fault)

namespace Outcome

theorem noConfig_ok (b : β) : NoConfig (.ok b) := by
  intro fault h
  cases h

theorem noConfig_fault (fault : Fault) : NoConfig (faultWith fault : Outcome β) := by
  intro fault h
  cases h

theorem noConfig_files : NoConfig (failWith .files : Outcome β) := by
  intro fault h
  cases h

theorem noConfig_ensureShape (what : Subject) (actual expected : List Nat) :
    NoConfig (ensureShape what actual expected) := by
  unfold ensureShape
  split
  · exact noConfig_ok ()
  · intro fault h
    cases h

theorem NoConfig.bind {x : Outcome β} {f : β → Outcome γ} (hx : NoConfig x)
    (hf : ∀ b, NoConfig (f b)) : NoConfig (x >>= f) := by
  cases x with
  | error e =>
      intro fault h
      cases h
      exact hx fault rfl
  | ok b => exact hf b

end Outcome

namespace Action

/-- The action does not end with a configuration error. -/
def NoConfig (act : Action σ β) : Prop :=
  ∀ s, (act.run s).1.NoConfig

theorem noConfig_pure (b : β) : NoConfig (pure b : Action σ β) :=
  fun _ => noConfig_ok b

theorem noConfig_lift {x : Outcome β} (h : x.NoConfig) : NoConfig (lift x : Action σ β) :=
  fun _ => h

theorem NoConfig.bind {act : Action σ β} {next : β → Action σ γ} (hact : NoConfig act)
    (hnext : ∀ b, NoConfig (next b)) : NoConfig (act >>= next) := by
  intro s
  have hfirst := hact s
  rw [run_bind]
  rcases hrun : act.run s with ⟨e | b, t⟩
  · rw [hrun] at hfirst
    intro fault h
    cases h
    exact hfirst fault rfl
  · exact hnext b t

end Action

theorem Trajectory.noConfig_validate (trajectory : Trajectory α) : trajectory.validate.NoConfig :=
  (noConfig_ensureShape _ _ _).bind fun _ => (noConfig_ensureShape _ _ _).bind fun _ =>
    (noConfig_ensureShape _ _ _).bind fun _ => (noConfig_ensureShape _ _ _).bind fun _ =>
      noConfig_ensureShape _ _ _

theorem Trajectory.noConfig_valueBatch (trajectory : Trajectory α) :
    trajectory.valueBatch.NoConfig := by
  have hreshape : ∀ {rank rank' : Nat} (t : Tensor α rank) (dims : Vector Nat rank'),
      (t.reshape dims).NoConfig := by
    intro rank rank' t dims
    unfold Tensor.reshape
    split
    · exact noConfig_ok _
    · exact noConfig_fault _
  exact (hreshape _ _).bind fun _ => (hreshape _ _).bind fun _ => noConfig_ok _

namespace Files

theorem noConfig_createDirectories (files : Files) (location : String) :
    (files.createDirectories location).1.NoConfig := by
  have hfrom : ∀ (names : List String) (files : Files) (dir : Path),
      (createFrom files dir names).1.NoConfig := by
    intro names
    induction names with
    | nil => exact fun _ _ => noConfig_ok ()
    | cons name others ih =>
        intro files dir
        unfold createFrom
        dsimp only
        split
        · exact ih _ _
        · exact noConfig_files
        · split
          · exact ih _ _
          · exact noConfig_files
  unfold createDirectories
  split
  · exact hfrom _ _ _
  · exact noConfig_files

theorem noConfig_locate (files : Files) (location : String) :
    (files.locate location).NoConfig := by
  have henter : ∀ (names : List String) (dir : Path), (enter files dir names).NoConfig := by
    intro names
    induction names with
    | nil => exact fun _ => noConfig_ok _
    | cons name others ih =>
        intro dir
        unfold enter
        dsimp only
        split
        · exact ih _
        · exact noConfig_files
  unfold locate
  refine (henter _ _).bind fun _ => ?_
  dsimp only
  split
  · exact noConfig_ok _
  · exact noConfig_files

end Files

theorem Learner.noConfig_withOutputDir (learner : Learner α ρ β) (dir : String) :
    (learner.withOutputDir dir).NoConfig := by
  have hcreate : ∀ files, (Table.create files (inside dir metricsFile)).NoConfig :=
    fun files => (files.noConfig_locate _).bind fun _ => noConfig_ok _
  refine Action.NoConfig.bind (fun files => files.noConfig_createDirectories dir) fun _ => ?_
  refine Action.NoConfig.bind (fun _ => noConfig_ok _) fun files => ?_
  refine (Action.noConfig_lift (hcreate files)).bind fun _ => ?_
  exact Action.NoConfig.bind (fun _ => noConfig_ok _) fun _ => Action.noConfig_pure _

namespace Agent

section

variable [Scalar α] [Scalar ρ] [Shown ρ]

theorem noConfig_learner (name : String) (model : Model α) (objective : Objective α β)
    (optimizer : Adam.Settings α) (plan : Schedule.Plan ρ) :
    (learner name model objective optimizer plan).NoConfig := by
  unfold learner
  cases plan.build with
  | error refusal => exact (noConfig_fault _).bind fun _ => noConfig_ok _
  | ok schedule => exact noConfig_ok _

end

theorem noConfig_withMetrics (learner : Learner α ρ β) (dir : Option String) :
    (withMetrics (τ := τ) learner dir).NoConfig := by
  cases dir with
  | none => exact Action.noConfig_pure learner
  | some dir => exact fun site => learner.noConfig_withOutputDir dir site.journal.files

section

variable [Scalar α] [Scalar ρ] [Shown ρ]
variable {task : Task α τ} {valueModel evaluationModel : Outcome (Model α)} {policyModel : Model α}
variable {algorithm : Algorithm α} {config : Config α ρ} {fault : ConfigFault}

/-- The configuration error is the task's answer to the first request for a value batch, or what the
evaluation model's forward pass ends with. -/
def Foreign (task : Task α τ) (evaluationModel : Outcome (Model α)) (config : Config α ρ) (s : τ)
    (fault : ConfigFault) : Prop :=
  (∃ length, config.sliceLength = some length ∧
    (task.sample (Source.valueRequest config length) s).1 = failWith (.config fault)) ∨
  ∃ model observations, evaluationModel = .ok model ∧
    model.output observations = failWith (.config fault)

omit [Scalar α] [Scalar ρ] [Shown ρ] in
theorem noConfig_policyRequest {length : Nat} (hlength : config.sliceLength = some length)
    (onPolicy : Bool) : (Source.policyRequest config onPolicy).NoConfig := by
  have hrequire : config.requireSliceLength = .ok length := by
    simp only [Config.requireSliceLength, hlength]
  have hadd : (Size.add length config.lookAhead).NoConfig := by
    unfold Size.add Size.bounded
    split
    · exact noConfig_ok _
    · exact noConfig_fault _
  rw [Source.policyRequest, Config.policySliceLength, hrequire]
  exact hadd.bind fun _ => noConfig_ok _

omit [Scalar α] [Scalar ρ] [Shown ρ] in
/-- A draw ends with a configuration error only if the task answers with it. -/
theorem answer_of_configError {request : BatchRequest} {s : τ}
    (h : ((Source.valueBatch task request).run s).1 = failWith (.config fault)) :
    (task.sample request s).1 = failWith (.config fault) := by
  rw [Source.run_valueBatch] at h
  cases hanswer : (task.sample request s).1 with
  | error e =>
      rw [hanswer] at h
      rw [Except.error.inj h]
      rfl
  | ok trajectory =>
      rw [hanswer] at h
      have hmade := trajectory.noConfig_validate.bind fun _ => trajectory.noConfig_valueBatch
      exact absurd h (hmade fault)

omit [Scalar α] [Scalar ρ] [Shown ρ] in
theorem output_of_configError {model : Model α} {batch : ValueBatch α}
    (h : checkValueOutput model batch = failWith (.config fault)) :
    model.output batch.observations = failWith (.config fault) := by
  unfold checkValueOutput at h
  cases houtput : model.output batch.observations with
  | error e =>
      rw [houtput] at h
      rw [Except.error.inj h]
      rfl
  | ok output =>
      rw [houtput] at h
      exact absurd h (noConfig_ensureShape _ _ _ fault)

/-- Once a value batch has been drawn, no fault is found with the settings. -/
theorem taskState_of_complete {value : Learner α ρ (ValueBatch α)} {length : Nat}
    (hlength : config.sliceLength = some length) {site : Site α ρ τ}
    (h : ((complete task value length evaluationModel policyModel algorithm config).run site).1 =
      failWith (.config fault)) :
    ((complete task value length evaluationModel policyModel algorithm config).run
      site).2.taskState = site.taskState ∨
    Foreign task evaluationModel config site.taskState fault := by
  unfold complete at h ⊢
  rw [Action.run_lift_bind] at h ⊢
  cases evaluationModel with
  | error e => exact .inl rfl
  | ok model =>
      right
      dsimp only at h
      rw [Action.run_bind] at h
      rcases hdraw : (Site.onTask (Source.valueBatch task
        (Source.valueRequest config length))).run site with ⟨e | batch, drawn⟩
      · rw [hdraw] at h
        have hitem : ((Source.valueBatch task (Source.valueRequest config length)).run
          site.taskState).1 = .error e := congrArg Prod.fst hdraw
        rw [Except.error.inj h] at hitem
        exact .inl ⟨length, hlength, answer_of_configError hitem⟩
      · rw [hdraw] at h
        dsimp only at h
        rw [Action.run_lift_bind] at h
        cases hcheck : checkValueOutput model batch with
        | error e =>
            rw [hcheck] at h
            rw [Except.error.inj h] at hcheck
            exact .inr ⟨model, batch.observations, rfl, output_of_configError hcheck⟩
        | ok _ =>
            rw [hcheck] at h
            refine absurd h ((?_ : Action.NoConfig _) drawn fault)
            refine (Action.noConfig_lift (noConfig_policyRequest hlength _)).bind fun _ => ?_
            refine (Action.noConfig_lift (noConfig_learner _ _ _ _ _)).bind fun _ => ?_
            refine (noConfig_withMetrics _ _).bind fun _ => ?_
            exact fun site => noConfig_ok _

/-- What is left to build calls the task for one value batch at most. -/
theorem calls_of_complete (value : Learner α ρ (ValueBatch α)) (length : Nat)
    (site : Site α ρ τ) :
    ((complete task value length evaluationModel policyModel algorithm config).run
      site).2.taskState = site.taskState ∨
    ((complete task value length evaluationModel policyModel algorithm config).run
      site).2.taskState = (task.sample (Source.valueRequest config length) site.taskState).2 := by
  rw [complete, Action.run_lift_bind]
  cases evaluationModel with
  | error e => exact .inl rfl
  | ok model =>
      right
      have hdraw : ((Site.onTask (Source.valueBatch task
          (Source.valueRequest config length))).run site).2.taskState =
            (task.sample (Source.valueRequest config length) site.taskState).2 :=
        congrArg Prod.snd (Source.run_valueBatch site.taskState)
      generalize (task.sample (Source.valueRequest config length) site.taskState).2 = t at hdraw
      -- Only the draw concerns the task.
      dsimp only
      rw [Action.run_bind]
      rcases hrun : (Site.onTask (Source.valueBatch task
        (Source.valueRequest config length))).run site with ⟨e | batch, drawn⟩
      · rw [hrun] at hdraw
        exact hdraw
      · rw [hrun] at hdraw
        refine (?_ : Action.Preserves (fun here : Site α ρ τ => here.taskState = t) _) drawn hdraw
        refine (Action.preserves_lift _).bind fun _ => (Action.preserves_lift _).bind fun _ =>
          (Action.preserves_lift _).bind fun plain => Action.Preserves.bind ?_ fun policy => ?_
        · exact fun here h => (taskState_of_withMetrics plain config.outputDir here).trans h
        · exact Action.Preserves.bind (fun _ h => h) fun _ => Action.preserves_get.bind fun _ =>
            Action.preserves_pure _

omit [Scalar α] [Scalar ρ] [Shown ρ] in
theorem taskState_of_closingOnFailure (learner : Learner α ρ γ) (act : Action (Site α ρ τ) β)
    (site : Site α ρ τ) : ((Site.closingOnFailure learner act).run site).1 = (act.run site).1 ∧
      ((Site.closingOnFailure learner act).run site).2.taskState =
        (act.run site).2.taskState := by
  simp only [Site.closingOnFailure, Action.run_of]
  rcases act.run site with ⟨_ | _, _⟩
  · exact ⟨rfl, rfl⟩
  · exact ⟨rfl, rfl⟩

/-- The action has ended with the task still in the state `s`, or it ends as one of these actions
does on a site with the task in that state. -/
def EndsWith (s : τ) (lasts : Action (Site α ρ τ) β → Prop) (act : Action (Site α ρ τ) β) : Prop :=
  ∀ site, site.taskState = s → (act.run site).2.taskState = s ∨
    ∃ last here, lasts last ∧ here.taskState = s ∧ (act.run site).1 = (last.run here).1 ∧
      (act.run site).2.taskState = (last.run here).2.taskState

section

variable {s : τ} {lasts : Action (Site α ρ τ) γ → Prop}

omit [Scalar α] [Scalar ρ] [Shown ρ] in
theorem EndsWith.of_run_eq {act : Action (Site α ρ τ) γ} (h : EndsWith s lasts act)
    {site site' : Site α ρ τ} {outcome : Outcome γ} (hsite : site.taskState = s)
    (hrun : act.run site = (outcome, site')) : site'.taskState = s ∨
      ∃ last here, lasts last ∧ here.taskState = s ∧ outcome = (last.run here).1 ∧
        site'.taskState = (last.run here).2.taskState := by
  have hends := h site hsite
  rwa [hrun] at hends

omit [Scalar α] [Scalar ρ] [Shown ρ] in
theorem endsWith_lift_bind {x : Outcome β} {next : β → Action (Site α ρ τ) γ}
    (h : ∀ b, x = .ok b → EndsWith s lasts (next b)) :
    EndsWith s lasts (Action.lift x >>= next) := by
  intro site hsite
  rw [Action.run_lift_bind]
  cases x with
  | error e => exact .inl hsite
  | ok b => exact h b rfl site hsite

omit [Scalar α] [Scalar ρ] [Shown ρ] in
theorem endsWith_bind {act : Action (Site α ρ τ) β} {next : β → Action (Site α ρ τ) γ}
    (hact : Action.Preserves (fun site => site.taskState = s) act)
    (h : ∀ b, EndsWith s lasts (next b)) : EndsWith s lasts (act >>= next) := by
  intro site hsite
  have hkept := hact site hsite
  rw [Action.run_bind]
  rcases hrun : act.run site with ⟨e | b, after⟩
  · rw [hrun] at hkept
    exact .inl hkept
  · rw [hrun] at hkept
    exact h b after hkept

end

/-- A construction has ended before the task is called for the first time, or it ends with what is
left to build once there is a value learner. -/
theorem endsWith_construct (s : τ) :
    EndsWith s (fun last => ∃ value length, config.sliceLength = some length ∧
        last = complete task value length evaluationModel policyModel algorithm config)
      (construct task valueModel evaluationModel policyModel algorithm config) := by
  rw [construct_eq]
  refine endsWith_lift_bind fun _ _ => endsWith_lift_bind fun length hlength => ?_
  refine endsWith_lift_bind fun trained _ => endsWith_lift_bind fun _ _ => ?_
  refine endsWith_bind (fun here h => (taskState_of_makeDirectory _ here).trans h) fun _ => ?_
  refine endsWith_lift_bind fun plain _ => ?_
  refine endsWith_bind (fun here h => (taskState_of_withMetrics plain _ here).trans h)
    fun value => ?_
  intro here hhere
  obtain ⟨houtcome, htask⟩ := taskState_of_closingOnFailure value
    (complete task value length evaluationModel policyModel algorithm config) here
  exact .inr ⟨_, here, ⟨value, length, Config.sliceLength_of_require hlength, rfl⟩, hhere, houtcome,
    htask⟩

section

variable {site site' : Site α ρ τ}

/-- A construction that fails because of its configuration has not called the task. -/
theorem taskState_of_configError
    (h : (construct task valueModel evaluationModel policyModel algorithm config).run site =
      (failWith (.config fault), site')) :
    site'.taskState = site.taskState ∨
      Foreign task evaluationModel config site.taskState fault := by
  rcases (endsWith_construct site.taskState).of_run_eq rfl h with
    hearly | ⟨_, here, ⟨value, length, hlength, rfl⟩, hhere, houtcome, htask⟩
  · exact .inl hearly
  · rw [htask, ← hhere]
    exact taskState_of_complete hlength houtcome.symm

/-- However a construction ends, it has called the task for one value batch at most. -/
theorem calls_of_construct {outcome : Outcome (Agent α ρ τ)}
    (h : (construct task valueModel evaluationModel policyModel algorithm config).run site =
      (outcome, site')) :
    site'.taskState = site.taskState ∨ ∃ length, config.sliceLength = some length ∧
      site'.taskState = (task.sample (Source.valueRequest config length) site.taskState).2 := by
  rcases (endsWith_construct site.taskState).of_run_eq rfl h with
    hearly | ⟨_, here, ⟨value, length, hlength, rfl⟩, hhere, -, htask⟩
  · exact .inl hearly
  · rw [htask, ← hhere]
    rcases calls_of_complete value length here with hearly | hcalled
    · exact .inl hearly
    · exact .inr ⟨length, hlength, hcalled⟩

end

end

end Agent

end PolicyGradient
