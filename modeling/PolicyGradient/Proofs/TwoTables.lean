import PolicyGradient.Proofs.Epochs
import PolicyGradient.Proofs.Folders

/-!
The metrics files of both learners.

An agent with an output directory writes the rows of its policy learner to the metrics file of this
directory, and those of its value learner to that of a directory in it.  While one learner trains
it leaves the file of the other one alone, so after each epoch that succeeds both files have the
rows of all steps (`Agent.Tabled`).
-/

namespace PolicyGradient

open Outcome
open Decimal (Shown)

variable {α ρ ρ' β β' σ τ : Type}

/-- Loggers that are apart from a file stay so when they write out what they hold back. -/
theorem Loggers.apart_flush {path : Path} {loggers : List Logger}
    (h : ∀ logger ∈ loggers, logger.Apart path) (files : Files) :
    (∀ logger ∈ (flush files loggers).1, logger.Apart path) ∧
      (flush files loggers).2.content path = files.content path := by
  induction loggers generalizing files with
  | nil => exact ⟨h, rfl⟩
  | cons logger loggers ih =>
      obtain ⟨hlogger, hbetween⟩ := (h logger List.mem_cons_self).flush files
      obtain ⟨hloggers, hfiles⟩ :=
        ih (fun other hother => h other (.tail _ hother)) (logger.flush files).2
      exact ⟨List.forall_mem_cons.mpr ⟨hlogger, hloggers⟩, hfiles.trans hbetween⟩

/-- What loggers show depends only on the content of their table's file. -/
theorem Loggers.Writes.of_content {loggers : List Logger} {files files' : Files} {path : Path}
    {text : String} (h : Writes loggers files path text)
    (hcontent : files'.content path = files.content path) : Writes loggers files' path text := by
  obtain ⟨hbelow, before, table, hloggers, hapart, hpath, htext⟩ := h
  exact ⟨hbelow, before, table, hloggers, hapart, hpath,
    (Table.shown_congr hpath hcontent).trans htext⟩

namespace Training

variable {path : Path} {text : String}

/-- The learner's loggers are apart from a file, which has this content. -/
def Spares (path : Path) (text : String) (t : Training α ρ β σ) : Prop :=
  (∀ logger ∈ t.learner.loggers, logger.Apart path) ∧ t.journal.files.content path = text

variable [Scalar α] [Scalar ρ] [Shown α] [Shown ρ]

omit [Scalar ρ] in
theorem preserves_spares_report (record : StepRecord α ρ) :
    Action.Preserves (Spares (β := β) (σ := σ) path text) (report record) := by
  intro t ht
  have hstep : Loggers.step record t.journal.files t.learner.loggers = (_, _, _, _) := rfl
  obtain ⟨hloggers, hfiles⟩ := Loggers.apart_step ht.1 hstep
  exact ⟨hloggers, hfiles.trans ht.2⟩

omit [Shown α] [Shown ρ] in
theorem preserves_spares_conclude (records : List (StepRecord α ρ)) :
    Action.Preserves (Spares (β := β) (σ := σ) path text) (conclude records) := by
  intro t ht
  obtain ⟨hloggers, hfiles⟩ := Loggers.apart_flush ht.1 t.journal.files
  exact ⟨hloggers, hfiles.trans ht.2⟩

variable [Narrows ρ α]

theorem preserves_spares_trainStep (feed : Feed σ β) :
    Action.Preserves (Spares (α := α) (ρ := ρ) path text) (trainStep feed) := by
  intro t ht
  have hdrawn : Spares path text ((nextBatch feed).run t).2 := by
    rw [run_nextBatch_eq]
    exact ht
  rcases trainStep_cases feed t with hlast | ⟨_, learner, record, hupdate, hlast⟩
  · rw [hlast]
    exact hdrawn
  · obtain ⟨_, _, _, _, _, hframe, _⟩ := Learner.of_update hupdate
    rw [hlast]
    apply preserves_spares_report
    rw [hframe]
    exact hdrawn

/-- However it ends, training leaves a file alone that the learner's loggers are apart from. -/
theorem preserves_spares_trainEpoch (feed : Feed σ β) (n k : Nat) :
    Action.Preserves (Spares (α := α) (ρ := ρ) path text) (trainEpoch feed n k) :=
  preserves_epochs (preserves_spares_trainStep feed) (fun _ _ ht => ht) preserves_spares_conclude
    n k

end Training

namespace Copy

variable [Scalar α]

/-- However it ends, a copy leaves the loggers of the destination as they are. -/
theorem loggers_of_write (start stop : Nat) (slots : Bool) (source : Learner α ρ β)
    (destination : Learner α ρ' β') :
    ((write start stop slots source).run destination).2.loggers = destination.loggers := by
  cases hprepare : prepare start stop slots source destination with
  | error e =>
      rw [run_write_of_error hprepare]
  | ok prepared =>
      obtain ⟨weights, state⟩ := prepared
      rw [run_write hprepare]
      cases hset : Holder.setWeights destination weights with
      | error e => rfl
      | ok loaded =>
          obtain ⟨model, _, rfl⟩ := Learner.of_setWeights hset
          cases state with
          | none => rfl
          | some state =>
              dsimp only
              split
              · rfl
              case h_2 restored hstore =>
                obtain ⟨optimizer, _, rfl⟩ := Learner.of_setOptimizerState hstore
                rfl

theorem loggers_of_layers (start stop : Nat) (slots : Bool) (source : Learner α ρ β)
    (destination : Learner α ρ' β') (journal : Journal α ρ) :
    ((layers start stop slots source).run (destination, journal)).2.1.loggers =
        destination.loggers ∧
      ((layers start stop slots source).run (destination, journal)).2.2.files =
        journal.files := by
  constructor
  · rw [(run_layers start stop slots source destination journal).2]
    exact loggers_of_write start stop slots source destination
  · simp only [layers, Action.run_bind, Action.run_on]
    rcases (write start stop slots source).run destination with ⟨_ | _, _⟩
    · rfl
    · rfl

end Copy

namespace Agent

/-- The metrics files of both learners, and the texts that they start from. -/
structure Tables where
  valuePath : Path
  valueText : String
  policyPath : Path
  policyText : String

/-- The metrics files of an output directory.  That of the value learner lies in a directory in
it. -/
def Tables.inDirectory (dir : String) (files : Files) : Tables where
  valuePath := metricsPath (Learner.inside dir "value")
  valueText := Table.opening (files.content (metricsPath (Learner.inside dir "value")))
  policyPath := metricsPath dir
  policyText := Table.opening (files.content (metricsPath dir))

/-- The rows of these steps are in the files. -/
structure Tables.Written [Shown α] [Shown ρ] (tables : Tables)
    (values policies : List (StepRecord α ρ)) (files : Files) : Prop where
  value : files.content tables.valuePath = tables.valueText ++ Table.rows values
  policy : files.content tables.policyPath = tables.policyText ++ Table.rows policies

/-- Each learner has a table of its own, which shows the rows of these steps. -/
structure Tabled [Shown α] [Shown ρ] (tables : Tables) (values policies : List (StepRecord α ρ))
    (agent : Agent α ρ τ) : Prop where
  value : (valuePart agent).Keeps tables.valuePath tables.valueText values
  policy : (policyPart agent).Keeps tables.policyPath tables.policyText policies
  valueApart : ∀ logger ∈ agent.value.loggers, logger.Apart tables.policyPath
  policyApart : ∀ logger ∈ agent.policy.loggers, logger.Apart tables.valuePath

/-- The agents have the same loggers and the same files. -/
structure SameOutput (agent after : Agent α ρ τ) : Prop where
  value : after.value.loggers = agent.value.loggers
  policy : after.policy.loggers = agent.policy.loggers
  files : after.journal.files = agent.journal.files

section

variable [Scalar α] (agent : Agent α ρ τ)

theorem sameOutput_shareToPolicy : agent.SameOutput (shareToPolicy.run agent).2 := by
  rw [shareToPolicy, Action.run_bind, Action.run_get]
  dsimp only
  split
  · obtain ⟨hloggers, hfiles⟩ := Copy.loggers_of_layers 0 agent.config.sharedLayers true
      agent.value agent.policy agent.journal
    exact ⟨rfl, hloggers, hfiles⟩
  · exact ⟨rfl, rfl, rfl⟩

theorem sameOutput_shareToValue : agent.SameOutput (shareToValue.run agent).2 := by
  rw [shareToValue, Action.run_bind, Action.run_get]
  dsimp only
  split
  · obtain ⟨hloggers, hfiles⟩ := Copy.loggers_of_layers 0 agent.config.sharedLayers true
      agent.policy agent.value agent.journal
    exact ⟨hloggers, rfl, hfiles⟩
  · exact ⟨rfl, rfl, rfl⟩

omit [Scalar α] in
theorem sameOutput_conclude (value policy : EpochSummary α ρ) :
    agent.SameOutput ((conclude value policy).run agent).2 := by
  simp only [conclude, Action.run_bind, Action.run_get, Action.run_set, Action.run_lift]
  cases Size.add agent.epoch 1 with
  | error e => exact ⟨rfl, rfl, rfl⟩
  | ok next => exact ⟨rfl, rfl, rfl⟩

end

section

variable [Shown α] [Shown ρ] {tables : Tables} {values policies : List (StepRecord α ρ)}
variable {agent half after : Agent α ρ τ}

theorem Tabled.of_sameOutput (h : agent.Tabled tables values policies)
    (hsame : agent.SameOutput after) : after.Tabled tables values policies where
  value := by
    rw [Training.Keeps, valuePart, hsame.value, hsame.files]
    exact h.value
  policy := by
    rw [Training.Keeps, policyPart, hsame.policy, hsame.files]
    exact h.policy
  valueApart := hsame.value ▸ h.valueApart
  policyApart := hsame.policy ▸ h.policyApart

variable [Scalar α] [Scalar ρ] [Narrows ρ α]

/-- The records of the value steps of an epoch that succeed. -/
def valueRecords (agent : Agent α ρ τ) : List (StepRecord α ρ) :=
  Training.made agent.valueFeed (.epochs agent.config.valueSteps 1) (valuePart agent)

/-- The records of the policy steps that succeed in a policy training. -/
def trainedRecords (agent : Agent α ρ τ) : List (StepRecord α ρ) :=
  Training.made agent.policyFeed (.epochs agent.config.policySteps 1) (policyPart agent)

/-- The records of the policy steps of an epoch that succeed, if it gets to the policy training. -/
def policyRecords (agent : Agent α ρ τ) : List (StepRecord α ρ) :=
  match valueHalf.run agent with
  | (.ok _, half) => trainedRecords half
  | (.error _, _) => []

/-- The value training adds its rows, however it ends, and leaves the policy learner's file
alone. -/
theorem Tabled.trainValue (h : agent.Tabled tables values policies) :
    (trainValue.run agent).2.Tabled tables (values ++ valueRecords agent) policies ∧
      (trainValue.run agent).2.journal.files.content tables.policyPath =
        agent.journal.files.content tables.policyPath := by
  have hown := h.value.answer agent.valueFeed (.epochs agent.config.valueSteps 1)
  rw [Training.answer, Action.state_bind_pure] at hown
  obtain ⟨hapart, hcontent⟩ := Training.preserves_spares_trainEpoch agent.valueFeed
    agent.config.valueSteps 1 (valuePart agent) ⟨h.valueApart, rfl⟩
  exact ⟨⟨hown, h.policy.of_content hcontent, hapart, h.policyApart⟩, hcontent⟩

/-- The policy training adds its rows, and leaves the value learner's file alone. -/
theorem Tabled.trainPolicy (h : agent.Tabled tables values policies) :
    (trainPolicy.run agent).2.Tabled tables values (policies ++ trainedRecords agent) ∧
      (trainPolicy.run agent).2.journal.files.content tables.valuePath =
        agent.journal.files.content tables.valuePath := by
  have hown := h.policy.answer agent.policyFeed (.epochs agent.config.policySteps 1)
  rw [Training.answer, Action.state_bind_pure] at hown
  obtain ⟨hapart, hcontent⟩ := Training.preserves_spares_trainEpoch agent.policyFeed
    agent.config.policySteps 1 (policyPart agent) ⟨h.policyApart, rfl⟩
  exact ⟨⟨h.value.of_content hcontent, hown, h.valueApart, hapart⟩, hcontent⟩

theorem Tabled.valueHalf (h : agent.Tabled tables values policies) :
    (valueHalf.run agent).2.Tabled tables (values ++ valueRecords agent) policies := by
  have htrained := h.trainValue.1
  rw [Agent.valueHalf, Action.run_bind]
  rcases hrun : Agent.trainValue.run agent with ⟨e | value, trained⟩
  · rw [hrun] at htrained
    exact htrained
  · rw [hrun] at htrained
    dsimp only
    rw [Action.state_bind_pure]
    exact htrained.of_sameOutput (sameOutput_shareToPolicy trained)

theorem Tabled.policyHalf (h : agent.Tabled tables values policies) (value : EpochSummary α ρ) :
    ((policyHalf value).run agent).2.Tabled tables values (policies ++ trainedRecords agent) := by
  have htrained := h.trainPolicy.1
  rw [Agent.policyHalf, Action.run_bind]
  rcases hrun : Agent.trainPolicy.run agent with ⟨e | policy, trained⟩
  · rw [hrun] at htrained
    exact htrained
  · rw [hrun] at htrained
    have hshared := htrained.of_sameOutput (sameOutput_shareToValue trained)
    dsimp only
    rw [Action.run_bind]
    rcases hshare : shareToValue.run trained with ⟨e | _, shared⟩
    · rw [hshare] at hshared
      exact hshared
    · rw [hshare] at hshared
      exact hshared.of_sameOutput (sameOutput_conclude shared value policy)

/-- However an epoch ends, the steps that have succeeded in it have added their rows. -/
theorem Tabled.trainEpoch (h : agent.Tabled tables values policies) :
    (trainEpoch.run agent).2.Tabled tables (values ++ valueRecords agent)
      (policies ++ policyRecords agent) := by
  have hfirst := h.valueHalf
  rw [trainEpoch_eq, Action.run_bind, policyRecords]
  rcases hhalf : Agent.valueHalf.run agent with ⟨e | value, half⟩
  · rw [hhalf] at hfirst
    dsimp only
    rw [List.append_nil]
    exact hfirst
  · rw [hhalf] at hfirst
    exact hfirst.policyHalf value

/-- To tell the task that an epoch has ended puts nothing out. -/
theorem sameOutput_runEpoch (agent : Agent α ρ τ) :
    (Agent.trainEpoch.run agent).2.SameOutput (runEpoch.run agent).2 := by
  rw [runEpoch, Action.run_bind]
  rcases Agent.trainEpoch.run agent with ⟨e | losses, trained⟩
  · exact ⟨rfl, rfl, rfl⟩
  · dsimp only
    rw [Action.state_bind_pure]
    exact ⟨rfl, rfl, rfl⟩

/-- The first half of an epoch writes out the rows of the value steps. -/
theorem Tabled.content_of_valueHalf (h : agent.Tabled tables values policies)
    {value : EpochSummary α ρ} (hrun : Agent.valueHalf.run agent = (.ok value, half)) :
    half.journal.files.content tables.valuePath =
      tables.valueText ++ Table.rows (values ++ valueRecords agent) := by
  obtain ⟨_, trained, htrain, hrest⟩ := Action.run_bind_eq_ok.mp hrun
  obtain ⟨_, _, hshare, hlast⟩ := Action.run_bind_eq_ok.mp hrest
  cases hlast
  have hfiles := (sameOutput_shareToPolicy trained).files
  rw [hshare] at hfiles
  rw [hfiles]
  obtain ⟨_, hepoch, rfl⟩ := run_trainValue_eq_ok.mp htrain
  exact h.value.content_of_trainEpoch hepoch

/-- The second half writes out those of the policy steps. -/
theorem Tabled.written_of_policyHalf (h : half.Tabled tables values policies)
    (hvalue : half.journal.files.content tables.valuePath = tables.valueText ++ Table.rows values)
    {value : EpochSummary α ρ} {losses : AgentEpoch α ρ}
    (hrun : (Agent.policyHalf value).run half = (.ok losses, after)) :
    tables.Written values (policies ++ trainedRecords half) after.journal.files := by
  obtain ⟨policy, trained, htrain, hrest⟩ := Action.run_bind_eq_ok.mp hrun
  obtain ⟨_, shared, hshare, hconclude⟩ := Action.run_bind_eq_ok.mp hrest
  have hkept := h.trainPolicy.2
  have hfiles := (sameOutput_shareToValue trained).files
  have hfiles' := (sameOutput_conclude shared value policy).files
  rw [htrain] at hkept
  rw [hshare] at hfiles
  rw [hconclude] at hfiles'
  rw [hfiles', hfiles]
  obtain ⟨_, hepoch, rfl⟩ := run_trainPolicy_eq_ok.mp htrain
  exact ⟨hkept.trans hvalue, h.policy.content_of_trainEpoch hepoch⟩

/-- After an epoch that succeeds the rows of all steps are in the files. -/
theorem Tabled.written (h : agent.Tabled tables values policies) {losses : AgentEpoch α ρ}
    (hrun : Agent.trainEpoch.run agent = (.ok losses, after)) :
    tables.Written (values ++ valueRecords agent) (policies ++ policyRecords agent)
      after.journal.files := by
  rw [trainEpoch_eq] at hrun
  obtain ⟨value, half, hhalf, hrest⟩ := Action.run_bind_eq_ok.mp hrun
  have hfirst := h.valueHalf
  rw [hhalf] at hfirst
  rw [policyRecords, hhalf]
  exact hfirst.written_of_policyHalf (h.content_of_valueHalf hhalf) hrest

end

section

variable [Scalar α] [Scalar ρ] [Shown α] [Shown ρ] {task : Task α τ}
variable {valueModel evaluationModel : Outcome (Model α)} {policyModel : Model α}
variable {algorithm : Algorithm α} {config : Config α ρ} {site site' : Site α ρ τ}
variable {agent : Agent α ρ τ} {dir : String}

/-- The directory of the value learner has another metrics file. -/
theorem valuePath_ne (dir : String) : metricsPath (Learner.inside dir "value") ≠ metricsPath dir :=
  metricsPath_inside_ne dir (by decide) (by decide)

omit [Shown α] in
theorem apart_of_learner {name : String} {model : Model α} {objective : Objective α β}
    {optimizer : Adam.Settings α} {plan : Schedule.Plan ρ} {built : Learner α ρ β}
    (h : learner name model objective optimizer plan = .ok built) (path : Path) :
    ∀ logger ∈ built.loggers, logger.Apart path := by
  obtain ⟨schedule, _, hlast⟩ := bind_eq_ok.mp h
  cases hlast
  intro logger hlogger
  cases List.mem_singleton.mp hlogger
  trivial

omit [Scalar α] [Scalar ρ] [Shown α] [Shown ρ] in
theorem content_of_makeDirectory (dir : Option String) (site : Site α ρ τ) (path : Path) :
    ((makeDirectory dir).run site).2.journal.files.content path =
      site.journal.files.content path := by
  cases dir with
  | none => rfl
  | some dir => exact Files.content_createDirectories site.journal.files dir path

omit [Scalar α] [Scalar ρ] in
/-- To give a learner its directory is to open a table, and nothing else happens to the files. -/
theorem opens_of_withMetrics {learner learner' : Learner α ρ β}
    (hconsole : ∀ path, ∀ logger ∈ learner.loggers, logger.Apart path)
    (h : (withMetrics learner (some dir)).run site = (.ok learner', site')) :
    Training.Keeps (metricsPath dir)
        (Table.opening (site.journal.files.content (metricsPath dir)))
        (⟨learner', site'.taskState, site'.journal⟩ : Training α ρ β τ) [] ∧
      ∀ path, path ≠ metricsPath dir →
        (∀ logger ∈ learner'.loggers, logger.Apart path) ∧
          site'.journal.files.content path = site.journal.files.content path := by
  rw [withMetrics, Site.onFiles] at h
  obtain ⟨files, hfiles, rfl⟩ := Action.run_on_eq_ok.mp h
  refine ⟨Training.keeps_of_opens ⟨learner, hconsole _, hfiles⟩, ?_⟩
  obtain ⟨table, htable, rfl⟩ := Learner.table_of_withOutputDir hfiles
  intro path hpath
  have hown : table.path = metricsPath dir := (Table.of_create htable).1
  constructor
  · intro logger hlogger
    rcases List.mem_append.mp hlogger with hbefore | hlast
    · exact hconsole path logger hbefore
    · cases List.mem_singleton.mp hlast
      exact fun hsame => hpath (hsame.symm.trans hown)
  · have hother := Table.content_of_create htable (hown ▸ hpath)
    exact hother.trans (Files.content_createDirectories _ _ path)

/-- The policy learner gets a table in the directory, and the value learner keeps its own. -/
theorem tabled_of_complete {value : Learner α ρ (ValueBatch α)} {length : Nat} {path : Path}
    {text : String} (hdir : config.outputDir = some dir) (hpath : path ≠ metricsPath dir)
    (hvalue : Training.Keeps path text
      (⟨value, site.taskState, site.journal⟩ : Training α ρ (ValueBatch α) τ) [])
    (hapart : ∀ logger ∈ value.loggers, logger.Apart (metricsPath dir))
    (h : (complete task value length evaluationModel policyModel algorithm config).run site =
      (.ok agent, site')) :
    agent.Tabled ⟨path, text, metricsPath dir,
      Table.opening (site.journal.files.content (metricsPath dir))⟩ [] [] := by
  unfold complete at h
  obtain ⟨_, _, h⟩ := Action.run_lift_bind_eq_ok.mp h
  obtain ⟨_, _, hsample, h⟩ := Action.run_bind_eq_ok.mp h
  obtain ⟨_, _, h⟩ := Action.run_lift_bind_eq_ok.mp h
  obtain ⟨_, _, h⟩ := Action.run_lift_bind_eq_ok.mp h
  obtain ⟨plain, hplain, h⟩ := Action.run_lift_bind_eq_ok.mp h
  obtain ⟨policy, last, hmetrics, h⟩ := Action.run_bind_eq_ok.mp h
  cases h
  obtain ⟨_, _, rfl⟩ := Action.run_on_eq_ok.mp hsample
  rw [hdir] at hmetrics
  obtain ⟨hown, hothers⟩ := opens_of_withMetrics (apart_of_learner hplain) hmetrics
  obtain ⟨hpolicy, hcontent⟩ := hothers path hpath
  exact ⟨hvalue.of_content hcontent, hown, hapart, hpolicy⟩

/-- An agent with an output directory is built with its tables, which show no steps. -/
theorem tabled_of_construct (hdir : config.outputDir = some dir)
    (h : (construct task valueModel evaluationModel policyModel algorithm config).run site =
      (.ok agent, site')) : agent.Tabled (.inDirectory dir site.journal.files) [] [] := by
  have hvalueDir : valueDir config = some (Learner.inside dir "value") := by
    rw [valueDir, hdir]
    rfl
  rw [construct_eq, hvalueDir] at h
  obtain ⟨_, _, h⟩ := Action.run_lift_bind_eq_ok.mp h
  obtain ⟨_, _, h⟩ := Action.run_lift_bind_eq_ok.mp h
  obtain ⟨_, _, h⟩ := Action.run_lift_bind_eq_ok.mp h
  obtain ⟨_, _, h⟩ := Action.run_lift_bind_eq_ok.mp h
  obtain ⟨_, here, hmade, h⟩ := Action.run_bind_eq_ok.mp h
  obtain ⟨plain, hplain, h⟩ := Action.run_lift_bind_eq_ok.mp h
  obtain ⟨value, there, hmetrics, h⟩ := Action.run_bind_eq_ok.mp h
  obtain ⟨hown, hothers⟩ := opens_of_withMetrics (apart_of_learner hplain) hmetrics
  obtain ⟨hapart, hcontent⟩ := hothers (metricsPath dir) (valuePath_ne dir).symm
  have hlast := tabled_of_complete hdir (valuePath_ne dir) hown hapart
    (run_closingOnFailure_eq_ok.mp h)
  have hhere := content_of_makeDirectory (some (Learner.inside dir "value")) site
  rw [hmade] at hhere
  rw [hcontent, hhere, hhere] at hlast
  exact hlast

end

end Agent

end PolicyGradient
