import PolicyGradient.Proofs.Grouping
import PolicyGradient.Proofs.Runs
import PolicyGradient.Proofs.TwoTables

/-!
The numbers of epochs in what an agent reports.

The agent and its learners count epochs, and as long as epochs succeed the three counts stay in step
(`Agent.InStep`).  They are not read at the same time: the records of an epoch, the agent's losses
and the end that the task is told of have the number of epochs before it, and the summaries of both
learners have the number after it.  So two numbers are in use for each epoch, and the second one is
that of the next epoch (`Agent.epochs_numbered`).
-/

namespace PolicyGradient

open Outcome
open Decimal (Shown)

variable {α ρ β σ τ : Type}

namespace Training

variable [Scalar α] [Scalar ρ] [Shown α] [Shown ρ] [Narrows ρ α]

/-- An epoch is in its records under the learner's count before it, and in its summary under the
count after it. -/
theorem numbers_of_trainEpoch {feed : Feed σ β} {n : Nat} {t u : Training α ρ β σ}
    {summary : EpochSummary α ρ} (h : (trainEpoch feed n 1).run t = (.ok summary, u)) :
    (made feed (.epochs n 1) t).map StepRecord.epoch = List.replicate n t.learner.epoch ∧
      summary = .ofRecords summary.learner (t.learner.epoch + 1)
        (made feed (.epochs n 1) t) := by
  obtain ⟨groups, s, hgroups, hconclude, hmade⟩ := groups_of_trainEpoch h
  obtain ⟨hcount, entries, _, hentries, hepochs⟩ := progress_of_groups hgroups
  have hone := map_div_range (Nat.le_refl n) t.learner.epoch 0
  simp only [Nat.zero_mul, Nat.zero_add, Nat.add_zero] at hone
  rw [Nat.one_mul, hone] at hepochs
  constructor
  · rw [hmade, ← hentries, List.map_map]
    exact hepochs
  · cases hconclude
    rw [← hcount]
    rfl

end Training

namespace Agent

/-- What has been reported of an epoch that has been tried. -/
structure Report (α ρ : Type) where
  /-- The records of the value steps. -/
  values : List (StepRecord α ρ)
  /-- The records of the policy steps. -/
  policies : List (StepRecord α ρ)
  attempt : Attempt α ρ

/-- The epoch has succeeded with all its steps.  Its records, its losses and what the task is told
have one number, and the summaries of its records have another one. -/
structure Report.Numbered [Scalar α] [Scalar ρ] (config : Config α ρ) (number summarized : Nat)
    (report : Report α ρ) : Prop where
  values : report.values.map StepRecord.epoch = List.replicate config.valueSteps number
  policies : report.policies.map StepRecord.epoch = List.replicate config.policySteps number
  outcome : ∃ losses, report.attempt.outcome = .ok losses ∧ losses.epoch = number ∧
    losses.value = .ofRecords losses.value.learner summarized report.values ∧
    losses.policy = .ofRecords losses.policy.learner summarized report.policies
  told : report.attempt.inRun = true → report.attempt.told? = some number

/-- The agent has these settings, and it and its learners have counted the same epochs. -/
structure InStep (config : Config α ρ) (epoch : Nat) (agent : Agent α ρ τ) : Prop where
  config_eq : agent.config = config
  epoch_eq : agent.epoch = epoch
  valueEpoch : agent.value.epoch = epoch
  policyEpoch : agent.policy.epoch = epoch

theorem InStep.of_counters {agent after : Agent α ρ τ} {config : Config α ρ} {epoch : Nat}
    (h : agent.InStep config epoch) (hcounters : after.counters = agent.counters)
    (hconfig : after.config = agent.config) : after.InStep config epoch where
  config_eq := hconfig.trans h.config_eq
  epoch_eq := (congrArg Counters.epoch hcounters).trans h.epoch_eq
  valueEpoch := (congrArg Counters.valueEpoch hcounters).trans h.valueEpoch
  policyEpoch := (congrArg Counters.policyEpoch hcounters).trans h.policyEpoch

variable [Scalar α] [Scalar ρ] [Shown α] [Shown ρ] [Narrows ρ α]

section

variable {agent after : Agent α ρ (Task.Recorded τ)} {config : Config α ρ}

/-- The report of an epoch that is tried. -/
def reportOf (inRun : Bool) (agent : Agent α ρ (Task.Recorded τ)) : Report α ρ where
  values := valueRecords agent
  policies := policyRecords agent
  attempt := ⟨agent.requested, (trainEpoch.run agent).1, inRun⟩

/-- The reports of the epochs that are tried in rounds. -/
def reportedIn (rounds : List Round) (agent : Agent α ρ (Task.Recorded τ)) :
    List (Report α ρ) :=
  notedInRounds (fun inRun agent => [reportOf inRun agent]) rounds agent

/-- Each epoch that is tried has one report. -/
theorem attempts_of_reportedIn (rounds : List Round) (agent : Agent α ρ (Task.Recorded τ)) :
    (reportedIn rounds agent).map Report.attempt = triedIn rounds agent := by
  rw [reportedIn, map_notedInRounds, triedIn_eq]
  rfl

end

section

variable {agent half after : Agent α ρ τ} {config : Config α ρ} {number : Nat}

/-- The first half of an epoch numbers the value steps. -/
theorem numbers_of_valueHalf {summary : EpochSummary α ρ}
    (h : valueHalf.run agent = (.ok summary, half)) :
    (valueRecords agent).map StepRecord.epoch =
        List.replicate agent.config.valueSteps agent.value.epoch ∧
      summary = .ofRecords summary.learner (agent.value.epoch + 1) (valueRecords agent) ∧
      half.config = agent.config ∧ half.value.epoch = agent.value.epoch + 1 ∧
      half.policy.epoch = agent.policy.epoch := by
  have hcounters := counters_valueHalf agent
  obtain ⟨_, trained, htrain, hrest⟩ := Action.run_bind_eq_ok.mp h
  obtain ⟨_, shared, hshare, hlast⟩ := Action.run_bind_eq_ok.mp hrest
  cases hlast
  rw [h, htrain, epoch_of_trainValue htrain] at hcounters
  have htrained := (kept_sameSetup agent).trainValue.of_run_eq (.refl agent) htrain
  have hshared := (kept_sameSetup agent).shareToPolicy.of_run_eq htrained hshare
  obtain ⟨_, hepoch, _⟩ := run_trainValue_eq_ok.mp htrain
  obtain ⟨hrecords, hsummary⟩ := Training.numbers_of_trainEpoch hepoch
  exact ⟨hrecords, hsummary, hshared.config, congrArg Counters.valueEpoch hcounters,
    congrArg Counters.policyEpoch hcounters⟩

/-- The second half numbers the policy steps. -/
theorem numbers_of_policyHalf {value : EpochSummary α ρ} {losses : AgentEpoch α ρ}
    (h : (policyHalf value).run half = (.ok losses, after)) :
    (trainedRecords half).map StepRecord.epoch =
        List.replicate half.config.policySteps half.policy.epoch ∧
      losses.value = value ∧
      losses.policy =
        .ofRecords losses.policy.learner (half.policy.epoch + 1) (trainedRecords half) ∧
      after.value.epoch = half.value.epoch ∧ after.policy.epoch = half.policy.epoch + 1 := by
  have hcounters := counters_policyHalf half value
  have hcounters' := counters_trainPolicy half
  obtain ⟨policy, trained, htrain, hrest⟩ := Action.run_bind_eq_ok.mp h
  obtain ⟨_, shared, _, hconclude⟩ := Action.run_bind_eq_ok.mp hrest
  obtain ⟨hvalue, hpolicy, _⟩ := of_conclude hconclude
  rw [htrain, (epoch_of_trainPolicy htrain).1] at hcounters'
  rw [h, htrain, hcounters'] at hcounters
  obtain ⟨_, hepoch, _⟩ := run_trainPolicy_eq_ok.mp htrain
  obtain ⟨hrecords, hsummary⟩ := Training.numbers_of_trainEpoch hepoch
  rw [← hpolicy] at hsummary
  exact ⟨hrecords, hvalue, hsummary, congrArg Counters.valueEpoch hcounters,
    congrArg Counters.policyEpoch hcounters⟩

end

section

variable {agent after : Agent α ρ (Task.Recorded τ)} {config : Config α ρ} {number : Nat}

/-- An epoch that succeeds leaves all counts one further, and its report has the count from before
and the one from after it. -/
theorem InStep.trainEpoch (h : agent.InStep config number) {losses : AgentEpoch α ρ}
    (hrun : trainEpoch.run agent = (.ok losses, after)) :
    after.InStep config (number + 1) ∧
      ∀ inRun, (reportOf inRun agent).Numbered config number (number + 1) := by
  have hcounts := counts_trainEpoch agent
  have hsetup := (kept_sameSetup agent).trainEpoch.of_run_eq (.refl agent) hrun
  have hparts := hrun
  rw [hrun] at hcounts
  cases hcounts with
  | done hlosses hafter =>
      rw [trainEpoch_eq] at hparts
      obtain ⟨value, half, hhalf, hrest⟩ := Action.run_bind_eq_ok.mp hparts
      obtain ⟨hvalues, hvalue, hconfig, hcount, hkept⟩ := numbers_of_valueHalf hhalf
      obtain ⟨hpolicies, hsame, hpolicy, hkept', hcount'⟩ := numbers_of_policyHalf hrest
      have hrecords : policyRecords agent = trainedRecords half := by
        rw [policyRecords, hhalf]
      rw [h.config_eq, h.valueEpoch] at hvalues
      rw [hconfig, h.config_eq, hkept, h.policyEpoch] at hpolicies
      rw [h.valueEpoch] at hvalue hcount
      rw [hkept, h.policyEpoch] at hpolicy hcount'
      rw [← hrecords] at hpolicies hpolicy
      rw [h.epoch_eq] at hlosses hafter
      refine ⟨⟨hsetup.config.trans h.config_eq, hafter, hkept'.trans hcount, hcount'⟩, ?_⟩
      intro inRun
      have houtcome : (reportOf inRun agent).attempt.outcome = .ok losses := by
        rw [reportOf, hrun]
      refine ⟨hvalues, hpolicies, ⟨losses, houtcome, hlosses, ?_, hpolicy⟩, ?_⟩
      · rw [hsame]
        exact hvalue
      · intro htold
        rw [Attempt.told?, if_pos htold, Attempt.epoch?, houtcome]
        exact congrArg some hlosses

/-- As long as all epochs have succeeded the agent has counted them, and they are numbered from zero
on. -/
def Numbers (config : Config α ρ) (agent : Agent α ρ (Task.Recorded τ))
    (reports : List (Report α ρ)) : Prop :=
  (∀ report ∈ reports, report.attempt.outcome.isOk = true) →
    agent.InStep config reports.length ∧
      ∀ (i : Nat) (report : Report α ρ), reports[i]? = some report →
        report.Numbered config i (i + 1)

/-- One more epoch gets the next number. -/
theorem Numbers.concat {reports : List (Report α ρ)} (h : Numbers config agent reports)
    (inRun : Bool) (hcounters : after.counters = (trainEpoch.run agent).2.counters)
    (hconfig : after.config = (trainEpoch.run agent).2.config) :
    Numbers config after (reports ++ [reportOf inRun agent]) := by
  intro hok
  obtain ⟨hbefore, hnumbered⟩ := h fun report hreport => hok report (List.mem_append_left _ hreport)
  have hlast : (trainEpoch.run agent).1.isOk = true :=
    hok _ (List.mem_append_right _ List.mem_cons_self)
  obtain ⟨losses, hlosses⟩ := exists_of_isOk hlast
  obtain ⟨hstep, hreport⟩ := hbefore.trainEpoch (Prod.ext hlosses rfl)
  rw [List.length_append, List.length_singleton]
  refine ⟨hstep.of_counters hcounters hconfig, ?_⟩
  intro i report hi
  rw [List.getElem?_append] at hi
  split at hi
  · exact hnumbered i report hi
  · next hge =>
      obtain ⟨hlt, rfl⟩ := List.getElem?_eq_some_iff.mp hi
      rw [List.length_singleton] at hlt
      obtain rfl : i = reports.length := by omega
      rw [List.getElem_singleton]
      exact hreport inRun

theorem numbers_reportedIn {first : Agent α ρ (Task.Recorded τ)} (h : first.InStep config 0)
    (rounds : List Round) :
    Numbers config (afterRounds rounds first) (reportedIn rounds first) := by
  have hfirst : Numbers config first [] := fun _ => ⟨h, fun _ _ hnone => nomatch hnone⟩
  refine along_notedInRounds (Numbers config) ?_ ?_ rounds hfirst
  · exact fun agent reports hreports => hreports.concat false rfl rfl
  · intro agent reports hreports
    have hsetup := (kept_sameSetup agent).trainEpoch agent (.refl agent)
    have hsetup' := (kept_sameSetup agent).runEpoch agent (.refl agent)
    exact hreports.concat true (counters_runEpoch agent)
      (hsetup'.config.trans hsetup.config.symm)

/-- The tables show the rows of all epochs, and if the last epoch has succeeded, then the rows are
in the files. -/
def Rowed (tables : Tables) (agent : Agent α ρ (Task.Recorded τ))
    (reports : List (Report α ρ)) : Prop :=
  agent.Tabled tables (reports.flatMap Report.values) (reports.flatMap Report.policies) ∧
    ∀ report, reports.getLast? = some report → report.attempt.outcome.isOk = true →
      tables.Written (reports.flatMap Report.values) (reports.flatMap Report.policies)
        agent.journal.files

theorem Rowed.concat {tables : Tables} {reports : List (Report α ρ)}
    (h : Rowed tables agent reports) (inRun : Bool)
    (hafter : (trainEpoch.run agent).2.SameOutput after) :
    Rowed tables after (reports ++ [reportOf inRun agent]) := by
  rw [Rowed, List.flatMap_append, List.flatMap_append, List.flatMap_singleton,
    List.flatMap_singleton]
  refine ⟨h.1.trainEpoch.of_sameOutput hafter, ?_⟩
  intro report hlast hok
  rw [List.getLast?_concat] at hlast
  cases hlast
  obtain ⟨losses, hlosses⟩ := exists_of_isOk hok
  rw [hafter.files]
  exact h.1.written (Prod.ext hlosses rfl)

end

section

variable {task : Task α τ} {valueModel evaluationModel : Outcome (Model α)}
variable {policyModel : Model α} {algorithm : Algorithm α} {config : Config α ρ}
variable {site site' : Site α ρ (Task.Recorded τ)} {first : Agent α ρ (Task.Recorded τ)}

omit [Shown α] [Narrows ρ α] in
/-- An agent that has just been built has counted nothing. -/
theorem inStep_of_construct
    (hbuilt : (construct task.recorded valueModel evaluationModel policyModel algorithm config).run
      site = (.ok first, site')) : first.InStep config 0 := by
  have hfirst := built_of_construct hbuilt
  exact ⟨hfirst.config_eq, (of_construct hbuilt).1, hfirst.value.epoch, hfirst.policy.epoch⟩

/-- The tables of such an agent show the rows of the epochs that come. -/
theorem rowed_reportedIn {dir : String} (hdir : config.outputDir = some dir)
    (hbuilt : (construct task.recorded valueModel evaluationModel policyModel algorithm config).run
      site = (.ok first, site')) (rounds : List Round) :
    Rowed (.inDirectory dir site.journal.files) (afterRounds rounds first)
      (reportedIn rounds first) := by
  have hfirst : Rowed (.inDirectory dir site.journal.files) first [] :=
    ⟨tabled_of_construct hdir hbuilt, fun _ hnone => nomatch hnone⟩
  refine along_notedInRounds (Rowed _) ?_ ?_ rounds hfirst
  · exact fun agent reports hreports => hreports.concat false ⟨rfl, rfl, rfl⟩
  · exact fun agent reports hreports => hreports.concat true (sameOutput_runEpoch agent)

/-- In whatever rounds an agent is asked for epochs, as long as all of them succeed: the report of
each epoch has its number, counted from zero, in the records of all its steps, in its losses and in
what the task is told, and the number of the next epoch in the summaries of both learners.  The
calls to the task are those of the reports.  With an output directory, there is a row for each
record in the metrics files of the learners. -/
theorem epochs_numbered
    (hbuilt : (construct task.recorded valueModel evaluationModel policyModel algorithm config).run
      site = (.ok first, site')) (rounds : List Round)
    (hok : ∀ attempt ∈ triedIn rounds first, attempt.outcome.isOk = true) :
    (reportedIn rounds first).map Report.attempt = triedIn rounds first ∧
    (∀ (i : Nat) (report : Report α ρ), (reportedIn rounds first)[i]? = some report →
      report.Numbered config i (i + 1)) ∧
    (afterRounds rounds first).taskState.calls =
      first.taskState.calls ++ (triedIn rounds first).flatMap Attempt.calls ∧
    (∀ n history last, (run n).run first = (.ok history, last) →
      (triedIn [.run n] first).map Attempt.outcome = history.map .ok) ∧
    ∀ dir, config.outputDir = some dir → triedIn rounds first ≠ [] →
      (Tables.inDirectory dir site.journal.files).Written
        ((reportedIn rounds first).flatMap Report.values)
        ((reportedIn rounds first).flatMap Report.policies)
        (afterRounds rounds first).journal.files := by
  have hattempts := attempts_of_reportedIn rounds first
  have hsucceed : ∀ report ∈ reportedIn rounds first, report.attempt.outcome.isOk = true := by
    intro report hreport
    exact hok _ (hattempts ▸ List.mem_map_of_mem hreport)
  refine ⟨hattempts, (numbers_reportedIn (inStep_of_construct hbuilt) rounds hsucceed).2,
    (tried_rounds (built_of_construct hbuilt).task_eq rounds).calls, ?_, ?_⟩
  · intro n history last hrun
    rw [triedIn, triedIn, List.append_nil]
    exact (outcomes_of_run hrun).1
  · intro dir hdir hsome
    rw [← hattempts, ne_eq, List.map_eq_nil_iff] at hsome
    have hlast := List.getLast?_eq_some_getLast hsome
    exact (rowed_reportedIn hdir hbuilt rounds).2 _ hlast (hsucceed _ (List.getLast_mem hsome))

end

namespace Line

/-- As above, with an output directory. -/
def configSteady : Config Float32 Float :=
  { config with outputDir := some "out" }

/-- Build an agent with a task that always gives the same batches. -/
def buildSteady : Action (Site Float32 Float (Task.Recorded Nat))
    (Agent Float32 Float (Task.Recorded Nat)) :=
  construct (constant (moment 2 1) (moment 1 0.5)).recorded (.ok (bent 0.5 1)) (.ok (bent 0.5 1))
    (bent 0.25 2) (.a2c (.gaussian 1 0.5)) configSteady

def siteSteady : Site Float32 Float (Task.Recorded Nat) :=
  ⟨⟨0, []⟩, .start .empty⟩

/-- The numbers of an epoch that has succeeded: its own, and those of its summaries. -/
def numbersOf (attempt : Attempt Float32 Float) : Option (Nat × Nat × Nat) :=
  attempt.outcome.toOption.map fun losses =>
    (losses.epoch, losses.value.epoch, losses.policy.epoch)

/-- Whether all epochs of an epoch and a run of two succeed, and their numbers. -/
def numbered : Action (Site Float32 Float (Task.Recorded Nat))
    (Bool × List (Option (Nat × Nat × Nat))) := do
  let first ← buildSteady
  let attempts := triedIn rounds first
  return (attempts.all fun attempt => attempt.outcome.isOk, attempts.map numbersOf)

theorem exists_steady : ∃ first here, buildSteady.run siteSteady = (.ok first, here) ∧
    (∀ attempt ∈ triedIn rounds first, attempt.outcome.isOk = true) ∧
      (triedIn rounds first).map numbersOf = [some (0, 1, 1), some (1, 2, 2), some (2, 3, 3)] := by
  have hnumbered : (numbered.run siteSteady).1 =
      .ok (true, [some (0, 1, 1), some (1, 2, 2), some (2, 3, 3)]) := by
    -- The names of a location are found by a recursion that does not compute.
    simp only [numbered, buildSteady, configSteady, construct, complete, withMetrics,
      Learner.withOutputDir, Files.createDirectories, Table.create, Files.locate, Files.names_eq,
      Files.isLocation, String.contains_char_eq, Option.map_some]
    decide +kernel
  obtain ⟨first, here, hbuilt, hlast⟩ := Action.run_bind_eq_ok.mp (Prod.ext hnumbered rfl)
  obtain ⟨hok, hnumbers⟩ := Prod.ext_iff.mp (Except.ok.inj (congrArg Prod.fst hlast))
  exact ⟨first, here, hbuilt, List.all_eq_true.mp hok, hnumbers⟩

/-- The reports of three epochs, and the metrics files after them. -/
theorem epochs_numbered_steady : ∃ first, (buildSteady.run siteSteady).1 = .ok first ∧
    (reportedIn rounds first).length = 3 ∧
    (∀ (i : Nat) (report : Report Float32 Float), (reportedIn rounds first)[i]? = some report →
      report.Numbered configSteady i (i + 1)) ∧
    (Tables.inDirectory "out" .empty).Written ((reportedIn rounds first).flatMap Report.values)
      ((reportedIn rounds first).flatMap Report.policies)
      (afterRounds rounds first).journal.files := by
  obtain ⟨first, here, hbuilt, hok, hnumbers⟩ := exists_steady
  have hlength := congrArg List.length hnumbers
  obtain ⟨hattempts, hreports, _, _, hfiles⟩ := epochs_numbered hbuilt rounds hok
  rw [← hattempts, List.length_map, List.length_map] at hlength
  refine ⟨first, congrArg Prod.fst hbuilt, hlength, hreports, hfiles "out" rfl ?_⟩
  intro hnone
  rw [hnone] at hnumbers
  cases hnumbers

/-- The reports of these epochs have more than one number each. -/
theorem not_numbered_steady : ∃ first, (buildSteady.run siteSteady).1 = .ok first ∧
    (∀ attempt ∈ triedIn rounds first, attempt.outcome.isOk = true) ∧
    (reportedIn rounds first).length = 3 ∧
    ∀ report ∈ reportedIn rounds first, ∀ number, ¬ report.Numbered configSteady number number := by
  obtain ⟨first, here, hbuilt, hok, hnumbers⟩ := exists_steady
  have hlength := congrArg List.length hnumbers
  rw [← attempts_of_reportedIn, List.length_map, List.length_map] at hlength
  refine ⟨first, congrArg Prod.fst hbuilt, hok, hlength, ?_⟩
  intro report hreport number hnumber
  obtain ⟨losses, houtcome, hlosses, hvalue, _⟩ := hnumber.outcome
  have hepoch : losses.value.epoch = number := by
    rw [hvalue]
    rfl
  have hdiffer : ∀ numbers ∈ [some (0, 1, 1), some (1, 2, 2), some (2, 3, 3)],
      numbers.all (fun entry => entry.1 != entry.2.1) = true := by decide
  have hmember : report.attempt ∈ triedIn rounds first := by
    rw [← attempts_of_reportedIn]
    exact List.mem_map_of_mem hreport
  have hpair := hdiffer _ (hnumbers ▸ List.mem_map_of_mem hmember)
  rw [numbersOf, houtcome] at hpair
  exact bne_iff_ne.mp hpair (hlosses.trans hepoch.symm)

end Line

end Agent

end PolicyGradient
