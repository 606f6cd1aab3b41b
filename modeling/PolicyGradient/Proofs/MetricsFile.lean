import PolicyGradient.Proofs.Gradients
import PolicyGradient.Proofs.Locations
import PolicyGradient.Proofs.Portions
import PolicyGradient.Proofs.RowText

/-!
The metrics file over all learners that write to it.

A table that is the last of a learner's loggers shows one row for each step that succeeds, whatever
else fails (`Training.Keeps.answer`).  What it shows is in its file after an epoch that succeeds
(`Training.Keeps.content_of_trainEpoch`) and when the learner is given up.  So a file that learners
write to one after the other has its first content and then the rows of all their steps
(`Lifetimes.metrics_exact`).
-/

namespace PolicyGradient

open Outcome
open Decimal (Shown)

variable {α ρ β σ : Type}

namespace Table

/-- What a table starts from: the text of its file, or the header if there is none. -/
def opening (text : String) : String :=
  if text = "" then header ++ "\n" else text

/-- A table that is opened shows the text of its file, and a header if there is none. -/
theorem of_create {files files' : Files} {location : String} {table : Table}
    (h : create files location = .ok (table, files')) :
    table.path = Files.destination location ∧ table.path.all (· == "..") = false ∧
      table.shown files' = opening (files.content table.path) := by
  obtain ⟨path, hpath, hlast⟩ := bind_eq_ok.mp h
  cases hlast
  obtain ⟨hdestination, hbelow, _⟩ := Files.of_locate hpath
  refine ⟨hdestination, hbelow, ?_⟩
  rw [shown, opening, Files.content_append _ _ hbelow, String.append_empty]
  dsimp only
  split
  · next hempty => rw [hempty, String.empty_append]
  · rw [String.append_empty]

/-- A table that is opened leaves all other files alone. -/
theorem content_of_create {files files' : Files} {location : String} {table : Table}
    (h : create files location = .ok (table, files')) {other : Path} (hother : other ≠ table.path) :
    files'.content other = files.content other := by
  obtain ⟨path, _, hlast⟩ := bind_eq_ok.mp h
  cases hlast
  exact Files.content_append_of_ne files "" hother

theorem opening_ne_empty (text : String) : opening text ≠ "" := by
  rw [opening]
  split
  · decide
  · assumption

/-- A table that goes on where one was opened before has no second header. -/
theorem opening_append (text rest : String) :
    opening (opening text ++ rest) = opening text ++ rest := by
  have hgiven : opening text ++ rest ≠ "" := by
    intro hempty
    exact opening_ne_empty text (String.append_eq_empty_iff.mp hempty).1
  rw [opening, if_neg hgiven]

end Table

/-- A logger that is apart from a file leaves it alone when it writes out what it holds back. -/
theorem Logger.Apart.flush {path : Path} {logger : Logger} (h : logger.Apart path)
    (files : Files) : (logger.flush files).1.Apart path ∧
      (logger.flush files).2.content path = files.content path := by
  cases logger with
  | console interval last => exact ⟨trivial, rfl⟩
  | table t => exact ⟨h, Files.content_append_of_ne files t.held (Ne.symm h)⟩

namespace Loggers

/-- The last of the loggers is a table with a file to itself, and this is what it shows. -/
structure Writes (loggers : List Logger) (files : Files) (path : Path) (text : String) :
    Prop where
  isBelow : path.all (· == "..") = false
  exists_table : ∃ before table, loggers = before ++ [.table table] ∧
    (∀ logger ∈ before, logger.Apart path) ∧ table.path = path ∧ table.shown files = text

variable {path : Path} {text : String} {files : Files} {loggers : List Logger}

/-- A step adds its row if it is noted by all loggers, and nothing otherwise. -/
theorem Writes.step [Shown α] [Shown ρ] (h : Writes loggers files path text)
    (record : StepRecord α ρ) {outcome : Outcome Unit} {last : List Logger} {files' : Files}
    {lines : List (Line α ρ)} (hstep : step record files loggers = (outcome, last, files', lines)) :
    Writes last files' path (if outcome.isOk then text ++ Table.row record else text) := by
  obtain ⟨hbelow, before, table, rfl, hapart, hpath, htext⟩ := h
  refine ⟨hbelow, ?_⟩
  induction before generalizing files last lines with
  | nil =>
      have hown : (Logger.table table).step record files = .ok (.table (table.step record files).1,
          (table.step record files).2, ([] : List (Line α ρ))) :=
        Logger.step_table_eq_ok.mpr ⟨rfl, rfl, rfl⟩
      rw [List.nil_append, Loggers.step, hown] at hstep
      cases hstep
      have hrow := Table.shown_step record table files (by rw [hpath]; exact hbelow)
      refine ⟨[], _, rfl, hapart, (Table.path_step record table files).trans hpath, ?_⟩
      rw [htext] at hrow
      exact hrow
  | cons logger before ih =>
      rw [List.cons_append, Loggers.step] at hstep
      cases hfirst : logger.step record files with
      | error e =>
          rw [hfirst] at hstep
          cases hstep
          exact ⟨logger :: before, table, rfl, hapart, hpath, htext⟩
      | ok stepped =>
          obtain ⟨logger', between, lines'⟩ := stepped
          obtain ⟨hlogger, hcontent⟩ := (hapart logger List.mem_cons_self).step hfirst
          have hbetween : table.shown between = text :=
            (Table.shown_congr hpath hcontent).trans htext
          rcases hrest : Loggers.step record between (before ++ [.table table]) with
            ⟨outcome', last', files'', others⟩
          rw [hfirst] at hstep
          dsimp only at hstep
          rw [hrest] at hstep
          cases hstep
          obtain ⟨before', table', rfl, hapart', hpath', htext'⟩ :=
            ih hrest (fun other hother => hapart other (.tail _ hother)) hbetween
          refine ⟨logger' :: before', table', rfl, ?_, hpath', htext'⟩
          exact List.forall_mem_cons.mpr ⟨hlogger, hapart'⟩

/-- What is shown is in the file after everything has been written out. -/
theorem Writes.flush (h : Writes loggers files path text) :
    Writes (Loggers.flush files loggers).1 (Loggers.flush files loggers).2 path text ∧
      (Loggers.flush files loggers).2.content path = text := by
  obtain ⟨hbelow, before, table, rfl, hapart, hpath, htext⟩ := h
  induction before generalizing files with
  | nil =>
      have hcontent : (files.append table.path table.held).content table.path = text := by
        rw [Files.content_append _ _ (by rw [hpath]; exact hbelow)]
        exact htext
      have hlast : (Loggers.flush files [.table table]) =
        ([.table { table with held := "" }], files.append table.path table.held) := rfl
      rw [List.nil_append, hlast]
      refine ⟨⟨hbelow, [], _, rfl, hapart, hpath, ?_⟩, ?_⟩
      · rw [Table.shown, String.append_empty]
        exact hcontent
      · rw [← hpath]
        exact hcontent
  | cons logger before ih =>
      obtain ⟨hlogger, hcontent⟩ := (hapart logger List.mem_cons_self).flush files
      have hbetween : table.shown (logger.flush files).2 = text :=
        (Table.shown_congr hpath hcontent).trans htext
      obtain ⟨⟨_, before', table', hloggers, hapart', hpath', htext'⟩, hlast⟩ :=
        ih (fun other hother => hapart other (.tail _ hother)) hbetween
      refine ⟨⟨hbelow, (logger.flush files).1 :: before', table', ?_, ?_, hpath', htext'⟩, hlast⟩
      · exact congrArg _ hloggers
      · exact List.forall_mem_cons.mpr ⟨hlogger, hapart'⟩

end Loggers

namespace Table

variable [Shown α] [Shown ρ]

/-- One row for each step, in order. -/
def rows (records : List (StepRecord α ρ)) : String :=
  String.join (records.map fun record => ",".intercalate (columns record) ++ "\n")

theorem rows_append (records others : List (StepRecord α ρ)) :
    rows (records ++ others) = rows records ++ rows others := by
  rw [rows, List.map_append, String.join_append]
  rfl

theorem rows_singleton (record : StepRecord α ρ) : rows [record] = row record := by
  rw [rows, List.map_singleton, String.join_cons, String.join_nil, String.append_empty, row_eq]

end Table

namespace Training

variable [Shown α] [Shown ρ]

/-- The learner's table shows a text and then the rows of these steps. -/
def Keeps (path : Path) (first : String) (t : Training α ρ β σ)
    (records : List (StepRecord α ρ)) : Prop :=
  Loggers.Writes t.learner.loggers t.journal.files path (first ++ Table.rows records)

variable {path : Path} {first : String} {t u : Training α ρ β σ}
variable {records : List (StepRecord α ρ)} [Scalar α]

/-- A record that is put down adds its row, unless a logger fails before the table. -/
theorem Keeps.report (h : Keeps path first t records) (record : StepRecord α ρ) :
    Keeps path first ((Training.report record).run t).2
      (if ((Training.report record).run t).1.isOk then records ++ [record] else records) := by
  have hstep := Loggers.Writes.step h record rfl
  rw [String.append_assoc, ← Table.rows_singleton, ← Table.rows_append, ← apply_ite (first ++ ·),
    ← apply_ite Table.rows] at hstep
  exact hstep

variable [Scalar ρ] [Narrows ρ α]

/-- A step that succeeds adds its row, and one that fails adds none. -/
theorem Keeps.trainStep (h : Keeps path first t records) (feed : Feed σ β) :
    Keeps path first ((Training.trainStep feed).run t).2 (records ++ madeInStep feed t) := by
  rw [madeInStep, run_trainStep, run_nextBatch_eq]
  cases (feed.next (t.start feed).source).1.getD (failWith (.exhausted t.learner.name)) with
  | error e =>
      rw [List.append_nil]
      exact h
  | ok batch =>
      dsimp only
      cases hupdate : Learner.update { t.learner with started := true } batch with
      | error e =>
          rw [List.append_nil]
          exact h
      | ok updated =>
          obtain ⟨learner, record⟩ := updated
          obtain ⟨_, _, _, _, _, hframe, _⟩ := Learner.of_update hupdate
          have hdrawn : Keeps path first { t with
              learner := learner, source := (feed.next (t.start feed).source).2 } records := by
            rw [Keeps, hframe]
            exact h
          have hlast := hdrawn.report record
          dsimp only
          rw [Action.run_bind_pure]
          rcases hrun : (Training.report record).run { t with
              learner := learner, source := (feed.next (t.start feed).source).2 } with ⟨e | _, u⟩
          · rw [hrun] at hlast
            show Keeps path first u (records ++ [])
            rw [List.append_nil]
            exact hlast
          · rw [hrun] at hlast
            exact hlast

/-- The steps of a group add their rows. -/
theorem Keeps.trainGroup (h : Keeps path first t records) (feed : Feed σ β) (n : Nat) :
    Keeps path first ((Training.trainGroup feed n).run t).2 (records ++ madeInGroup feed n t) := by
  have hsteps := Action.along_noted (Keeps path first) (fun _ _ ht => ht.trainStep feed) n h
  rw [Training.trainGroup, Action.run_bind, madeInGroup]
  rcases hrun : (Action.replicate n (Training.trainStep feed)).run t with ⟨e | made, s⟩
  · rw [hrun] at hsteps
    exact hsteps
  · rw [hrun] at hsteps
    dsimp only
    rw [Action.state_bind_pure, advanceEpoch, Action.run_bind, Action.run_get]
    dsimp only
    rw [Action.run_lift_bind]
    cases Size.add s.learner.epoch 1 with
    | error e => exact hsteps
    | ok epoch => exact hsteps

omit [Narrows ρ α] in
/-- To sum up is to write out everything that is shown. -/
theorem Keeps.conclude (h : Keeps path first t records) (made : List (StepRecord α ρ)) :
    Keeps path first ((Training.conclude made).run t).2 records ∧
      ((Training.conclude made).run t).2.journal.files.content path =
        first ++ Table.rows records :=
  Loggers.Writes.flush h

/-- The steps of a portion add their rows, however it ends. -/
theorem Keeps.answer (h : Keeps path first t records) (feed : Feed σ β) (portion : Portion) :
    Keeps path first ((Training.answer feed portion).run t).2 (records ++ made feed portion t) := by
  cases portion with
  | step =>
      rw [Training.answer, Action.state_bind_pure]
      exact h.trainStep feed
  | epochs n k =>
      rw [Training.answer, Action.state_bind_pure, trainEpoch, Action.run_lift_bind, made]
      cases (do Size.allocate (← Size.mul n k) recordWidth : Outcome Unit) with
      | error e =>
          rw [List.append_nil]
          exact h
      | ok _ =>
          have hgroups :=
            Action.along_noted (Keeps path first) (fun _ _ ht => ht.trainGroup feed n) k h
          dsimp only
          rw [Action.run_bind]
          rcases hrun : (Action.replicate k (Training.trainGroup feed n)).run t with
            ⟨e | groups, s⟩
          · rw [hrun] at hgroups
            exact hgroups
          · rw [hrun] at hgroups
            exact (hgroups.conclude groups.flatten).1

/-- So do the steps of portions that are asked for one after the other. -/
theorem Keeps.answers (h : Keeps path first t records) (feed : Feed σ β)
    (portions : List Portion) :
    Keeps path first (afterPortions feed portions t) (records ++ madeIn feed portions t) := by
  induction portions generalizing t records with
  | nil =>
      rw [madeIn, List.append_nil]
      exact h
  | cons portion portions ih =>
      rw [madeIn, ← List.append_assoc]
      exact ih (h.answer feed portion)

/-- After epochs that succeed, the rows of their steps are in the file. -/
theorem Keeps.content_of_trainEpoch (h : Keeps path first t records) {feed : Feed σ β} {n k : Nat}
    {summary : EpochSummary α ρ} (hrun : (trainEpoch feed n k).run t = (.ok summary, u)) :
    u.journal.files.content path =
      first ++ Table.rows (records ++ made feed (.epochs n k) t) := by
  obtain ⟨groups, s, hgroups, hconclude, hmade⟩ := groups_of_trainEpoch hrun
  have hkeeps := Action.along_noted (Keeps path first) (fun _ _ ht => ht.trainGroup feed n) k h
  rw [hgroups, Action.noted_of_replicate (fun _ _ _ => madeInGroup_of_ok) hgroups,
    List.flatMap_id', ← hmade] at hkeeps
  have hlast := (hkeeps.conclude (made feed (.epochs n k) t)).2
  rw [hconclude] at hlast
  exact hlast

end Training

/-- The metrics file of a directory. -/
def metricsPath (dir : String) : Path :=
  Files.destination (Learner.inside dir Learner.metricsFile)

/-- A learner that is given a directory opens a table in it. -/
theorem Learner.table_of_withOutputDir {learner learner' : Learner α ρ β} {dir : String}
    {files files' : Files} (h : (learner.withOutputDir dir).run files = (.ok learner', files')) :
    ∃ table, Table.create (files.createDirectories dir).2 (inside dir metricsFile) =
        .ok (table, files') ∧
      learner' = { learner with
        outputDir := some dir, loggers := learner.loggers ++ [.table table] } := by
  rw [withOutputDir] at h
  obtain ⟨_, created, hcreate, h⟩ := Action.run_bind_eq_ok.mp h
  obtain ⟨_, _, hget, h⟩ := Action.run_bind_eq_ok.mp h
  cases hget
  obtain ⟨⟨table, _⟩, htable, h⟩ := Action.run_lift_bind_eq_ok.mp h
  obtain ⟨_, _, hset, hlast⟩ := Action.run_bind_eq_ok.mp h
  cases hset
  cases hlast
  have hcreated : created = (files.createDirectories dir).2 := (congrArg Prod.snd hcreate).symm
  exact ⟨table, hcreated ▸ htable, rfl⟩

namespace Training

/-- A learner that has just been given a directory for its metrics.  No other logger of it writes to
the metrics file. -/
def Opens (dir : String) (files : Files) (t : Training α ρ β σ) : Prop :=
  ∃ learner : Learner α ρ β, (∀ logger ∈ learner.loggers, logger.Apart (metricsPath dir)) ∧
    (learner.withOutputDir dir).run files = (.ok t.learner, t.journal.files)

/-- The files after the learner has been given up. -/
def closed (t : Training α ρ β σ) : Files :=
  t.learner.close t.journal.files

/-- A learner that is given a directory takes over its metrics file. -/
theorem keeps_of_opens [Shown α] [Shown ρ] {dir : String} {files : Files} {t : Training α ρ β σ}
    (h : t.Opens dir files) :
    Keeps (metricsPath dir) (Table.opening (files.content (metricsPath dir))) t [] := by
  obtain ⟨learner, hothers, hrun⟩ := h
  obtain ⟨table, htable, hlearner⟩ := Learner.table_of_withOutputDir hrun
  obtain ⟨hpath, hbelow, hshown⟩ := Table.of_create htable
  have hfirst : table.path = metricsPath dir := hpath
  rw [Files.content_createDirectories, hfirst] at hshown
  rw [Keeps, hlearner]
  refine ⟨hfirst ▸ hbelow, learner.loggers, table, rfl, hothers, hfirst, ?_⟩
  rw [hshown]
  exact String.append_empty.symm

end Training

/-- Learners that write to the metrics file of a directory, one after the other.  Each of them is
given the directory, asked for some portions and given up, and has the records of its steps. -/
inductive Lifetimes [Scalar α] [Scalar ρ] [Shown α] [Shown ρ] [Narrows ρ α] (dir : String)
    (files : Files) : List (List (StepRecord α ρ)) → Files → Prop
  | none : Lifetimes dir files [] files
  | life {lives : List (List (StepRecord α ρ))} {between : Files}
      (h : Lifetimes dir files lives between) {β σ : Type} {t : Training α ρ β σ}
      (hopens : t.Opens dir between) (feed : Feed σ β) (portions : List Training.Portion) :
      Lifetimes dir files (lives ++ [Training.madeIn feed portions t])
        (Training.afterPortions feed portions t).closed

namespace Lifetimes

variable [Scalar α] [Scalar ρ] [Shown α] [Shown ρ] [Narrows ρ α]
variable {dir : String} {files last : Files} {lives : List (List (StepRecord α ρ))}

/-- A learner that comes next goes on behind the rows of those before it. -/
theorem opening_eq (h : Lifetimes dir files lives last) :
    Table.opening (last.content (metricsPath dir)) =
        Table.opening (files.content (metricsPath dir)) ++ Table.rows lives.flatten ∧
      (lives ≠ [] → last.content (metricsPath dir) =
        Table.opening (files.content (metricsPath dir)) ++ Table.rows lives.flatten) := by
  induction h with
  | none => exact ⟨String.append_empty.symm, fun hnone => absurd rfl hnone⟩
  | @life lives between _ _ _ t hopens feed portions ih =>
      have hcontent : (Training.afterPortions feed portions t).closed.content (metricsPath dir) =
          Table.opening (files.content (metricsPath dir)) ++
            Table.rows (lives ++ [Training.madeIn feed portions t]).flatten := by
        have hlast := (((Training.keeps_of_opens hopens).answers feed portions).flush).2
        rw [List.nil_append, ih.1, String.append_assoc, ← Table.rows_append] at hlast
        rw [List.flatten_append, List.flatten_singleton]
        exact hlast
      refine ⟨?_, fun _ => hcontent⟩
      rw [hcontent, Table.opening_append]

/-- What learners with the same output directory leave in its metrics file, one after the other:
the text that was there before, or a header if there was none, and then one row for each step that
has succeeded, in order.  A learner that is at work has its rows in the file after each of its
epochs that succeeds. -/
theorem metrics_exact (h : Lifetimes dir files lives last) :
    (lives ≠ [] → last.content (metricsPath dir) =
      Table.opening (files.content (metricsPath dir)) ++ Table.rows lives.flatten) ∧
    ∀ {β σ : Type} (t : Training α ρ β σ), t.Opens dir last →
      ∀ (feed : Feed σ β) (portions : List Training.Portion) (n k : Nat)
        (summary : EpochSummary α ρ) (u : Training α ρ β σ),
        (Training.trainEpoch feed n k).run (Training.afterPortions feed portions t) =
          (.ok summary, u) →
        u.journal.files.content (metricsPath dir) =
          Table.opening (files.content (metricsPath dir)) ++
            Table.rows (lives.flatten ++ (Training.madeIn feed portions t ++
              Training.made feed (.epochs n k) (Training.afterPortions feed portions t))) := by
  refine ⟨h.opening_eq.2, ?_⟩
  intro β σ t hopens feed portions n k summary u hrun
  have hkeeps := (Training.keeps_of_opens hopens).answers feed portions
  rw [hkeeps.content_of_trainEpoch hrun, h.opening_eq.1, List.nil_append, String.append_assoc,
    ← Table.rows_append]

namespace Line

/-- The objective whose batches are its losses, and which no weight has an influence on. -/
def plain : Objective Float32 Float32 where
  loss _ batch := .ok batch
  gradients _ _ := .ok []

/-- A learner that writes its metrics to a directory that exists. -/
def opened (files : Files) : Training Float32 Float Float32 (Feed.Listed Float32) where
  learner := { Learner.ofModel "value" (Perceptron.line 7 0.25) plain (.constant 0.5) with
    outputDir := some "out"
    loggers := [.standard, .table ⟨["out", "metrics.csv"],
      if files.content ["out", "metrics.csv"] = "" then Table.header ++ "\n" else ""⟩] }
  source := .unopened
  journal := .start (files.append ["out", "metrics.csv"] "")

theorem inside_out : Learner.inside "out" Learner.metricsFile = "out/metrics.csv" := by
  decide +kernel

theorem names_metrics : Files.names "out/metrics.csv" = ["out", "metrics.csv"] :=
  Files.names_of_namesWithin
    (show Files.namesWithin "out/metrics.csv" 16 0 0 0 [] = _ by decide +kernel)

theorem metricsPath_out : metricsPath "out" = ["out", "metrics.csv"] := by
  rw [metricsPath, inside_out, Files.destination, names_metrics]
  rfl

theorem opens_opened {files : Files} (hdir : files.find? ["out"] = some .directory)
    (hfile : files.find? ["out", "metrics.csv"] ≠ some .directory) :
    (opened files).Opens "out" files := by
  have hnames : Files.names "out" = ["out"] :=
    Files.names_of_namesWithin (show Files.namesWithin "out" 4 0 0 0 [] = _ by decide +kernel)
  have hgiven : Files.isLocation "out" = true := by
    rw [Files.isLocation, Bool.and_eq_true]
    exact ⟨by decide, by simp⟩
  have hgiven' : Files.isLocation "out/metrics.csv" = true := by
    rw [Files.isLocation, Bool.and_eq_true]
    exact ⟨by decide, by simp⟩
  have hname : Files.isName "metrics.csv" = true := by decide
  have hcreate : files.createDirectories "out" = (.ok (), files) := by
    rw [Files.createDirectories, if_pos hgiven, hnames, Files.createFrom_cons hdir]
    rfl
  have henter : files.enter [] ["out"] = .ok ["out"] := Files.enter_cons hdir []
  have hparts : Files.names "out/metrics.csv" = ["out"] ++ ["metrics.csv"] := names_metrics
  have hlocate : files.locate "out/metrics.csv" = .ok ["out", "metrics.csv"] :=
    Files.locate_of_enter hparts henter hgiven' hname hfile
  refine ⟨.ofModel "value" (Perceptron.line 7 0.25) plain (.constant 0.5), ?_, ?_⟩
  · intro logger hlogger
    cases List.mem_singleton.mp hlogger
    trivial
  · rw [Learner.withOutputDir, Action.run_bind, Action.run_of, hcreate, inside_out]
    dsimp only
    rw [Action.run_bind, Action.run_get]
    dsimp only
    rw [Action.run_lift_bind, Table.create, hlocate]
    rfl

/-- The feed that fails for its second item. -/
def losses : Feed (Feed.Listed Float32) Float32 :=
  .ofList [.ok 0.5, failWith (.task "no batch"), .ok 0.25] false

/-- A step, an epoch that fails before its first step, and another step. -/
def portions : List Training.Portion :=
  [.step, .epochs 3 1, .step]

/-- The first learner finds the directory empty. -/
def first : Training Float32 Float Float32 (Feed.Listed Float32) :=
  opened ⟨[(["out"], .directory)]⟩

/-- The second learner comes after the first one. -/
def second : Training Float32 Float Float32 (Feed.Listed Float32) :=
  opened (Training.afterPortions losses portions first).closed

/-- The file has a row for each step of two learners, although an epoch of the first one fails. -/
theorem metrics_exact_twoLives :
    ∃ (summary : EpochSummary Float32 Float) (u : Training Float32 Float Float32 _)
      (lives : List (List (StepRecord Float32 Float))),
    (Training.trainEpoch losses 1 1).run second = (.ok summary, u) ∧
      lives.map List.length = [2, 1] ∧
      Lifetimes "out" ⟨[(["out"], .directory)]⟩ lives
        (Training.afterPortions losses [.epochs 1 1] second).closed ∧
      u.journal.files.content (metricsPath "out") =
        Table.header ++ "\n" ++ Table.rows lives.flatten ∧
      (Training.afterPortions losses [.epochs 1 1] second).closed.content (metricsPath "out") =
        Table.header ++ "\n" ++ Table.rows lives.flatten := by
  have hok : ((Training.trainEpoch losses 1 1).run second).1.isOk = true := by decide +kernel
  have hdir : (Training.afterPortions losses portions first).closed.find? ["out"] =
      some .directory := by decide +kernel
  have hfile : (Training.afterPortions losses portions first).closed.find?
      ["out", "metrics.csv"] ≠ some .directory := by decide +kernel
  rcases hrun : (Training.trainEpoch losses 1 1).run second with ⟨outcome, u⟩
  rw [hrun] at hok
  obtain ⟨summary, rfl⟩ := exists_of_isOk hok
  have hfirst : first.Opens "out" ⟨[(["out"], .directory)]⟩ :=
    opens_opened (by decide +kernel) (by decide +kernel)
  have hsecond : second.Opens "out" (Training.afterPortions losses portions first).closed :=
    opens_opened hdir hfile
  have hone := Lifetimes.none.life hfirst losses portions
  have htwo := hone.life hsecond losses [.epochs 1 1]
  have hnow := (metrics_exact hone).2 second hsecond losses [] 1 1 summary u hrun
  have hlast := (metrics_exact htwo).1 (List.cons_ne_nil _ _)
  have hstart : Table.opening (Files.content ⟨[(["out"], .directory)]⟩ (metricsPath "out")) =
      Table.header ++ "\n" := by
    rw [metricsPath_out]
    rfl
  rw [hstart] at hnow hlast
  refine ⟨summary, u, _, rfl, ?_, htwo, ?_, hlast⟩
  · decide +kernel
  · rw [hnow]
    simp only [Training.madeIn, Training.afterPortions, List.nil_append, List.append_nil,
      List.flatten_append, List.flatten_singleton]

end Line

end Lifetimes

end PolicyGradient
