import PolicyGradient.Proofs.Reached

/-!
What training keeps of a learner.

`Learner.Sound` is what restoring a learner's state relies on: identities that differ, gradients and
moments in the shapes of the parameters.  `Learner.Paced` adds that one step number stands for the
times of all parameters.  A console logger whose last line is of a step below `bound` can tell
whether the next line is due (`Reached.ready`).
-/

namespace PolicyGradient

open Outcome
open Decimal (Shown)

variable {α ρ β σ : Type}

namespace Learner

variable [Scalar α] [Scalar ρ] [Narrows ρ α]

/-- Identities differ, and gradients and moments have the shapes of the parameters. -/
structure Sound (learner : Learner α ρ β) : Prop where
  ids : learner.model.DistinctIds
  gradients : learner.objective.Fits learner.model
  moments : learner.optimizer.Fits learner.model

/-- If gradients reach every parameter, the step is the time of every one of them. -/
structure Paced (learner : Learner α ρ β) : Prop where
  sound : learner.Sound
  step : learner.objective.Complete learner.model →
    learner.optimizer.Unused ∨ learner.optimizer.InStep learner.model

omit [Scalar α] in
theorem fits_of_unused {optimizer : Adam α} {model : Model α} (h : optimizer.Unused) :
    optimizer.Fits model := by
  intro params _ param _ moments hmoments
  rw [h.1] at hmoments
  cases hmoments

theorem invariant_distinctIds :
    Invariant fun learner : Learner α ρ β => learner.model.DistinctIds where
  aside _ _ _ h := h
  update := by
    intro learner batch learner' record h hupdate
    obtain ⟨_, _, model, _, hmodel, rfl, _⟩ := of_update hupdate
    rw [Model.DistinctIds, Adam.identities_of_update h hmodel]
    exact h
  setWeights := by
    intro learner weights learner' h hset
    obtain ⟨model, hmodel, rfl⟩ := of_setWeights hset
    rw [Model.DistinctIds, (Model.load_spec hmodel).2.1]
    exact h
  setOptimizerState := by
    intro learner state learner' h hset
    obtain ⟨_, _, rfl⟩ := of_setOptimizerState hset
    exact h

theorem invariant_sound : Invariant fun learner : Learner α ρ β => learner.Sound where
  aside _ _ _ h := ⟨h.ids, h.gradients, h.moments⟩
  update := by
    intro learner batch learner' record h hupdate
    have hids := invariant_distinctIds.update h.ids hupdate
    obtain ⟨gradients, _, _, hgradients, hmodel, rfl, _⟩ := of_update hupdate
    have hfit := h.gradients _ batch gradients ⟨rfl, rfl⟩ hgradients
    obtain ⟨hform, hmoments⟩ := Adam.update_fits h.ids hfit h.moments hmodel
    exact ⟨hids, h.gradients.of_sameForm hform, hmoments⟩
  setWeights := by
    intro learner weights learner' h hset
    have hids := invariant_distinctIds.setWeights h.ids hset
    obtain ⟨_, hmodel, rfl⟩ := of_setWeights hset
    exact ⟨hids, h.gradients.of_sameForm (Model.load_spec hmodel).2.2, h.moments.of_load hmodel⟩
  setOptimizerState := by
    intro learner state learner' h hset
    obtain ⟨_, hstate, rfl⟩ := of_setOptimizerState hset
    exact ⟨h.ids, h.gradients, Adam.fits_of_setState h.ids hstate⟩

/-- The same objective, schedule and settings, and a model of the same form. -/
structure SameTask (learner other : Learner α ρ β) : Prop where
  objective : learner.objective = other.objective
  schedule : learner.schedule = other.schedule
  settings : learner.optimizer.settings = other.optimizer.settings
  form : learner.model.SameForm other.model

/-- No call changes what a learner is to learn. -/
theorem invariant_sameTask (first : Learner α ρ β) :
    Invariant fun learner : Learner α ρ β => learner.Sound ∧ learner.SameTask first where
  aside epoch started loggers h :=
    ⟨invariant_sound.aside epoch started loggers h.1,
      h.2.objective, h.2.schedule, h.2.settings, h.2.form⟩
  update := by
    rintro learner batch learner' record ⟨hsound, hsame⟩ hupdate
    refine ⟨invariant_sound.update hsound hupdate, ?_⟩
    obtain ⟨gradients, _, _, hgradients, hmodel, rfl, _⟩ := of_update hupdate
    have hfit := hsound.gradients _ batch gradients ⟨rfl, rfl⟩ hgradients
    have hform := (Adam.update_fits hsound.ids hfit hsound.moments hmodel).1
    obtain ⟨_, _, rfl, _⟩ := Adam.of_update hsound.ids hmodel
    exact ⟨hsame.objective, hsame.schedule, hsame.settings, hform.trans hsame.form⟩
  setWeights := by
    rintro learner weights learner' ⟨hsound, hsame⟩ hset
    refine ⟨invariant_sound.setWeights hsound hset, ?_⟩
    obtain ⟨_, hmodel, rfl⟩ := of_setWeights hset
    exact ⟨hsame.objective, hsame.schedule, hsame.settings,
      (Model.load_spec hmodel).2.2.trans hsame.form⟩
  setOptimizerState := by
    rintro learner state learner' ⟨hsound, hsame⟩ hset
    refine ⟨invariant_sound.setOptimizerState hsound hset, ?_⟩
    obtain ⟨_, hstate, rfl⟩ := of_setOptimizerState hset
    obtain ⟨_, _, _, _, rfl⟩ := Adam.setState_eq_ok.mp hstate
    exact ⟨hsame.objective, hsame.schedule, hsame.settings, hsame.form⟩

theorem invariant_paced : Invariant fun learner : Learner α ρ β => learner.Paced where
  aside epoch started loggers h :=
    ⟨invariant_sound.aside epoch started loggers h.sound, h.step⟩
  update := by
    intro learner batch learner' record h hupdate
    have hsound := invariant_sound.update h.sound hupdate
    obtain ⟨gradients, _, _, hgradients, hmodel, rfl, _⟩ := of_update hupdate
    have hfit := h.sound.gradients _ batch gradients ⟨rfl, rfl⟩ hgradients
    have hform := (Adam.update_fits h.sound.ids hfit h.sound.moments hmodel).1
    refine ⟨hsound, fun hcomplete => Or.inr ?_⟩
    have hbefore := hcomplete.of_sameForm hform.symm
    exact Adam.update_inStep h.sound.ids (hbefore _ batch gradients ⟨rfl, rfl⟩ hgradients)
      (h.step hbefore) hmodel
  setWeights := by
    intro learner weights learner' h hset
    have hsound := invariant_sound.setWeights h.sound hset
    obtain ⟨_, hmodel, rfl⟩ := of_setWeights hset
    refine ⟨hsound, fun hcomplete => ?_⟩
    have hbefore := hcomplete.of_sameForm (Model.load_spec hmodel).2.2.symm
    exact (h.step hbefore).imp_right fun hstep => hstep.of_load hmodel
  setOptimizerState := by
    intro learner state learner' h hset
    have hsound := invariant_sound.setOptimizerState h.sound hset
    obtain ⟨_, hstate, rfl⟩ := of_setOptimizerState hset
    exact ⟨hsound, fun _ => Or.inr (Adam.inStep_of_setState h.sound.ids hstate)⟩

end Learner

namespace Logger

/-- The next step below `bound` can be compared with the last one written. -/
def Ready (bound : Nat) : Logger → Prop
  | console interval last => bound + interval ≤ Size.limit ∧ ∀ step, last = some step → step < bound
  | table _ => True

theorem Ready.due {interval bound : Nat} {last : Option Nat}
    (h : Ready bound (console interval last)) (step : Nat) :
    ∃ answer, Logger.due interval last step = .ok answer := by
  cases last with
  | none => exact ⟨true, rfl⟩
  | some last =>
      have hlast : last < bound := h.2 last rfl
      have hsum : last + interval < Size.limit := by
        have hlimit := h.1
        omega
      exact ⟨_, by rw [Logger.due, Size.add_eq_ok.mpr ⟨hsum, rfl⟩]; rfl⟩

theorem ready_flush {bound : Nat} {logger : Logger} (h : logger.Ready bound) (files : Files) :
    (logger.flush files).1.Ready bound := by
  cases logger with
  | console interval last => exact h
  | table table => trivial

variable [Shown α] [Shown ρ]

/-- A logger that is ready takes note of a step, and stays ready if the step is below the bound. -/
theorem Ready.step {bound : Nat} {logger : Logger} (h : logger.Ready bound)
    (record : StepRecord α ρ) (files : Files) :
    ∃ logger' files' lines, logger.step record files = .ok (logger', files', lines) ∧
      (record.step < bound → logger'.Ready bound) := by
  cases logger with
  | console interval last =>
      obtain ⟨answer, hanswer⟩ := h.due record.step
      cases answer with
      | true =>
          refine ⟨console interval (some record.step), files, [.step record], ?_, ?_⟩
          · simp only [Logger.step, hanswer]
            rfl
          · intro hstep
            refine ⟨h.1, ?_⟩
            rintro _ ⟨⟩
            exact hstep
      | false =>
          refine ⟨console interval last, files, [], ?_, fun _ => h⟩
          simp only [Logger.step, hanswer]
          rfl
  | table table => exact ⟨_, _, _, rfl, fun _ => trivial⟩

end Logger

namespace Loggers

theorem ready_flush {bound : Nat} {loggers : List Logger}
    (h : ∀ logger ∈ loggers, logger.Ready bound) (files : Files) :
    ∀ logger ∈ (flush files loggers).1, logger.Ready bound := by
  induction loggers generalizing files with
  | nil => exact h
  | cons head loggers ih =>
      intro logger hlogger
      rcases List.mem_cons.mp hlogger with rfl | hlogger
      · exact Logger.ready_flush (h head List.mem_cons_self) files
      · exact ih (fun l hl => h l (List.mem_cons_of_mem head hl)) _ logger hlogger

variable [Shown α] [Shown ρ]

theorem step_ready {bound : Nat} {loggers : List Logger}
    (h : ∀ logger ∈ loggers, logger.Ready bound) (record : StepRecord α ρ) (files : Files) :
    (step record files loggers).1 = .ok () ∧
      (record.step < bound →
        ∀ logger ∈ (step record files loggers).2.1, logger.Ready bound) := by
  induction loggers generalizing files with
  | nil => exact ⟨rfl, fun _ => h⟩
  | cons head loggers ih =>
      obtain ⟨head', files', lines, hhead, hready⟩ :=
        (h head List.mem_cons_self).step record files
      obtain ⟨hok, hrest⟩ := ih (fun l hl => h l (List.mem_cons_of_mem head hl)) files'
      simp only [step, hhead]
      refine ⟨hok, ?_⟩
      intro hstep logger hlogger
      rcases List.mem_cons.mp hlogger with rfl | hlogger
      · exact hready hstep
      · exact hrest hstep logger hlogger

end Loggers

namespace Learner

/-- All loggers can compare the next step. -/
def Ready (bound : Nat) (learner : Learner α ρ β) : Prop :=
  ∀ logger ∈ learner.loggers, logger.Ready bound

variable [Scalar α] [Scalar ρ]

theorem Fresh.ready {learner : Learner α ρ β} {bound : Nat} (hbound : bound + 100 ≤ Size.limit)
    (h : learner.Fresh) : learner.Ready bound := by
  induction h with
  | ofModel =>
      intro logger hlogger
      rw [List.mem_singleton.mp hlogger]
      refine ⟨hbound, ?_⟩
      rintro _ ⟨⟩
  | withOptimizer _ _ ih => exact ih
  | withOutputDir _ hrun ih =>
      obtain ⟨table, rfl⟩ := of_withOutputDir hrun
      intro logger hlogger
      rcases List.mem_append.mp hlogger with hlogger | hlogger
      · exact ih logger hlogger
      · rw [List.mem_singleton.mp hlogger]
        trivial

end Learner

namespace Training

variable [Scalar α] [Scalar ρ] [Shown α] [Shown ρ]

/-- As long as the step is below the bound, all loggers are ready. -/
def Clocked (bound : Nat) (t : Training α ρ β σ) : Prop :=
  t.learner.step < bound → t.learner.Ready bound

omit [Scalar ρ] in
theorem report_of_ready {bound : Nat} {t : Training α ρ β σ} (h : t.learner.Ready bound)
    (record : StepRecord α ρ) :
    ((report record).run t).1 = .ok () ∧
      (record.step < bound → ((report record).run t).2.learner.Ready bound) :=
  Loggers.step_ready h record t.journal.files

variable [Narrows ρ α]

theorem clocked_trainStep (bound : Nat) (feed : Feed σ β) :
    Action.Preserves (Clocked (α := α) (ρ := ρ) bound) (trainStep feed) := by
  intro t ht
  have hdrawn : Clocked bound ((nextBatch feed).run t).2 := by
    rw [Clocked, learner_of_nextBatch]
    exact ht
  rcases trainStep_cases feed t with hlast | ⟨batch, learner, record, hupdate, hlast⟩
  · rw [hlast]
    exact hdrawn
  · obtain ⟨_, _, _, _, _, rfl, hrecord, hstep⟩ := Learner.of_update hupdate
    rw [hlast]
    intro hbound
    have hbelow : record.step < bound := by
      rw [hrecord, ← hstep]
      exact hbound
    have hready := hdrawn (by omega)
    exact (report_of_ready hready record).2 hbelow

theorem clocked_trainEpoch (bound : Nat) (feed : Feed σ β) (n k : Nat) :
    Action.Preserves (Clocked (α := α) (ρ := ρ) bound) (trainEpoch feed n k) := by
  have hconclude : ∀ records, Action.Preserves (Clocked (α := α) (ρ := ρ) (β := β) (σ := σ) bound)
      (conclude records) := by
    intro records t ht hbound
    exact Loggers.ready_flush (ht hbound) _
  exact preserves_epochs (clocked_trainStep bound feed) (fun _ _ ht => ht) hconclude n k

/-- Loggers stay ready through a call that leaves the step below the bound. -/
theorem ready_perform {bound : Nat} {feed : Feed σ β} {t : Training α ρ β σ}
    (h : t.learner.Ready bound) (call : Call α)
    (hbound : ((perform feed call).run t).2.learner.step < bound) :
    ((perform feed call).run t).2.learner.Ready bound := by
  have hclocked : Clocked bound t := fun _ => h
  cases call with
  | trainStep =>
      exact (clocked_trainStep bound feed).bind (fun _ => Action.preserves_pure ()) t hclocked hbound
  | trainEpoch n k =>
      exact (clocked_trainEpoch bound feed n k).bind (fun _ => Action.preserves_pure ())
        t hclocked hbound
  | setWeights weights =>
      simp only [perform, Action.run_bind, Action.run_get, Action.run_lift]
      cases hset : t.learner.setWeights weights with
      | error e => exact h
      | ok learner =>
          obtain ⟨_, _, rfl⟩ := Learner.of_setWeights hset
          exact h
  | setOptimizerState state =>
      simp only [perform, Action.run_bind, Action.run_get, Action.run_lift]
      cases hset : t.learner.setOptimizerState state with
      | error e => exact h
      | ok learner =>
          obtain ⟨_, _, rfl⟩ := Learner.of_setOptimizerState hset
          exact h

end Training

namespace Training.Reached

variable [Scalar α] [Scalar ρ] [Shown α] [Shown ρ] [Narrows ρ α]
variable {feed : Feed σ β} {bound : Nat} {t : Training α ρ β σ}

theorem sound (h : Reached feed bound t) : t.learner.Sound :=
  h.of_invariant Learner.invariant_sound fun _ hfresh hids hgradients =>
    ⟨hids, hgradients, Learner.fits_of_unused hfresh.unused⟩

theorem paced (h : Reached feed bound t) : t.learner.Paced :=
  h.of_invariant Learner.invariant_paced fun _ hfresh hids hgradients =>
    ⟨⟨hids, hgradients, Learner.fits_of_unused hfresh.unused⟩, fun _ => Or.inl hfresh.unused⟩

theorem ready (hbound : bound + 100 ≤ Size.limit) (h : Reached feed bound t) :
    t.learner.Ready bound := by
  induction h with
  | fresh hfresh _ _ => exact hfresh.ready hbound
  | call call _ hstep ih => exact ready_perform ih call hstep

end Training.Reached

end PolicyGradient
