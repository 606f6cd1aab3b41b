import PolicyGradient.Learner.Training
import PolicyGradient.Proofs.Moments

/-!
Learners after any sequence of calls.

`Training.Reached` are the states that a new learner gets into when it is trained, and when its
weights or its optimizer state are replaced, whether the calls succeed or fail.  What new learners
have and the calls keep (`Learner.Invariant`) holds in all of them (`Reached.of_invariant`).
-/

namespace PolicyGradient

open Outcome
open Decimal (Shown)

variable {α ρ β σ : Type}

namespace Objective

/-- The gradients at a model of this form have the shapes of its parameters. -/
def Fits (objective : Objective α β) (model : Model α) : Prop :=
  ∀ other batch gradients, other.SameForm model →
    objective.gradients other batch = .ok gradients → gradients.Fit other

/-- A backward pass at a model of this form gives every parameter a gradient. -/
def Complete (objective : Objective α β) (model : Model α) : Prop :=
  ∀ other batch gradients, other.SameForm model →
    objective.gradients other batch = .ok gradients → gradients.Complete other

/-- The loss and its gradients depend on the weights of a model, and not on its identities. -/
def IgnoresIds (objective : Objective α β) : Prop :=
  ∀ model other batch, model.SameForm other → model.weights = other.weights →
    objective.loss model batch = objective.loss other batch ∧
      objective.gradients model batch = objective.gradients other batch

theorem Fits.of_sameForm {objective : Objective α β} {model other : Model α}
    (h : objective.Fits model) (hform : other.SameForm model) : objective.Fits other :=
  fun third batch gradients hthird => h third batch gradients (hthird.trans hform)

theorem Complete.of_sameForm {objective : Objective α β} {model other : Model α}
    (h : objective.Complete model) (hform : other.SameForm model) : objective.Complete other :=
  fun third batch gradients hthird => h third batch gradients (hthird.trans hform)

end Objective

namespace Model

/-- A model with the identities and the form of another one has the other's parameters, values
apart. -/
theorem exists_counterpart {model other : Model α} (hids : other.identities = model.identities)
    (hform : other.form = model.form) {params : List (Param α)} (hparams : params ∈ other.layers)
    {param : Param α} (hparam : param ∈ params) :
    ∃ params' ∈ model.layers, ∃ param' ∈ params',
      param'.id = param.id ∧ param'.form = param.form := by
  have hrow : params.map (fun p => (p.id, p.form)) ∈
      model.layers.map (List.map fun p => (p.id, p.form)) := by
    rw [← map_id_form_eq hids hform]
    exact List.mem_map_of_mem hparams
  obtain ⟨params', hparams', heq⟩ := List.mem_map.mp hrow
  have hmem : (param.id, param.form) ∈ params'.map fun p => (p.id, p.form) := by
    rw [heq]
    exact List.mem_map_of_mem hparam
  obtain ⟨param', hparam', hsame⟩ := List.mem_map.mp hmem
  exact ⟨params', hparams', param', hparam', congrArg Prod.fst hsame, congrArg Prod.snd hsame⟩

end Model

namespace Adam

/-- Moments that fit a model fit it with other weights. -/
theorem Fits.of_load {adam : Adam α} {model loaded : Model α} {weights : ModelWeights α}
    (hfits : adam.Fits model) (h : model.load weights = .ok loaded) : adam.Fits loaded := by
  obtain ⟨_, hids, hform⟩ := Model.load_spec h
  intro params hparams param hparam moments hmoments
  obtain ⟨params', hparams', param', hparam', hid, hsame⟩ :=
    Model.exists_counterpart hids hform.2 hparams hparam
  have hshape : param'.block.shape = param.block.shape := congrArg Prod.snd hsame
  rw [← hshape]
  exact hfits params' hparams' param' hparam' moments (by rw [hid, hmoments])

theorem InStep.of_load {adam : Adam α} {model loaded : Model α} {weights : ModelWeights α}
    (hstep : adam.InStep model) (h : model.load weights = .ok loaded) : adam.InStep loaded := by
  obtain ⟨_, hids, hform⟩ := Model.load_spec h
  intro params hparams param hparam
  obtain ⟨params', hparams', param', hparam', hid, _⟩ :=
    Model.exists_counterpart hids hform.2 hparams hparam
  rw [← hid]
  exact hstep params' hparams' param' hparam'

theorem inStep_of_setState {adam adam' : Adam α} {model : Model α} {state : OptimizerState α}
    (hids : model.DistinctIds) (h : adam.setState model state = .ok adam') :
    adam'.InStep model := by
  intro params hparams param hparam
  obtain ⟨moments, hfound, _, htime⟩ := moments_of_setState hids h hparams hparam
  obtain ⟨_, _, _, _, rfl⟩ := setState_eq_ok.mp h
  exact ⟨moments, hfound, htime⟩

end Adam

namespace Learner

theorem of_withOutputDir {learner learner' : Learner α ρ β} {dir : String} {files files' : Files}
    (h : (learner.withOutputDir dir).run files = (.ok learner', files')) :
    ∃ table, learner' = { learner with
      outputDir := some dir, loggers := learner.loggers ++ [.table table] } := by
  unfold withOutputDir at h
  obtain ⟨_, _, _, h⟩ := Action.run_bind_eq_ok.mp h
  obtain ⟨_, _, _, h⟩ := Action.run_bind_eq_ok.mp h
  obtain ⟨⟨table, _⟩, _, _, h⟩ := Action.run_bind_eq_ok.mp h
  obtain ⟨_, _, _, h⟩ := Action.run_bind_eq_ok.mp h
  cases h
  exact ⟨table, rfl⟩

theorem of_setWeights {learner learner' : Learner α ρ β} {weights : ModelWeights α}
    (h : learner.setWeights weights = .ok learner') :
    ∃ model, learner.model.load weights = .ok model ∧
      learner' = { learner with model := model } := by
  obtain ⟨model, hmodel, heq⟩ := bind_eq_ok.mp h
  exact ⟨model, hmodel, (Except.ok.inj heq).symm⟩

theorem of_setOptimizerState {learner learner' : Learner α ρ β} {state : OptimizerState α}
    (h : learner.setOptimizerState state = .ok learner') :
    ∃ optimizer, learner.optimizer.setState learner.model state = .ok optimizer ∧
      learner' = { learner with optimizer := optimizer } := by
  obtain ⟨optimizer, hoptimizer, heq⟩ := bind_eq_ok.mp h
  exact ⟨optimizer, hoptimizer, (Except.ok.inj heq).symm⟩

variable [Scalar α] [Scalar ρ]

/-- A learner before its first call. -/
inductive Fresh : Learner α ρ β → Prop
  | ofModel (name : String) (model : Model α) (objective : Objective α β)
      (schedule : Schedule ρ) : Fresh (.ofModel name model objective schedule)
  | withOptimizer {learner : Learner α ρ β} (h : Fresh learner) (settings : Adam.Settings α) :
      Fresh (learner.withOptimizer settings)
  | withOutputDir {learner learner' : Learner α ρ β} {dir : String} {files files' : Files}
      (h : Fresh learner) (hrun : (learner.withOutputDir dir).run files = (.ok learner', files')) :
      Fresh learner'

theorem Fresh.unused {learner : Learner α ρ β} (h : learner.Fresh) :
    learner.optimizer.Unused := by
  induction h with
  | ofModel => exact ⟨rfl, rfl⟩
  | withOptimizer => exact ⟨rfl, rfl⟩
  | withOutputDir _ hrun ih =>
      obtain ⟨_, rfl⟩ := of_withOutputDir hrun
      exact ih

/-- What an update changes: the model and the optimizer. -/
theorem of_update [Narrows ρ α] {learner learner' : Learner α ρ β} {batch : β}
    {record : StepRecord α ρ} (h : learner.update batch = .ok (learner', record)) :
    ∃ gradients optimizer model, learner.objective.gradients learner.model batch = .ok gradients ∧
      learner.optimizer.update (Narrows.narrow record.lr) learner.model gradients =
        .ok (optimizer, model) ∧
      learner' = { learner with model := model, optimizer := optimizer } ∧
      record.step = learner.step + 1 ∧ learner'.step = learner.step + 1 := by
  unfold update at h
  simp only [bind_eq_ok] at h
  obtain ⟨loss, _, gradients, hgradients, step, hstep, ⟨optimizer, model⟩, hupdate, heq⟩ := h
  cases heq
  exact ⟨gradients, optimizer, model, hgradients, hupdate, rfl, (Size.add_eq_ok.mp hstep).2,
    Adam.step_of_update hupdate⟩

/-- A property that training and replacing leave true of a learner. -/
structure Invariant [Narrows ρ α] (P : Learner α ρ β → Prop) : Prop where
  aside : ∀ {learner} (epoch started loggers), P learner →
    P { learner with epoch := epoch, started := started, loggers := loggers }
  update : ∀ {learner batch learner' record}, P learner →
    learner.update batch = .ok (learner', record) → P learner'
  setWeights : ∀ {learner weights learner'}, P learner →
    learner.setWeights weights = .ok learner' → P learner'
  setOptimizerState : ∀ {learner state learner'}, P learner →
    learner.setOptimizerState state = .ok learner' → P learner'

end Learner

namespace Training

/-- What can be asked of a learner at work. -/
inductive Call (α : Type)
  | trainStep
  | trainEpoch (n k : Nat)
  | setWeights (weights : ModelWeights α)
  | setOptimizerState (state : OptimizerState α)

theorem learner_of_nextBatch (feed : Feed σ β) (t : Training α ρ β σ) :
    ((nextBatch feed).run t).2.learner = { t.learner with started := true } := by
  have hstart : (t.start feed).learner = { t.learner with started := true } := by
    by_cases hstarted : t.learner.started
    · rw [start, if_pos hstarted, ← hstarted]
    · rw [start, if_neg hstarted]
  simp only [nextBatch, Action.run_of]
  split
  · exact hstart
  · exact hstart

variable [Scalar α] [Scalar ρ] [Shown α] [Shown ρ]

omit [Scalar ρ] in
theorem learner_of_report (record : StepRecord α ρ) (t : Training α ρ β σ) :
    ∃ loggers, ((report record).run t).2.learner = { t.learner with loggers := loggers } :=
  ⟨_, rfl⟩

variable [Narrows ρ α]

/-- What a training step is made of: a draw, an update and a report. -/
theorem run_trainStep (feed : Feed σ β) (t : Training α ρ β σ) :
    (trainStep feed).run t =
      match (nextBatch feed).run t with
      | (.error e, drawn) => (.error e, drawn)
      | (.ok batch, drawn) =>
          match drawn.learner.update batch with
          | .error e => (.error e, drawn)
          | .ok (learner, record) =>
              (do report record; return record : Action _ _).run
                { drawn with learner := learner } := by
  unfold trainStep
  rw [Action.run_bind]
  rcases (nextBatch feed).run t with ⟨e | batch, drawn⟩
  · rfl
  · simp only [Action.run_bind, Action.run_get, Action.run_lift]
    cases drawn.learner.update batch with
    | error e => rfl
    | ok updated => rfl

/-- The last state of a training step: what the draw leaves, or what the report of an update
leaves. -/
theorem trainStep_cases (feed : Feed σ β) (t : Training α ρ β σ) :
    ((trainStep feed).run t).2 = ((nextBatch feed).run t).2 ∨
    ∃ batch learner record,
      ((nextBatch feed).run t).2.learner.update batch = .ok (learner, record) ∧
      ((trainStep feed).run t).2 =
        ((report record).run { ((nextBatch feed).run t).2 with learner := learner }).2 := by
  rw [run_trainStep]
  rcases (nextBatch feed).run t with ⟨e | batch, drawn⟩
  · exact Or.inl rfl
  · cases hupdate : drawn.learner.update batch with
    | error e => exact Or.inl (by simp only [hupdate])
    | ok updated =>
        simp only [hupdate]
        exact Or.inr ⟨batch, updated.1, updated.2, hupdate, Action.state_bind_pure _ _ _⟩

theorem step_of_trainStep {feed : Feed σ β} {t t' : Training α ρ β σ} {record : StepRecord α ρ}
    (h : (trainStep feed).run t = (.ok record, t')) : t'.learner.step = t.learner.step + 1 := by
  have hdrawn : ((nextBatch feed).run t).2.learner.step = t.learner.step := by
    rw [learner_of_nextBatch]
    rfl
  rw [run_trainStep] at h
  rcases hbatch : (nextBatch feed).run t with ⟨e | batch, drawn⟩
  · simp [hbatch] at h
  · rw [hbatch] at h hdrawn
    cases hupdate : drawn.learner.update batch with
    | error e => simp [hupdate] at h
    | ok updated =>
        simp only [hupdate] at h
        obtain ⟨_, t'', hreport, hrecord⟩ := Action.run_bind_eq_ok.mp h
        cases hrecord
        obtain ⟨loggers, hlearner⟩ :=
          learner_of_report updated.2 { drawn with learner := updated.1 }
        obtain ⟨_, _, _, _, _, _, _, hstep⟩ := Learner.of_update hupdate
        rw [hreport] at hlearner
        rw [hlearner, ← hdrawn]
        exact hstep

omit [Scalar α] [Scalar ρ] [Shown α] [Shown ρ] [Narrows ρ α] in
theorem of_advanceEpoch {t t' : Training α ρ β σ} (h : advanceEpoch.run t = (.ok (), t')) :
    ∃ epoch, t' = { t with learner := { t.learner with epoch := epoch } } := by
  simp only [advanceEpoch, Action.run_bind, Action.run_get, Action.run_lift] at h
  cases hnext : Size.add t.learner.epoch 1 with
  | error e => simp [hnext] at h
  | ok epoch =>
      simp only [hnext, Action.run_modify, Prod.mk.injEq, true_and] at h
      exact ⟨epoch, h.symm⟩

/-- An epoch that succeeds has made all its steps. -/
theorem step_of_trainEpoch {feed : Feed σ β} {n k : Nat} {t t' : Training α ρ β σ}
    {summary : EpochSummary α ρ} (h : (trainEpoch feed n k).run t = (.ok summary, t')) :
    t'.learner.step = t.learner.step + k * n := by
  have hgroup : ∀ s records u, (trainGroup feed n).run s = (.ok records, u) →
      u.learner.step = (s.learner : Learner α ρ β).step + n := by
    intro s records u hrun
    obtain ⟨_, s', hsteps, hrest⟩ := Action.run_bind_eq_ok.mp hrun
    obtain ⟨_, u', hadvance, hlast⟩ := Action.run_bind_eq_ok.mp hrest
    cases hlast
    obtain ⟨_, rfl⟩ := of_advanceEpoch hadvance
    have hcount := Action.count_of_replicate (fun t : Training α ρ β σ => t.learner.step)
      (fun _ _ _ hstep => step_of_trainStep hstep) hsteps
    rwa [Nat.mul_one] at hcount
  obtain ⟨_, s, hroom, hrest⟩ := Action.run_bind_eq_ok.mp h
  obtain ⟨groups, u, hgroups, hlast⟩ := Action.run_bind_eq_ok.mp hrest
  have hfirst : s = t := (congrArg Prod.snd hroom).symm
  have hconcluded : t'.learner.step = u.learner.step :=
    congrArg (fun ending => ending.2.learner.step) hlast.symm
  rw [hconcluded, ← hfirst]
  exact Action.count_of_replicate (fun t : Training α ρ β σ => t.learner.step) hgroup hgroups

/-- Answer a call. -/
def perform (feed : Feed σ β) : Call α → Action (Training α ρ β σ) Unit
  | .trainStep => do
      let _ ← trainStep feed
  | .trainEpoch n k => do
      let _ ← trainEpoch feed n k
  | .setWeights weights => do
      let learner ← Action.lift ((← get).learner.setWeights weights)
      modify fun t => { t with learner := learner }
  | .setOptimizerState state => do
      let learner ← Action.lift ((← get).learner.setOptimizerState state)
      modify fun t => { t with learner := learner }

section

variable {P : Training α ρ β σ → Prop}

omit [Scalar α] [Scalar ρ] [Shown α] [Shown ρ] [Narrows ρ α] in
/-- To count an epoch is to change the learner's epoch at most. -/
theorem preserves_count (hcount : ∀ (t : Training α ρ β σ) (epoch : Nat),
    P t → P { t with learner := { t.learner with epoch := epoch } }) :
    Action.Preserves P advanceEpoch := by
  intro t ht
  simp only [advanceEpoch, Action.run_bind, Action.run_get, Action.run_lift]
  cases Size.add t.learner.epoch 1 with
  | error e => exact ht
  | ok epoch => exact hcount t epoch ht

/-- What their parts leave true, epochs leave true, however they end. -/
theorem preserves_epochs {feed : Feed σ β} (hstep : Action.Preserves P (trainStep feed))
    (hcount : ∀ (t : Training α ρ β σ) (epoch : Nat),
      P t → P { t with learner := { t.learner with epoch := epoch } })
    (hconclude : ∀ records, Action.Preserves P (conclude records)) (n k : Nat) :
    Action.Preserves P (trainEpoch feed n k) := by
  have hgroup : Action.Preserves P (trainGroup feed n) :=
    (hstep.replicate n).bind fun records =>
      (preserves_count hcount).bind fun _ => Action.preserves_pure records
  exact (Action.preserves_lift _).bind fun _ =>
    (hgroup.replicate k).bind fun groups => hconclude groups.flatten

end

section

variable {P : Learner α ρ β → Prop}

theorem preserves_report (hP : Learner.Invariant P) (record : StepRecord α ρ) :
    Action.Preserves (fun t : Training α ρ β σ => P t.learner) (report record) := by
  intro t ht
  obtain ⟨loggers, hlearner⟩ := learner_of_report record t
  rw [hlearner]
  exact hP.aside _ _ loggers ht

theorem preserves_trainStep (hP : Learner.Invariant P) (feed : Feed σ β) :
    Action.Preserves (fun t : Training α ρ β σ => P t.learner) (trainStep feed) := by
  intro t ht
  have hdrawn : P ((nextBatch feed).run t).2.learner := by
    rw [learner_of_nextBatch]
    exact hP.aside _ true _ ht
  rcases trainStep_cases feed t with hlast | ⟨batch, learner, record, hupdate, hlast⟩
  · rw [hlast]
    exact hdrawn
  · rw [hlast]
    exact preserves_report hP record _ (hP.update hdrawn hupdate)

omit [Shown α] [Shown ρ] in
theorem preserves_conclude (hP : Learner.Invariant P) (records : List (StepRecord α ρ)) :
    Action.Preserves (fun t : Training α ρ β σ => P t.learner) (conclude records) := by
  intro t ht
  exact hP.aside _ _ _ ht

theorem preserves_trainEpoch (hP : Learner.Invariant P) (feed : Feed σ β) (n k : Nat) :
    Action.Preserves (fun t : Training α ρ β σ => P t.learner) (trainEpoch feed n k) :=
  preserves_epochs (preserves_trainStep hP feed) (fun _ epoch ht => hP.aside epoch _ _ ht)
    (preserves_conclude hP) n k

/-- However a call ends, an invariant stays true. -/
theorem preserves_perform (hP : Learner.Invariant P) (feed : Feed σ β) (call : Call α) :
    Action.Preserves (fun t : Training α ρ β σ => P t.learner) (perform feed call) := by
  cases call with
  | trainStep =>
      exact (preserves_trainStep hP feed).bind fun _ => Action.preserves_pure ()
  | trainEpoch n k =>
      exact (preserves_trainEpoch hP feed n k).bind fun _ => Action.preserves_pure ()
  | setWeights weights =>
      intro t ht
      simp only [perform, Action.run_bind, Action.run_get, Action.run_lift]
      cases hset : t.learner.setWeights weights with
      | error e => exact ht
      | ok learner => exact hP.setWeights ht hset
  | setOptimizerState state =>
      intro t ht
      simp only [perform, Action.run_bind, Action.run_get, Action.run_lift]
      cases hset : t.learner.setOptimizerState state with
      | error e => exact ht
      | ok learner => exact hP.setOptimizerState ht hset

end

/-- The states of a new learner after some calls, none of which takes its step to `bound`. -/
inductive Reached (feed : Feed σ β) (bound : Nat) : Training α ρ β σ → Prop
  | fresh {t : Training α ρ β σ} (hfresh : t.learner.Fresh) (hids : t.learner.model.DistinctIds)
      (hgradients : t.learner.objective.Fits t.learner.model) : Reached feed bound t
  | call {t : Training α ρ β σ} (call : Call α) (h : Reached feed bound t)
      (hbound : ((perform feed call).run t).2.learner.step < bound) :
      Reached feed bound ((perform feed call).run t).2

/-- Reachable states have every invariant that new learners have. -/
theorem Reached.of_invariant {P : Learner α ρ β → Prop} {feed : Feed σ β} {bound : Nat}
    {t : Training α ρ β σ} (hP : Learner.Invariant P)
    (hfresh : ∀ learner : Learner α ρ β, learner.Fresh → learner.model.DistinctIds →
      learner.objective.Fits learner.model → P learner)
    (h : Reached feed bound t) : P t.learner := by
  induction h with
  | fresh hnew hids hgradients => exact hfresh _ hnew hids hgradients
  | call call _ _ ih => exact preserves_perform hP feed call _ ih

end Training

end PolicyGradient
