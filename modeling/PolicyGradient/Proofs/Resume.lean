import PolicyGradient.Proofs.Alike
import PolicyGradient.Proofs.Gradients
import PolicyGradient.Proofs.Horizon
import PolicyGradient.Proofs.Sound

/-!
Resuming from a checkpoint.

A checkpoint holds the weights and the optimizer state.  It leaves out the identities and the times
of the parameters, and yet a learner that takes it over cannot be told apart from the one that wrote
it, for any number of steps: the step stands for all times (`Learner.Paced`), and moments that are
missing stand for zeros.  `run_alike` carries the common position through a run.
-/

namespace PolicyGradient

open Outcome
open Decimal (Shown)

variable {α ρ β σ σ' : Type}

namespace Adam

variable [Scalar α]

/-- A slot of a parameter on record is one of its moments. -/
theorem slot_of_find? {part : Moments α → ParamBlock α} {records : Records α} {param : Param α}
    {moments : Moments α} (hfound : records.find? param.id = some moments)
    (hshape : (part moments).shape = param.block.shape) :
    slot part records param = part moments := by
  simp only [slot, slotValues, hfound]
  rw [← hshape]

/-- A slot of a parameter that is not on record is zero. -/
theorem slot_of_find?_none {part : Moments α → ParamBlock α} {records : Records α}
    {param : Param α} (hfound : records.find? param.id = none) :
    slot part records param =
      ⟨param.block.shape, Array.replicate (Size.volume param.block.shape) 0⟩ := by
  simp only [slot, slotValues, hfound]
  rw [param.filled]

theorem slot_of_counterparts {settings : Settings α} {part : Moments α → ParamBlock α}
    {records records' : Records α} {param other : Param α}
    (hpart : part (.zero param.block.shape) =
      ⟨param.block.shape, Array.replicate (Size.volume param.block.shape) 0⟩)
    (h : Counterparts settings records records' param other) :
    slot part records param = slot part records' other := by
  obtain ⟨_, hblock, hsame | ⟨hnone, hzero, _⟩⟩ := h
  · rw [slot, slot, slotValues, slotValues, hsame, hblock]
  · rw [slot_of_find?_none hnone, ← hpart, slot_of_find? hzero]
    rw [hpart, hblock]

theorem Alike.weights {adam adam' : Adam α} {model model' : Model α}
    (h : Alike adam adam' model model') : model.weights = model'.weights := by
  have hlayers : model.layers.map Model.weightsOf = model'.layers.map Model.weightsOf := by
    rw [map_eq_iff_forall₂]
    refine h.params.imp fun params others hrow => congrArg LayerWeights.mk ?_
    rw [map_eq_iff_forall₂]
    exact hrow.imp fun param other hsame => hsame.2.1
  exact congrArg ModelWeights.mk hlayers

theorem Alike.sameForm {adam adam' : Adam α} {model model' : Model α}
    (h : Alike adam adam' model model') : model.SameForm model' := by
  refine ⟨h.architecture, ?_⟩
  rw [Model.form, Model.form, map_map_eq_iff_forall₂]
  refine h.params.imp fun params others hrow => hrow.imp fun param other hsame => ?_
  rw [Param.form, Param.form, hsame.1, hsame.2.1]

theorem Alike.state {adam adam' : Adam α} {model model' : Model α}
    (h : Alike adam adam' model model') : adam.state model = adam'.state model' := by
  have hgroup : model.layers.map (slotsOf adam.records) =
      model'.layers.map (slotsOf adam'.records) := by
    rw [map_eq_iff_forall₂]
    refine h.params.imp fun params others hrow => congrArg LayerWeights.mk ?_
    have hfirst : params.map (slot Moments.first adam.records) =
        others.map (slot Moments.first adam'.records) := by
      rw [map_eq_iff_forall₂]
      exact hrow.imp fun param other hsame => slot_of_counterparts rfl hsame
    have hsecond : params.map (slot Moments.second adam.records) =
        others.map (slot Moments.second adam'.records) := by
      rw [map_eq_iff_forall₂]
      exact hrow.imp fun param other hsame => slot_of_counterparts rfl hsame
    rw [hfirst, hsecond]
  rw [Adam.state, Adam.state, hgroup, h.otherGroups, h.step]

/-- Restored moments match the ones they were read from. -/
theorem matched_of_slots {settings : Settings α} {records records' : Records α}
    {param other : Param α} {moments : Moments α} {step : Nat}
    (hfirst : slot Moments.first records param = slot Moments.first records' other)
    (hsecond : slot Moments.second records param = slot Moments.second records' other)
    (hother : records'.find? other.id = some moments) (hfits : moments.Fits other.block.shape)
    (htime : moments.time = step)
    (hparam : (records.find? param.id = none ∧ step = 0 ∧ settings.StartsAtZero) ∨
      ∃ own, records.find? param.id = some own ∧ own.Fits param.block.shape ∧ own.time = step) :
    Matched settings param.block.shape (records.find? param.id) (records'.find? other.id) := by
  rw [slot_of_find? hother hfits.1.1] at hfirst
  rw [slot_of_find? hother hfits.2.1] at hsecond
  rw [hother]
  rcases hparam with ⟨hnone, hzero, hstart⟩ | ⟨own, hown, hownFits, hownTime⟩
  · rw [slot_of_find?_none hnone] at hfirst hsecond
    refine Or.inr ⟨hnone, congrArg some ?_, hstart⟩
    obtain ⟨first, second, time⟩ := moments
    simp only at hfirst hsecond htime
    rw [Moments.zero, hfirst, ← hsecond, hfirst, htime, hzero]
  · rw [slot_of_find? hown hownFits.1.1] at hfirst
    rw [slot_of_find? hown hownFits.2.1] at hsecond
    rw [hown]
    refine Or.inl (congrArg some ?_)
    obtain ⟨first, second, time⟩ := moments
    obtain ⟨first', second', time'⟩ := own
    simp only at hfirst hsecond htime hownTime
    rw [hfirst, hsecond, htime, hownTime]

/-- Two layers with the same forms, weights and slots, parameter by parameter. -/
theorem forall₂_of_row {records records' : Records α} {params others : List (Param α)}
    (hform : List.Forall₂ (fun param other => param.form = other.form) params others)
    (hblock : Model.weightsOf params = Model.weightsOf others)
    (hslots : slotsOf records params = slotsOf records' others) :
    List.Forall₂ (fun param other => (param.form = other.form ∧ param.block = other.block) ∧
      slot Moments.first records param = slot Moments.first records' other ∧
      slot Moments.second records param = slot Moments.second records' other) params others := by
  have hlength : (params.map (slot Moments.first records)).length =
      (others.map (slot Moments.first records')).length := by
    rw [List.length_map, List.length_map, hform.length_eq]
  obtain ⟨hfirst, hsecond⟩ := List.append_inj (congrArg LayerWeights.params hslots) hlength
  have hblocks := map_eq_iff_forall₂.mp (congrArg LayerWeights.params hblock)
  have hmoments := List.Forall₂.mp (fun _ _ => And.intro) (map_eq_iff_forall₂.mp hfirst)
    (map_eq_iff_forall₂.mp hsecond)
  exact List.Forall₂.mp (fun _ _ => And.intro) (List.Forall₂.mp (fun _ _ => And.intro) hform hblocks)
    hmoments

/-- An optimizer that has taken over a state is in the position of the one that it comes from. -/
theorem alike_of_setState {adam adam' restored : Adam α} {model model' : Model α}
    (hids : model'.DistinctIds) (hform : model.SameForm model')
    (hweights : model.weights = model'.weights) (hsettings : adam.settings = adam'.settings)
    (hfits : adam.Fits model) (hpaced : adam.Unused ∨ adam.InStep model)
    (hstart : adam.records = [] → adam.settings.StartsAtZero)
    (h : adam'.setState model' (adam.state model) = .ok restored) :
    Alike adam restored model model' := by
  have hstate : restored.state model' = adam.state model := state_of_setState hids h
  have hkept : restored.settings = adam'.settings := by
    obtain ⟨_, _, _, _, rfl⟩ := setState_eq_ok.mp h
    rfl
  have hslots := map_eq_iff_forall₂.mp (List.cons.inj (congrArg OptimizerState.slots hstate)).1.symm
  have hblocks := map_eq_iff_forall₂.mp (congrArg ModelWeights.layers hweights)
  have hrows := List.Forall₂.mp (fun _ _ => And.intro) (map_map_eq_iff_forall₂.mp hform.2)
    (List.Forall₂.mp (fun _ _ => And.intro) hblocks hslots)
  refine ⟨hsettings.trans hkept.symm, congrArg OptimizerState.step hstate.symm,
    (List.cons.inj (congrArg OptimizerState.slots hstate)).2.symm, hform.1, ?_⟩
  refine forall₂_of_mem hrows fun params hparams others hothers hrow => ?_
  refine forall₂_of_mem (forall₂_of_row hrow.1 hrow.2.1 hrow.2.2) ?_
  rintro param hparam other hother ⟨⟨hsame, hblock⟩, hfirst, hsecond⟩
  obtain ⟨moments, hfound, hmoments, htime⟩ := moments_of_setState hids h hothers hother
  refine ⟨congrArg Prod.fst hsame, hblock,
    matched_of_slots hfirst hsecond hfound hmoments htime ?_⟩
  rcases hpaced with ⟨hrecords, hstep⟩ | hinStep
  · have hnone : adam.records.find? param.id = none := by
      rw [hrecords]
      rfl
    exact Or.inl ⟨hnone, hstep, hstart hrecords⟩
  · obtain ⟨own, hown, hownTime⟩ := hinStep params hparams param hparam
    exact Or.inr ⟨own, hown, hfits params hparams param hparam own hown, hownTime⟩

end Adam

/-- Two records of the same update. -/
def StepRecord.SameStep (record other : StepRecord α ρ) : Prop :=
  record.step = other.step ∧ record.loss = other.loss ∧ record.lr = other.lr

namespace Learner

variable [Scalar α] [Scalar ρ] [Narrows ρ α] {x y : Learner α ρ β}

/-- Learners in the same position of the same training. -/
structure Alike (x y : Learner α ρ β) : Prop where
  objective : x.objective = y.objective
  schedule : x.schedule = y.schedule
  ignoresIds : x.objective.IgnoresIds
  trained : x.optimizer.Alike y.optimizer x.model y.model
  sound : x.Sound
  sound' : y.Sound

theorem Alike.update (h : Alike x y) (batch : β) :
    Agree (fun a b => Alike a.1 b.1 ∧ a.2.SameStep b.2) (x.update batch) (y.update batch) := by
  obtain ⟨hloss, hgradients⟩ := h.ignoresIds x.model y.model batch h.trained.sameForm
    h.trained.weights
  have hstep : x.step = y.step := h.trained.step
  have hfit : Agree (fun g g' => g = g' ∧ g.Fit x.model)
      (x.objective.gradients x.model batch) (x.objective.gradients x.model batch) :=
    (agree_self _).of_ok fun g _ hg _ heq =>
      ⟨heq, h.sound.gradients x.model batch g ⟨rfl, rfl⟩ hg⟩
  have hagree : Agree (fun a b => a.1.optimizer.Alike b.1.optimizer a.1.model b.1.model ∧
      a.2.SameStep b.2) (x.update batch) (y.update batch) := by
    unfold Learner.update
    rw [← h.objective, ← hloss, ← hgradients, ← hstep, ← h.schedule]
    refine (agree_self _).bind ?_
    rintro loss _ rfl
    refine hfit.bind ?_
    rintro gradients _ ⟨rfl, hgradients⟩
    refine (agree_self _).bind ?_
    rintro step _ rfl
    refine (h.trained.update h.sound.ids h.sound'.ids hgradients _).bind ?_
    rintro ⟨optimizer, model⟩ ⟨optimizer', model'⟩ htrained
    exact .ok ⟨htrained, rfl, rfl, rfl⟩
  refine hagree.of_ok ?_
  rintro ⟨x', record⟩ ⟨y', record'⟩ hx hy ⟨htrained, hrecord⟩
  have hsound := invariant_sound.update h.sound hx
  have hsound' := invariant_sound.update h.sound' hy
  obtain ⟨_, _, _, _, _, rfl, _⟩ := of_update hx
  obtain ⟨_, _, _, _, _, rfl, _⟩ := of_update hy
  exact ⟨⟨h.objective, h.schedule, h.ignoresIds, htrained, hsound, hsound'⟩, hrecord⟩

/-- What is beside training may differ. -/
theorem Alike.aside (h : Alike x y) (started started' : Bool) (loggers loggers' : List Logger) :
    Alike { x with started := started, loggers := loggers }
      { y with started := started', loggers := loggers' } :=
  ⟨h.objective, h.schedule, h.ignoresIds, h.trained,
    invariant_sound.aside _ started loggers h.sound,
    invariant_sound.aside _ started' loggers' h.sound'⟩

/-- A learner of the same task can take over the weights and the optimizer state of another one, and
is in its position then. -/
theorem exists_restored (hx : x.Paced) (hy : y.Sound) (htask : y.SameTask x)
    (hids : x.objective.IgnoresIds) (hcomplete : x.objective.Complete x.model)
    (hstart : x.optimizer.records = [] → x.optimizer.settings.StartsAtZero) :
    ∃ model optimizer, y.setWeights x.weights = .ok { y with model := model } ∧
      setOptimizerState { y with model := model } x.optimizerState =
        .ok { y with model := model, optimizer := optimizer } ∧
      x.Alike { y with model := model, optimizer := optimizer } := by
  -- The weights go in: they are a model's weights, in the layout of this one.
  obtain ⟨model, hmodel⟩ : ∃ model, y.model.load x.weights = .ok model :=
    Model.exists_load_iff.mpr ⟨htask.form.layout_eq.symm, Model.isFilled_weights x.model⟩
  obtain ⟨hweights, hidentities, hform⟩ := Model.load_spec hmodel
  have hdistinct : model.DistinctIds := by
    rw [Model.DistinctIds, hidentities]
    exact hy.ids
  have hsame : x.model.SameForm model := (hform.trans htask.form).symm
  -- The state goes in, too: the moments behind it have the shapes of the parameters.
  obtain ⟨optimizer, hoptimizer⟩ : ∃ optimizer,
      y.optimizer.setState model x.optimizerState = .ok optimizer := by
    rw [Adam.exists_setState_iff, Adam.fits_iff, ← hsame.layout_eq, ← Adam.fits_iff]
    exact Adam.fits_state hx.sound.moments
  have hset : y.setWeights x.weights = .ok { y with model := model } := by
    rw [setWeights, hmodel]
    rfl
  have hrestore : setOptimizerState { y with model := model } x.optimizerState =
      .ok { y with model := model, optimizer := optimizer } := by
    rw [setOptimizerState, hoptimizer]
    rfl
  have htrained := Adam.alike_of_setState hdistinct hsame hweights.symm htask.settings.symm
    hx.sound.moments (hx.step hcomplete) hstart hoptimizer
  have hsound := invariant_sound.setOptimizerState (invariant_sound.setWeights hy hset) hrestore
  exact ⟨model, optimizer, hset, hrestore,
    htask.objective.symm, htask.schedule.symm, hids, htrained, hx.sound, hsound⟩

end Learner

/-- The feed gives out these items, one after the other. -/
def Feed.Delivers (feed : Feed σ β) : σ → List (Outcome β) → Prop
  | _, [] => True
  | s, item :: items => (feed.next s).1 = some item ∧ Delivers feed (feed.next s).2 items

namespace Training

theorem run_nextBatch {feed : Feed σ β} {t : Training α ρ β σ} {item : Outcome β}
    (h : (feed.next (t.start feed).source).1 = some item) :
    ∃ drawn, (nextBatch feed).run t = (item, drawn) ∧
      drawn.learner = { t.learner with started := true } := by
  have hrun : (nextBatch feed).run t =
      (item, { t.start feed with source := (feed.next (t.start feed).source).2 }) := by
    simp only [nextBatch, Action.run_of]
    rw [h]
  have hlearner := learner_of_nextBatch feed t
  rw [hrun] at hlearner
  exact ⟨_, hrun, hlearner⟩

/-- Where a feed is does not depend on the model and the optimizer. -/
theorem source_start (feed : Feed σ β) (y : Training α ρ β σ) (model : Model α)
    (optimizer : Adam α) :
    (start feed { y with learner :=
      { y.learner with model := model, optimizer := optimizer } }).source =
        (start feed y).source := by
  rw [start, start]
  split
  · rfl
  · rfl

variable [Scalar α] [Scalar ρ] [Shown α] [Shown ρ] [Narrows ρ α]

/-- The state after `n` training steps, whether they succeed or fail. -/
def after (feed : Feed σ β) : Nat → Training α ρ β σ → Training α ρ β σ
  | 0, t => t
  | n + 1, t => after feed n ((trainStep feed).run t).2

/-- A training step takes one item from the feed. -/
theorem source_of_trainStep (feed : Feed σ β) (t : Training α ρ β σ) :
    (((trainStep feed).run t).2.start feed).source = (feed.next (t.start feed).source).2 := by
  have hdrawn : ((nextBatch feed).run t).2.source = (feed.next (t.start feed).source).2 := by
    simp only [nextBatch, Action.run_of]
    split
    · rfl
    · rfl
  have hstarted : ((nextBatch feed).run t).2.learner.started = true := by
    rw [learner_of_nextBatch]
  have hlast : ((trainStep feed).run t).2.learner.started = true ∧
      ((trainStep feed).run t).2.source = ((nextBatch feed).run t).2.source := by
    rcases trainStep_cases feed t with hlast | ⟨batch, learner, record, hupdate, hlast⟩
    · rw [hlast]
      exact ⟨hstarted, rfl⟩
    · obtain ⟨_, _, _, _, _, rfl, _⟩ := Learner.of_update hupdate
      rw [hlast]
      exact ⟨hstarted, rfl⟩
  rw [start, if_pos hlast.1, hlast.2, hdrawn]

section

variable {feed : Feed σ β} {feed' : Feed σ' β} {x : Training α ρ β σ} {y : Training α ρ β σ'}
variable {bound : Nat}

/-- A step whose update succeeds gives the record of the update, if the loggers are ready. -/
theorem trainStep_of_update {drawn : Training α ρ β σ} {batch : β} {learner : Learner α ρ β}
    {record : StepRecord α ρ} (hdrawn : (nextBatch feed).run x = (.ok batch, drawn))
    (hupdate : drawn.learner.update batch = .ok (learner, record))
    (hready : drawn.learner.Ready bound) :
    ((trainStep feed).run x).1 = .ok record ∧
      ∃ loggers, ((trainStep feed).run x).2.learner = { learner with loggers := loggers } := by
  have hupdated : learner.Ready bound := by
    obtain ⟨_, _, _, _, _, hframe, _⟩ := Learner.of_update hupdate
    rw [hframe]
    exact hready
  rw [run_trainStep, hdrawn]
  simp only [hupdate]
  constructor
  · apply Action.outcome_bind_pure
    exact (report_of_ready (t := { drawn with learner := learner }) hupdated record).1
  · obtain ⟨loggers, hlast⟩ := learner_of_report record { drawn with learner := learner }
    rw [Action.state_bind_pure]
    exact ⟨loggers, hlast⟩

/-- Learners in the same position do the same with the same item. -/
theorem trainStep_alike (h : x.learner.Alike y.learner) (hx : x.learner.Ready bound)
    (hy : y.learner.Ready bound) {item : Outcome β}
    (hitem : (feed.next (x.start feed).source).1 = some item)
    (hitem' : (feed'.next (y.start feed').source).1 = some item) :
    Agree StepRecord.SameStep ((trainStep feed).run x).1 ((trainStep feed').run y).1 ∧
      ((trainStep feed).run x).2.learner.Alike ((trainStep feed').run y).2.learner := by
  obtain ⟨x', hdrawn, hlearner⟩ := run_nextBatch hitem
  obtain ⟨y', hdrawn', hlearner'⟩ := run_nextBatch hitem'
  have halike : x'.learner.Alike y'.learner := by
    rw [hlearner, hlearner']
    exact h.aside true true x.learner.loggers y.learner.loggers
  have hready : x'.learner.Ready bound := by
    rw [hlearner]
    exact hx
  have hready' : y'.learner.Ready bound := by
    rw [hlearner']
    exact hy
  cases item with
  | error e =>
      rw [run_trainStep, run_trainStep, hdrawn, hdrawn']
      exact ⟨.error e, halike⟩
  | ok batch =>
      have hagree := halike.update batch
      cases hux : x'.learner.update batch with
      | error e =>
          rw [hux] at hagree
          generalize huy : y'.learner.update batch = uy at hagree
          cases hagree
          rw [run_trainStep, run_trainStep, hdrawn, hdrawn']
          simp only [hux, huy]
          exact ⟨.error e, halike⟩
      | ok updated =>
          rw [hux] at hagree
          generalize huy : y'.learner.update batch = uy at hagree
          cases hagree with
          | @ok _ updated' hsame =>
              obtain ⟨hupdated, hrecord⟩ := hsame
              obtain ⟨houtcome, loggers, hlast⟩ := trainStep_of_update hdrawn hux hready
              obtain ⟨houtcome', loggers', hlast'⟩ := trainStep_of_update hdrawn' huy hready'
              rw [houtcome, houtcome', hlast, hlast']
              exact ⟨.ok hrecord, hupdated.aside _ _ loggers loggers'⟩

/-- Learners in the same position stay there, step by step, as long as they are given the same
items. -/
theorem run_alike (h : x.learner.Alike y.learner) (hx : x.learner.Ready bound)
    (hy : y.learner.Ready bound) {items : List (Outcome β)}
    (hitems : feed.Delivers (x.start feed).source items)
    (hitems' : feed'.Delivers (y.start feed').source items)
    (hbound : ∀ n ≤ items.length, (after feed n x).learner.step < bound) :
    ∀ n < items.length,
      Agree StepRecord.SameStep ((trainStep feed).run (after feed n x)).1
          ((trainStep feed').run (after feed' n y)).1 ∧
        (after feed (n + 1) x).learner.Alike (after feed' (n + 1) y).learner := by
  induction items generalizing x y with
  | nil =>
      intro n hn
      exact absurd hn (Nat.not_lt_zero n)
  | cons item items ih =>
      obtain ⟨hagree, halike⟩ := trainStep_alike h hx hy hitems.1 hitems'.1
      have hbelow : ((trainStep feed).run x).2.learner.step < bound :=
        hbound 1 (Nat.succ_le_succ (Nat.zero_le _))
      have hbelow' : ((trainStep feed').run y).2.learner.step < bound := by
        have hstep : ((trainStep feed).run x).2.learner.step =
            ((trainStep feed').run y).2.learner.step := halike.trained.step
        rwa [← hstep]
      have hready := clocked_trainStep bound feed x (fun _ => hx) hbelow
      have hready' := clocked_trainStep bound feed' y (fun _ => hy) hbelow'
      intro n hn
      cases n with
      | zero => exact ⟨hagree, halike⟩
      | succ n =>
          refine ih halike hready hready' ?_ ?_ ?_ n (Nat.lt_of_succ_lt_succ hn)
          · rw [source_of_trainStep]
            exact hitems.2
          · rw [source_of_trainStep]
            exact hitems'.2
          · intro m hm
            exact hbound (m + 1) (Nat.succ_le_succ hm)

end

/-- A learner that takes over the checkpoint of another one with the same form of model, objective,
schedule and settings shows the same weights and state, and from then on does the same with the same
items: its steps fail alike or have the same number, loss and rate, and the two show the same
weights and state after every one of them.  The checkpoint of a learner without moments shows zeros
in their place.  So if there are none, it must not matter whether a mean starts at zero or with the
first gradient (`hstart`), as it does not over exact arithmetic. -/
theorem resume_exact {feed : Feed σ β} {feed' : Feed σ' β} {x : Training α ρ β σ}
    {y : Training α ρ β σ'} (hx : x.Reached feed (Nat.pow 2 63))
    (hy : y.Reached feed' (Nat.pow 2 63))
    (htask : y.learner.SameTask x.learner) (hids : x.learner.objective.IgnoresIds)
    (hcomplete : x.learner.objective.Complete x.learner.model)
    (hstart : x.learner.optimizer.records = [] → x.learner.optimizer.settings.StartsAtZero) :
    ∃ loaded restored, y.learner.setWeights x.learner.weights = .ok loaded ∧
      loaded.setOptimizerState x.learner.optimizerState = .ok restored ∧
      restored.weights = x.learner.weights ∧
      restored.optimizerState = x.learner.optimizerState ∧
      ∀ items : List (Outcome β), feed.Delivers (x.start feed).source items →
        feed'.Delivers (start feed' { y with learner := restored }).source items →
        (∀ n ≤ items.length, (after feed n x).learner.step < Nat.pow 2 63) →
        ∀ n < items.length,
          Agree StepRecord.SameStep ((trainStep feed).run (after feed n x)).1
            ((trainStep feed').run (after feed' n { y with learner := restored })).1 ∧
          (after feed (n + 1) x).learner.weights =
            (after feed' (n + 1) { y with learner := restored }).learner.weights ∧
          (after feed (n + 1) x).learner.optimizerState =
            (after feed' (n + 1) { y with learner := restored }).learner.optimizerState := by
  obtain ⟨model, optimizer, hset, hrestore, halike⟩ :=
    Learner.exists_restored hx.paced hy.sound htask hids hcomplete hstart
  refine ⟨_, _, hset, hrestore, halike.trained.weights.symm, halike.trained.state.symm, ?_⟩
  intro items hitems hitems' hbound n hn
  have hready := hx.ready (by decide)
  have hready' := hy.ready (by decide)
  obtain ⟨hagree, hafter⟩ := run_alike
    (y := { y with learner := { y.learner with model := model, optimizer := optimizer } })
    halike hready hready' hitems hitems' hbound n hn
  exact ⟨hagree, hafter.trained.weights, hafter.trained.state⟩

namespace Line

open scoped Exact Advantage.Line

/-- Rationals have no text. -/
scoped instance shown : Shown ℚ := ⟨Decimal.binary64, fun _ => .nan⟩

scoped instance narrows : Narrows ℚ ℚ := ⟨id⟩

/-- A learner that is yet to be called. -/
def fresh (id : Nat) (w : Float32) :
    Training Float32 Float (ValueBatch Float32) (Feed.Listed (ValueBatch Float32)) :=
  ofLine id w 0.5

/-- A learner after one update. -/
def trained : Training Float32 Float (ValueBatch Float32) (Feed.Listed (ValueBatch Float32)) :=
  ((perform points .trainStep).run (fresh 7 0.25)).2

theorem reached_trained : trained.Reached points (Nat.pow 2 63) :=
  .call .trainStep (reached_ofLine 7 0.25 0.5 points _) (by decide +kernel)

theorem sameTask_trained : trained.learner.SameTask (fresh 7 0.25).learner :=
  (preserves_perform (Learner.invariant_sameTask _) points .trainStep (fresh 7 0.25)
    ⟨(reached_ofLine 7 0.25 0.5 points 0).sound, rfl, rfl, rfl, rfl, rfl⟩).2

/-- After a step a feed of one point goes on with it. -/
theorem delivers_trained (id : Nat) (w : α) (rate : ρ) (batch : ValueBatch α) :
    (Feed.ofList [.ok batch] true).Delivers
      (start (.ofList [.ok batch] true)
        ((perform (.ofList [.ok batch] true) .trainStep).run (ofLine id w rate)).2).source
      [.ok batch, .ok batch] := by
  have hstep : ((perform (.ofList [.ok batch] true) .trainStep).run (ofLine id w rate)).2 =
      ((trainStep (.ofList [.ok batch] true)).run (ofLine id w rate)).2 :=
    Action.state_bind_pure _ _ _
  rw [hstep, source_of_trainStep]
  exact ⟨rfl, rfl, trivial⟩

/-- A learner over exact arithmetic that is yet to be called. -/
def exactFresh (id : Nat) (w : ℚ) :
    Training ℚ ℚ (ValueBatch ℚ) (Feed.Listed (ValueBatch ℚ)) :=
  ofLine id w (1 / 2)

/-- The feed that gives out one point over and over again. -/
def exactPoints : Feed (Feed.Listed (ValueBatch ℚ)) (ValueBatch ℚ) :=
  .ofList [.ok (point 2 1)] true

/-- A learner over exact arithmetic after one update. -/
def exactTrained : Training ℚ ℚ (ValueBatch ℚ) (Feed.Listed (ValueBatch ℚ)) :=
  ((perform exactPoints .trainStep).run (exactFresh 0 1)).2

theorem reached_exactTrained : exactTrained.Reached exactPoints (Nat.pow 2 63) :=
  .call .trainStep (reached_ofLine 0 1 (1 / 2) exactPoints _) (by decide +kernel)

theorem sameTask_exactTrained :
    exactTrained.learner.SameTask (exactFresh 7 (1 / 4)).learner :=
  (preserves_perform (Learner.invariant_sameTask (exactFresh 7 (1 / 4)).learner) exactPoints
    .trainStep (exactFresh 0 1)
    ⟨(reached_ofLine 0 1 (1 / 2) exactPoints 0).sound, rfl, rfl, rfl, rfl, rfl⟩).2

theorem startsAtZero_standard : (Adam.Settings.standard : Adam.Settings ℚ).StartsAtZero :=
  fun _ => ⟨by rw [mul_zero, zero_add], by rw [mul_zero, zero_add]⟩

/-- `y` takes over the checkpoint of `x` and does the same with the next `count` items. -/
def GoesOn (feed : Feed σ β) (x y : Training α ρ β σ) (count : Nat) : Prop :=
  ∃ loaded restored, y.learner.setWeights x.learner.weights = .ok loaded ∧
    loaded.setOptimizerState x.learner.optimizerState = .ok restored ∧
    ∀ n < count,
      Agree StepRecord.SameStep ((trainStep feed).run (after feed n x)).1
        ((trainStep feed).run (after feed n { y with learner := restored })).1 ∧
      (after feed (n + 1) x).learner.weights =
        (after feed (n + 1) { y with learner := restored }).learner.weights ∧
      (after feed (n + 1) x).learner.optimizerState =
        (after feed (n + 1) { y with learner := restored }).learner.optimizerState

/-- A fresh learner of a line with another identity and weight goes on where a trained one is.  And
over exact arithmetic, where means start at zero, a trained one goes on where a fresh one is. -/
theorem resume_exact_line :
    GoesOn points trained (fresh 0 1) 2 ∧
      GoesOn exactPoints (exactFresh 7 (1 / 4)) exactTrained 2 := by
  have hsame := sameTask_trained
  constructor
  · have htask : (fresh 0 1).learner.SameTask trained.learner :=
      ⟨hsame.objective.symm, hsame.schedule.symm, hsame.settings.symm, hsame.form.symm⟩
    have hids : trained.learner.objective.IgnoresIds := by
      rw [hsame.objective]
      exact Objective.value_ignoresIds
    have hcomplete : trained.learner.objective.Complete trained.learner.model := by
      rw [hsame.objective]
      exact (Objective.value_ofModel.complete (Perceptron.line_fits 7 0.25)
        (Perceptron.line_tracked 7 0.25)).of_sameForm hsame.form
    have hrecords : trained.learner.optimizer.records.length = 1 := by decide +kernel
    obtain ⟨loaded, restored, hset, hrestore, _, _, hrun⟩ := resume_exact reached_trained
      (reached_ofLine 0 1 0.5 points _) htask hids hcomplete
      (fun hempty => absurd (congrArg List.length hempty) (by rw [hrecords]; decide))
    refine ⟨loaded, restored, hset, hrestore, ?_⟩
    obtain ⟨_, _, rfl⟩ := Learner.of_setWeights hset
    obtain ⟨_, _, rfl⟩ := Learner.of_setOptimizerState hrestore
    exact hrun _ (delivers_trained 7 0.25 0.5 (point 2 1)) ⟨rfl, rfl, trivial⟩ (by decide +kernel)
  · have hcomplete : (Objective.value : Objective ℚ _).Complete (Perceptron.line 7 (1 / 4)) :=
      Objective.value_ofModel.complete (Perceptron.line_fits 7 (1 / 4))
        (Perceptron.line_tracked 7 (1 / 4))
    obtain ⟨loaded, restored, hset, hrestore, _, _, hrun⟩ :=
      resume_exact (reached_ofLine 7 (1 / 4) (1 / 2) exactPoints _) reached_exactTrained
        sameTask_exactTrained Objective.value_ignoresIds hcomplete fun _ => startsAtZero_standard
    refine ⟨loaded, restored, hset, hrestore, ?_⟩
    obtain ⟨_, _, rfl⟩ := Learner.of_setWeights hset
    obtain ⟨_, _, rfl⟩ := Learner.of_setOptimizerState hrestore
    refine hrun [.ok (point 2 1), .ok (point 2 1)] ⟨rfl, rfl, trivial⟩ ?_ (by decide +kernel)
    rw [source_start exactPoints exactTrained]
    exact delivers_trained 0 1 (1 / 2) (point 2 1)

end Line

end Training

end PolicyGradient
