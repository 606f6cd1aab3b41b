import Mathlib
import PolicyGradient.Objective
import PolicyGradient.Proofs.Diagnostics

/-!
Objectives and the losses of lists.

In exact arithmetic the loss of an objective is the one that the list form gives for the row-major
data.  Tensors of different sizes are a mismatch, so that nothing is stretched on the way
(`Objective.losses_listed`).
-/

namespace PolicyGradient

open Outcome

section

variable {α : Type}

/-- The computation ends with a mismatch of shapes. -/
def Outcome.Mismatch (x : Outcome α) : Prop :=
  ∃ what expected actual, x = failWith (.shapeMismatch what expected actual)

/-- The computation ends with a result or with a mismatch of shapes. -/
def Outcome.OnlyMismatches (x : Outcome α) : Prop :=
  (∃ a, x = .ok a) ∨ x.Mismatch

theorem Outcome.onlyMismatches_ensureShape (what : Subject) (actual expected : List Nat) :
    (ensureShape what actual expected).OnlyMismatches := by
  unfold ensureShape
  split
  · exact .inl ⟨(), rfl⟩
  · exact .inr ⟨what, expected, actual, rfl⟩

theorem Outcome.Mismatch.bind {β : Type} {x : Outcome α} (h : x.Mismatch) (f : α → Outcome β) :
    (x >>= f).Mismatch := by
  obtain ⟨what, expected, actual, rfl⟩ := h
  exact ⟨what, expected, actual, rfl⟩

theorem Outcome.OnlyMismatches.bind {β : Type} {x : Outcome α} {f : α → Outcome β}
    (hx : x.OnlyMismatches) (hf : ∀ a, x = .ok a → (f a).OnlyMismatches) :
    (x >>= f).OnlyMismatches := by
  rcases hx with ⟨a, rfl⟩ | hx
  · exact hf a rfl
  · exact .inr (hx.bind f)

/-- A mismatch follows, or there is one already. -/
theorem Outcome.OnlyMismatches.mismatch_bind {β : Type} {x : Outcome α} {f : α → Outcome β}
    (hx : x.OnlyMismatches) (hf : ∀ a, x = .ok a → (f a).Mismatch) : (x >>= f).Mismatch := by
  rcases hx with ⟨a, rfl⟩ | hx
  · exact hf a rfl
  · exact hx.bind f

theorem PolicyBatch.onlyMismatches_validate (batch : PolicyBatch α) :
    batch.validate.OnlyMismatches :=
  (onlyMismatches_ensureShape _ _ _).bind fun _ _ =>
    (onlyMismatches_ensureShape _ _ _).bind fun _ _ => onlyMismatches_ensureShape _ _ _

theorem Tensor.exists_withDepth (t : Tensor α 2) : ∃ u, t.withDepth = .ok u ∧
    u.shape = [t.axis 0, t.axis 1, 1] ∧ u.toList = t.toList := by
  have hvolume : Size.volume t.shape =
      Size.volume (#v[t.axis 0, t.axis 1, 1] : Vector Nat 3).toList := by
    rw [t.shape_eq_two]
    simp [Size.volume]
  obtain ⟨u, hu, _⟩ := Tensor.exists_reshape hvolume
  exact ⟨u, hu, of_reshape hu⟩

/-- There is one log-probability for each timestep of the inputs. -/
def Distribution.IsPerTimestep (distribution : Distribution α) : Prop :=
  ∀ inputs actions logProbs, distribution.logProb inputs actions = .ok logProbs →
    logProbs.shape = leadingSizes inputs

section

variable {loss : PolicyLoss α} {model : Model α} {batch : PolicyBatch α} {inputs : Tensor α 3}

theorem Objective.hasSizes_of_checks (hvalid : batch.validate = .ok ())
    (hcheck : ensureShape .policyOutput (leadingSizes inputs) batch.advantages.shape = .ok ()) :
    batch.HasSizes (inputs.axis 0) (inputs.axis 1) := by
  have hlead : leadingSizes inputs = batch.advantages.shape := ensureShape_eq_ok.mp hcheck
  obtain ⟨hb, hl⟩ := Tensor.axes_of_shape hlead.symm
  rw [← hb, ← hl]
  exact PolicyBatch.validate_eq_ok.mp hvalid

theorem Objective.hasSizes_of_loss {x : α} (h : (policy loss).loss model batch = .ok x) :
    ∃ inputs, model.output batch.observations = .ok inputs ∧
      batch.HasSizes (inputs.axis 0) (inputs.axis 1) := by
  obtain ⟨_, hvalid, h⟩ := bind_eq_ok.mp h
  obtain ⟨_, _, h⟩ := bind_eq_ok.mp h
  obtain ⟨inputs, houtput, h⟩ := bind_eq_ok.mp h
  obtain ⟨_, hcheck, _⟩ := bind_eq_ok.mp h
  exact ⟨inputs, houtput, hasSizes_of_checks hvalid hcheck⟩

/-- After the checks a policy loss is that of the data, with the depth that it takes. -/
theorem Objective.policy_loss_eq (houtput : model.output batch.observations = .ok inputs)
    (hsizes : batch.HasSizes (inputs.axis 0) (inputs.axis 1)) : ∃ old,
      (policy loss).loss model batch = loss.value inputs batch.actions batch.advantages old ∧
        old.shape = [inputs.axis 0, inputs.axis 1, 1] ∧
        old.toList = batch.oldLogProbs.toList := by
  obtain ⟨old, hold, hshape, hentries⟩ := batch.oldLogProbs.exists_withDepth
  obtain ⟨hb, hl⟩ := Tensor.axes_of_shape hsizes.oldLogProbs
  obtain ⟨hb', hl'⟩ := Tensor.axes_of_shape hsizes.advantages
  have hvalid : batch.validate = .ok () := by
    apply PolicyBatch.validate_eq_ok.mpr
    rwa [hb', hl']
  have hcheck : ensureShape .policyOutput (leadingSizes inputs) batch.advantages.shape = .ok () :=
    ensureShape_eq_ok.mpr hsizes.advantages.symm
  refine ⟨old, ?_, by rw [hshape, hb, hl], hentries⟩
  change (batch.validate >>= fun _ => batch.oldLogProbs.withDepth >>= fun _ =>
    model.output batch.observations >>= _) = _
  rw [hvalid, hold, houtput]
  change (ensureShape .policyOutput _ _ >>= _) = _
  rw [hcheck]
  rfl

theorem Objective.policy_mismatch (houtput : model.output batch.observations = .ok inputs)
    (hdiffer : ¬ batch.HasSizes (inputs.axis 0) (inputs.axis 1)) :
    ((policy loss).loss model batch).Mismatch := by
  refine batch.onlyMismatches_validate.mismatch_bind fun _ hvalid => ?_
  obtain ⟨old, hold, _⟩ := batch.oldLogProbs.exists_withDepth
  change (batch.oldLogProbs.withDepth >>= fun _ => model.output batch.observations >>= _).Mismatch
  rw [hold, houtput]
  refine (onlyMismatches_ensureShape .policyOutput _ _).mismatch_bind fun _ hcheck => ?_
  exact absurd (hasSizes_of_checks hvalid hcheck) hdiffer

/-- There are timesteps, with log-probabilities of both policies and an advantage at each. -/
theorem PolicyLoss.beside_of_hasSizes {distribution : Distribution α} {logProbs : Tensor α 2}
    {old : Tensor α 3} (hdistribution : distribution.IsPerTimestep)
    (hb : 0 < batch.advantages.axis 0) (hl : 0 < batch.advantages.axis 1)
    (hsizes : batch.HasSizes (inputs.axis 0) (inputs.axis 1))
    (hlogProb : distribution.logProb inputs batch.actions = .ok logProbs)
    (hold : old.shape = [inputs.axis 0, inputs.axis 1, 1]) :
    Beside logProbs batch.advantages old := by
  have hshape : logProbs.shape = [inputs.axis 0, inputs.axis 1] := hdistribution _ _ _ hlogProb
  obtain ⟨hb', hl'⟩ := Tensor.axes_of_shape hshape
  obtain ⟨hb'', hl''⟩ := Tensor.axes_of_shape hsizes.advantages
  refine ⟨hsizes.advantages.trans hshape.symm, by rw [hold, hb', hl'], ?_⟩
  rw [Tensor.length_toList_eq, hshape, ← hb'', ← hl'']
  simp [Size.volume, hb, hl]

end

variable [Scalar α]

/-- There is a value loss of predictions, targets and mask of one shape only. -/
theorem Objective.value_loss_eq_ok {model : Model α} {batch : ValueBatch α} {x : α} :
    value.loss model batch = .ok x ↔ ∃ predictions,
      model.output batch.observations = .ok predictions ∧
        predictions.shape = batch.targets.shape ∧ batch.mask.shape = batch.targets.shape ∧
        ValueLoss.value predictions batch.targets batch.mask = .ok x := by
  simp only [value, bind_eq_ok, ensureShape_eq_ok, exists_const]

theorem Distribution.categorical_isPerTimestep (count : Nat) :
    (categorical count : Distribution α).IsPerTimestep := by
  intro inputs actions logProbs h
  obtain ⟨_, _, hlogProbs⟩ := bind_eq_ok.mp h
  cases hlogProbs
  rfl

theorem Distribution.gaussian_isPerTimestep (depth : Nat) (std : α) :
    (gaussian depth std).IsPerTimestep := by
  intro inputs actions logProbs h
  obtain ⟨_, _, hlogProbs⟩ := bind_eq_ok.mp h
  exact (Tensor.of_reshape hlogProbs).1

end

open scoped Exact

variable {K : Type} [OrderedField K] [Exact.Elementary K]

namespace Objective

/-- The value loss is the list form of the row-major data, and of nothing else. -/
structure ValueListed (model : Model K) (batch : ValueBatch K) : Prop where
  listed : ∀ x, value.loss model batch = .ok x → ∃ predictions,
    model.output batch.observations = .ok predictions ∧
      batch.targets.toList.length = predictions.toList.length ∧
      batch.mask.toList.length = predictions.toList.length ∧
      Diagnostic.weightedSquares predictions.toList batch.targets.toList batch.mask.toList = .ok x
  made : ∀ predictions, model.output batch.observations = .ok predictions →
    predictions.shape = batch.targets.shape → batch.mask.shape = batch.targets.shape →
      ∃ x, value.loss model batch = .ok x
  /-- Tensors are not stretched to one shape. -/
  mismatch : ∀ predictions, model.output batch.observations = .ok predictions →
    predictions.shape ≠ batch.targets.shape ∨ batch.mask.shape ≠ batch.targets.shape →
      (value.loss model batch).Mismatch

theorem value_listed (model : Model K) (batch : ValueBatch K) : ValueListed model batch := by
  have hlengths : ∀ predictions : Tensor K 3, predictions.shape = batch.targets.shape →
      batch.mask.shape = batch.targets.shape →
      batch.targets.toList.length = predictions.toList.length ∧
        batch.mask.toList.length = predictions.toList.length := by
    intro predictions hpredictions hmask
    simp only [Tensor.length_toList_eq, hpredictions, hmask, and_self]
  refine ⟨fun x hloss => ?_, fun predictions houtput hpredictions hmask => ?_,
    fun predictions houtput hdiffer => ?_⟩
  · obtain ⟨predictions, houtput, hpredictions, hmask, hvalue⟩ := value_loss_eq_ok.mp hloss
    obtain ⟨htargets, hweights⟩ := hlengths predictions hpredictions hmask
    rw [ValueLoss.value_eq hpredictions hmask] at hvalue
    exact ⟨predictions, houtput, htargets, hweights, hvalue⟩
  · obtain ⟨htargets, hweights⟩ := hlengths predictions hpredictions hmask
    have hvalue := (ValueLoss.value_eq hpredictions hmask).trans
      (Diagnostic.weightedSquares_eq htargets hweights)
    exact ⟨_, value_loss_eq_ok.mpr ⟨predictions, houtput, hpredictions, hmask, hvalue⟩⟩
  · change (model.output batch.observations >>= _).Mismatch
    rw [houtput]
    refine (onlyMismatches_ensureShape .valueOutput _ _).mismatch_bind fun _ hshape =>
      (onlyMismatches_ensureShape .valueMask _ _).mismatch_bind fun _ hmask => ?_
    rcases hdiffer with hdiffer | hdiffer
    · exact absurd (ensureShape_eq_ok.mp hshape) hdiffer
    · exact absurd (ensureShape_eq_ok.mp hmask) hdiffer

/-- A policy loss is its list form of the row-major data, one number for each timestep, and of
nothing else. -/
structure PolicyListed (distribution : Distribution K) (loss : PolicyLoss K)
    (form : List K → List K → List K → Outcome K) (model : Model K) (batch : PolicyBatch K) :
    Prop where
  listed : ∀ x, (policy loss).loss model batch = .ok x → ∃ inputs logProbs,
    model.output batch.observations = .ok inputs ∧
      distribution.logProb inputs batch.actions = .ok logProbs ∧
      (∀ entries ∈ [logProbs.toList, batch.oldLogProbs.toList, batch.advantages.toList],
        entries.length = batch.advantages.axis 0 * batch.advantages.axis 1) ∧
      form logProbs.toList batch.oldLogProbs.toList batch.advantages.toList = .ok x
  made : ∀ inputs logProbs, model.output batch.observations = .ok inputs →
    distribution.logProb inputs batch.actions = .ok logProbs →
    batch.HasSizes (inputs.axis 0) (inputs.axis 1) →
      ∃ x, (policy loss).loss model batch = .ok x
  /-- Tensors are not stretched to the same timesteps. -/
  mismatch : ∀ inputs, model.output batch.observations = .ok inputs →
    ¬ batch.HasSizes (inputs.axis 0) (inputs.axis 1) → ((policy loss).loss model batch).Mismatch
  mismatch_logProbs : ∀ inputs logProbs, model.output batch.observations = .ok inputs →
    distribution.logProb inputs batch.actions = .ok logProbs →
    logProbs.shape ≠ batch.advantages.shape ∨ batch.oldLogProbs.shape ≠ batch.advantages.shape →
      ((policy loss).loss model batch).Mismatch

section

variable {distribution : Distribution K} {loss : PolicyLoss K}
variable {form : List K → List K → List K → Outcome K}

theorem policy_listed {batch : PolicyBatch K} (hdistribution : distribution.IsPerTimestep)
    (hform : PolicyLoss.HasListForm distribution loss form) (hb : 0 < batch.advantages.axis 0)
    (hl : 0 < batch.advantages.axis 1) (model : Model K) :
    PolicyListed distribution loss form model batch := by
  refine ⟨fun x hloss => ?_, fun inputs logProbs houtput hlogProb hsizes => ?_,
    fun inputs houtput hdiffer => policy_mismatch houtput hdiffer,
    fun inputs logProbs houtput hlogProb hdiffer => ?_⟩
  · obtain ⟨inputs, houtput, hsizes⟩ := hasSizes_of_loss hloss
    obtain ⟨old, hvalue, hold, hentries⟩ := @policy_loss_eq _ loss _ _ _ houtput hsizes
    rw [hvalue] at hloss
    obtain ⟨logProbs, hlogProb⟩ := hform.exists_logProb hloss
    have hbeside := PolicyLoss.beside_of_hasSizes hdistribution hb hl hsizes hlogProb hold
    rw [hform.value_eq hlogProb hbeside, hentries] at hloss
    refine ⟨inputs, logProbs, houtput, hlogProb, ?_, hloss⟩
    have hcount : batch.advantages.toList.length =
        batch.advantages.axis 0 * batch.advantages.axis 1 := by
      rw [Tensor.length_toList_eq, batch.advantages.shape_eq_two]
      simp [Size.volume]
    have hlogProbs := hbeside.length_advantages.symm.trans hcount
    have holds := hbeside.length_old.trans hlogProbs
    rw [hentries] at holds
    simp [hlogProbs, holds, hcount]
  · obtain ⟨old, hvalue, hold, hentries⟩ := @policy_loss_eq _ loss _ _ _ houtput hsizes
    have hbeside := PolicyLoss.beside_of_hasSizes hdistribution hb hl hsizes hlogProb hold
    rw [hvalue, hform.value_eq hlogProb hbeside]
    exact hform.exists_form hbeside.length_old hbeside.length_advantages
  · refine policy_mismatch houtput fun hsizes => ?_
    have hshape : logProbs.shape = [inputs.axis 0, inputs.axis 1] := hdistribution _ _ _ hlogProb
    rcases hdiffer with hdiffer | hdiffer
    · exact hdiffer (hshape.trans hsizes.advantages.symm)
    · exact hdiffer (hsizes.oldLogProbs.trans hsizes.advantages.symm)

/-- A loss is the list form of the row-major data: the value loss of any tensors, and the policy
loss of tensors with at least one slice and one timestep. -/
theorem losses_listed (hdistribution : distribution.IsPerTimestep)
    (hform : PolicyLoss.HasListForm distribution loss form) (model : Model K)
    (values : ValueBatch K) (batch : PolicyBatch K) (hb : 0 < batch.advantages.axis 0)
    (hl : 0 < batch.advantages.axis 1) :
    ValueListed model values ∧ PolicyListed distribution loss form model batch :=
  ⟨value_listed model values, policy_listed hdistribution hform hb hl model⟩

end

namespace Line

/-- Functions on the rationals in place of the elementary ones.  The exponential is one at zero. -/
scoped instance elementary : Exact.Elementary ℚ where
  exp x := 1 + x
  ln := id
  sqrt := id
  tanh := id
  pi := 3
  truncate? x := some x.num

/-- A model without weights, which gives out its observations. -/
def mirror : Model ℚ where
  architecture := ⟨fun _ observations => .ok observations, fun _ _ _ => .ok []⟩
  layers := []

/-- One slice with a number for each timestep. -/
def row (xs : List ℚ) : Tensor ℚ 2 :=
  ⟨#v[1, xs.length], xs.toArray, by simp [Size.volume]⟩

/-- One slice with a vector of one number for each timestep. -/
def slice (xs : List ℚ) : Tensor ℚ 3 :=
  ⟨#v[1, xs.length, 1], xs.toArray, by simp [Size.volume]⟩

/-- A real timestep and a padded one. -/
def returns : ValueBatch ℚ :=
  ⟨slice [0, 1], slice [1, 1], slice [1, 0]⟩

/-- Two timesteps with these recorded log-probabilities. -/
def steps (olds : List ℚ) : PolicyBatch ℚ :=
  ⟨slice [0, 1], slice [1, 2], row [1, -2], row olds⟩

/-- Losses of two timesteps, of which one is not stretched to both. -/
theorem losses_listed_steps :
    (∃ x, value.loss mirror returns = .ok x ∧
      Diagnostic.weightedSquares [0, 1] [1, 1] [1, 0] = .ok x) ∧
    (∃ logProbs x, (Distribution.gaussian 1 1).logProb (steps [0, 0]).observations (steps [0, 0]).actions =
        .ok logProbs ∧
      (policy (.ppo (.gaussian 1 1) (1 / 5))).loss mirror (steps [0, 0]) = .ok x ∧
      Diagnostic.ppo logProbs.toList [0, 0] [1, -2] (1 / 5) = .ok x) ∧
    ((policy (.ppo (.gaussian 1 1) (1 / 5))).loss mirror (steps [0])).Mismatch := by
  have hepsilon : (0 : ℚ) ≤ 1 / 5 := by norm_num
  obtain ⟨hvalue, hpolicy⟩ := losses_listed (Distribution.gaussian_isPerTimestep 1 1)
    (.ppo hepsilon) mirror returns (steps [0, 0]) (by decide) (by decide)
  obtain ⟨_, hpolicy'⟩ := losses_listed (Distribution.gaussian_isPerTimestep 1 1)
    (.ppo hepsilon) mirror returns (steps [0]) (by decide) (by decide)
  refine ⟨?_, ?_, ?_⟩
  · obtain ⟨x, hx⟩ := hvalue.made _ rfl rfl rfl
    obtain ⟨_, houtput, _, _, hform⟩ := hvalue.listed x hx
    cases houtput
    exact ⟨x, hx, hform⟩
  · have hmade : ∃ logProbs, (Distribution.gaussian 1 1).logProb (steps [0, 0]).observations
        (steps [0, 0]).actions = .ok logProbs :=
      exists_of_isOk (by decide +kernel)
    obtain ⟨logProbs, hlogProb⟩ := hmade
    obtain ⟨x, hx⟩ := hpolicy.made _ logProbs rfl hlogProb ⟨rfl, rfl, rfl, rfl⟩
    obtain ⟨_, logProbs', houtput, hlogProb', _, hform⟩ := hpolicy.listed x hx
    cases houtput
    exact ⟨logProbs', x, hlogProb', hx, hform⟩
  · exact hpolicy'.mismatch _ rfl fun hsizes => absurd hsizes.oldLogProbs (by decide)

end Line

end Objective

end PolicyGradient
