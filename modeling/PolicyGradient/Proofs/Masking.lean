import Mathlib
import PolicyGradient.Proofs.ListForms
import PolicyGradient.Proofs.Pointwise

/-!
Padding in value updates.

With a mask of zeros and ones the value loss is the mean square over the real timesteps, and zero if
there are none.  A model that works at each timestep by itself has there what it would have with any
other padding (`Objective.value_ignoresPadding`).
-/

namespace PolicyGradient

open Outcome
open scoped Exact

/-- The positions of slices and timesteps in row-major order. -/
theorem sum_steps {K : Type} [OrderedField K] (g : Nat → Nat → K) (b l : Nat) :
    ((List.range (b * l)).map fun i => g (i / l) (i % l)).sum =
      ∑ p ∈ Finset.range b ×ˢ Finset.range l, g p.1 p.2 := by
  rw [Finset.sum_product]
  induction b with
  | zero => simp
  | succ b ih =>
      have hrow : ((List.range l).map fun t => g ((b * l + t) / l) ((b * l + t) % l)).sum =
          ∑ t ∈ Finset.range l, g b t := by
        -- a sum over a range is that of the list
        refine congrArg List.sum (List.map_congr_left fun t ht => ?_)
        have ht : t < l := List.mem_range.mp ht
        rw [Nat.mul_comm, Nat.mul_add_div (by omega), Nat.div_eq_of_lt ht, Nat.mul_add_mod,
          Nat.mod_eq_of_lt ht, Nat.add_zero]
      rw [Finset.sum_range_succ, Nat.succ_mul, List.range_add, List.map_append, List.sum_append, ih,
        List.map_map]
      exact congrArg _ hrow

namespace Tensor

variable {α : Type} [Zero α]

theorem toList_steps {t : Tensor α 3} {b l : Nat} (h : t.shape = [b, l, 1]) :
    t.toList = (List.range (b * l)).map fun i => t.entry [i / l, i % l, 0] := by
  rw [t.toList_eq_map_entry, h]
  simp [Size.volume, Shape.unravel, Nat.mod_one]

end Tensor

variable {K : Type} [OrderedField K] [Exact.Elementary K]

namespace ValueBatch

/-- The mask has a zero or a one at every timestep. -/
def Masked (batch : ValueBatch K) : Prop :=
  ∀ b t, batch.mask.HasStep b t →
    batch.mask.entry [b, t, 0] = 0 ∨ batch.mask.entry [b, t, 0] = 1

/-- The timesteps with a one in the mask. -/
def real (batch : ValueBatch K) : Finset (Nat × Nat) :=
  (Finset.range (batch.mask.axis 0) ×ˢ Finset.range (batch.mask.axis 1)).filter fun p =>
    batch.mask.entry [p.1, p.2, 0] = 1

/-- The mean of the squared distances at the real timesteps. -/
def meanSquare (batch : ValueBatch K) (predictions : Tensor K 3) : K :=
  (∑ p ∈ batch.real,
    (predictions.entry [p.1, p.2, 0] - batch.targets.entry [p.1, p.2, 0]) ^ 2) / batch.real.card

variable {batch other : ValueBatch K} {predictions : Tensor K 3}

theorem mem_real {p : Nat × Nat} : p ∈ batch.real ↔
    batch.mask.HasStep p.1 p.2 ∧ batch.mask.entry [p.1, p.2, 0] = 1 := by
  simp [real, Tensor.HasStep]

theorem meanSquare_nonneg : 0 ≤ batch.meanSquare predictions :=
  div_nonneg (Finset.sum_nonneg fun _ _ => sq_nonneg _) (Nat.cast_nonneg _)

theorem meanSquare_congr {predictions' : Tensor K 3} (hreal : other.real = batch.real)
    (hpredictions : ∀ p ∈ batch.real,
      predictions'.entry [p.1, p.2, 0] = predictions.entry [p.1, p.2, 0])
    (htargets : ∀ p ∈ batch.real,
      other.targets.entry [p.1, p.2, 0] = batch.targets.entry [p.1, p.2, 0]) :
    other.meanSquare predictions' = batch.meanSquare predictions := by
  rw [meanSquare, meanSquare, hreal]
  congr 1
  apply Finset.sum_congr rfl
  intro p hp
  rw [hpredictions p hp, htargets p hp]

/-- A sum that is weighted with the mask is that over the real timesteps. -/
theorem sum_weighted (hmasked : batch.Masked) (f : Nat → Nat → K) :
    ((List.range (batch.mask.axis 0 * batch.mask.axis 1)).map fun i =>
        batch.mask.entry [i / batch.mask.axis 1, i % batch.mask.axis 1, 0] *
          f (i / batch.mask.axis 1) (i % batch.mask.axis 1)).sum =
      ∑ p ∈ batch.real, f p.1 p.2 := by
  rw [sum_steps (fun b t => batch.mask.entry [b, t, 0] * f b t), real, Finset.sum_filter]
  apply Finset.sum_congr rfl
  intro p hp
  obtain ⟨hb, ht⟩ := Finset.mem_product.mp hp
  rcases hmasked p.1 p.2 ⟨Finset.mem_range.mp hb, Finset.mem_range.mp ht⟩ with h | h
  · simp [h]
  · simp [h]

end ValueBatch

namespace ValueLoss

theorem leastWeight_le_one : (leastWeight : K) ≤ 1 := by
  have hlarge : (1 : K) ≤ ((100000000 : Nat) : K) := by
    exact_mod_cast (by decide : 1 ≤ 100000000)
  exact div_le_one_of_le₀ hlarge (Nat.cast_nonneg _)

variable {batch : ValueBatch K} {predictions : Tensor K 3}

/-- The least weight is not used unless all is padding, and then there is nothing to divide. -/
theorem value_of_masked (hshape : predictions.shape = batch.targets.shape)
    (hmask : batch.mask.shape = batch.targets.shape) (hsingle : batch.mask.axis 2 = 1)
    (hmasked : batch.Masked) :
    value predictions batch.targets batch.mask = .ok (batch.meanSquare predictions) := by
  have hweights : batch.mask.shape = [batch.mask.axis 0, batch.mask.axis 1, 1] :=
    hsingle ▸ batch.mask.shape_eq_three
  have htargets := hmask.symm.trans hweights
  have hpredictions := hshape.trans htargets
  have hlength : batch.targets.toList.length = predictions.toList.length := by
    rw [Tensor.length_toList_eq, Tensor.length_toList_eq, hshape]
  have hlength' : batch.mask.toList.length = predictions.toList.length := by
    rw [Tensor.length_toList_eq, Tensor.length_toList_eq, hshape, hmask]
  rw [value_eq hshape hmask, Diagnostic.weightedSquares_eq hlength hlength',
    Tensor.toList_steps hweights, Tensor.toList_steps htargets, Tensor.toList_steps hpredictions]
  have hsquares := ValueBatch.sum_weighted hmasked fun b t =>
    (predictions.entry [b, t, 0] - batch.targets.entry [b, t, 0]) *
      (predictions.entry [b, t, 0] - batch.targets.entry [b, t, 0])
  have hcount := ValueBatch.sum_weighted hmasked fun _ _ => 1
  simp only [mul_one, Finset.sum_const, nsmul_eq_mul] at hcount
  simp only [List.zipWith_map, List.zipWith_self, hsquares, hcount, ValueBatch.meanSquare, pow_two]
  congr 1
  rcases Nat.eq_zero_or_pos batch.real.card with hnone | hsome
  · rw [Finset.card_eq_zero.mp hnone, Finset.sum_empty, zero_div, zero_div]
  · have hone : (1 : K) ≤ batch.real.card := by exact_mod_cast hsome
    rw [max_eq_left (leastWeight_le_one.trans hone)]

end ValueLoss

namespace ValueBatch

variable {batch other : ValueBatch K} {k : Nat}

/-- The other batch has the same real timesteps, and anything at the others. -/
structure Replaced (batch other : ValueBatch K) : Prop where
  observationShape : other.observations.shape = batch.observations.shape
  targetShape : other.targets.shape = batch.targets.shape
  mask : other.mask = batch.mask
  observations : ∀ p ∈ batch.real,
    other.observations.vectorAt p.1 p.2 = batch.observations.vectorAt p.1 p.2
  targets : ∀ p ∈ batch.real,
    other.targets.entry [p.1, p.2, 0] = batch.targets.entry [p.1, p.2, 0]

/-- The other batch has `k` more timesteps of padding in each slice. -/
structure Extended (batch other : ValueBatch K) (k : Nat) : Prop where
  observationShape : other.observations.shape = [batch.observations.axis 0,
    batch.observations.axis 1 + k, batch.observations.axis 2]
  targetShape : other.targets.shape = [batch.targets.axis 0, batch.targets.axis 1 + k,
    batch.targets.axis 2]
  maskShape : other.mask.shape = [batch.mask.axis 0, batch.mask.axis 1 + k, batch.mask.axis 2]
  observations : ∀ b t, batch.observations.HasStep b t →
    other.observations.vectorAt b t = batch.observations.vectorAt b t
  targets : ∀ b t, batch.targets.HasStep b t →
    other.targets.entry [b, t, 0] = batch.targets.entry [b, t, 0]
  mask : ∀ b t, batch.mask.HasStep b t →
    other.mask.entry [b, t, 0] = batch.mask.entry [b, t, 0]
  padding : ∀ b t, other.mask.HasStep b t → batch.mask.axis 1 ≤ t →
    other.mask.entry [b, t, 0] = 0

theorem Replaced.real_eq (h : batch.Replaced other) : other.real = batch.real := by
  rw [real, real, h.mask]

theorem Replaced.masked (h : batch.Replaced other) (hmasked : batch.Masked) : other.Masked := by
  rwa [Masked, h.mask]

theorem Extended.hasStep_iff (h : batch.Extended other k) {b t : Nat} :
    other.mask.HasStep b t ↔ b < batch.mask.axis 0 ∧ t < batch.mask.axis 1 + k := by
  simp [Tensor.HasStep, Tensor.axis, h.maskShape]

/-- Padding is not real. -/
theorem Extended.real_eq (h : batch.Extended other k) : other.real = batch.real := by
  ext ⟨b, t⟩
  rw [mem_real, mem_real, h.hasStep_iff]
  constructor
  · rintro ⟨⟨hb, ht⟩, hone⟩
    by_cases hkept : t < batch.mask.axis 1
    · exact ⟨⟨hb, hkept⟩, h.mask b t ⟨hb, hkept⟩ ▸ hone⟩
    · have hzero := h.padding b t (h.hasStep_iff.mpr ⟨hb, ht⟩) (Nat.le_of_not_lt hkept)
      exact absurd (hzero.symm.trans hone) zero_ne_one
  · rintro ⟨⟨hb, ht⟩, hone⟩
    exact ⟨⟨hb, Nat.lt_add_right k ht⟩, (h.mask b t ⟨hb, ht⟩).trans hone⟩

theorem Extended.masked (h : batch.Extended other k) (hmasked : batch.Masked) : other.Masked := by
  intro b t hstep
  by_cases hkept : t < batch.mask.axis 1
  · have hstep' : batch.mask.HasStep b t := ⟨(h.hasStep_iff.mp hstep).1, hkept⟩
    rw [h.mask b t hstep']
    exact hmasked b t hstep'
  · exact .inl (h.padding b t hstep (Nat.le_of_not_lt hkept))

end ValueBatch

namespace Objective

open ValueBatch

/-- The value loss is that of the real timesteps: their mean square, with any padding between or
after them. -/
structure IgnoresPadding (model : Model K) (batch : ValueBatch K) : Prop where
  made : ∀ predictions, model.output batch.observations = .ok predictions →
    batch.targets.shape = [batch.observations.axis 0, batch.observations.axis 1, 1] →
    batch.mask.shape = [batch.observations.axis 0, batch.observations.axis 1, 1] →
      ∃ x, value.loss model batch = .ok x
  mean : ∀ x, value.loss model batch = .ok x → batch.real.Nonempty → ∃ predictions,
    model.output batch.observations = .ok predictions ∧ x = batch.meanSquare predictions
  none : ∀ x, value.loss model batch = .ok x → batch.real = ∅ → x = 0
  nonneg : ∀ x, value.loss model batch = .ok x → 0 ≤ x
  replaced : ∀ other, batch.Replaced other → value.loss model other = value.loss model batch
  extended : ∀ other k x, batch.Extended other k → value.loss model batch = .ok x →
    value.loss model other = .ok x

variable {model : Model K} {batch other : ValueBatch K} {predictions predictions' : Tensor K 3}

theorem value_loss_of_masked (hmodel : model.IsPerTimestep)
    (houtput : model.output batch.observations = .ok predictions)
    (hshape : predictions.shape = batch.targets.shape)
    (hmask : batch.mask.shape = batch.targets.shape) (hmasked : batch.Masked) :
    ValueLoss.value predictions batch.targets batch.mask = .ok (batch.meanSquare predictions) := by
  have hsingle : batch.mask.axis 2 = 1 := by
    rw [Tensor.axis_eq_of_shape_eq (hmask.trans hshape.symm), hmodel.single houtput]
  exact ValueLoss.value_of_masked hshape hmask hsingle hmasked

/-- Real timesteps are timesteps of the observations that predictions are made of. -/
theorem hasStep_of_mem_real (hmodel : model.IsPerTimestep)
    (houtput : model.output batch.observations = .ok predictions)
    (hshape : predictions.shape = batch.targets.shape)
    (hmask : batch.mask.shape = batch.targets.shape) (p : Nat × Nat) (hp : p ∈ batch.real) :
    batch.observations.HasStep p.1 p.2 := by
  obtain ⟨hb, ht⟩ := hmodel.pointwise.axes houtput
  have haxis := Tensor.axis_eq_of_shape_eq (hmask.trans hshape.symm)
  have hstep := (mem_real.mp hp).1
  rwa [Tensor.HasStep, haxis 0, haxis 1, hb, ht] at hstep

/-- Batches with the same real timesteps that agree there have one mean square. -/
theorem meanSquare_of_alike (hmodel : model.IsPerTimestep)
    (houtput : model.output batch.observations = .ok predictions)
    (houtput' : model.output other.observations = .ok predictions')
    (hsteps : ∀ p ∈ batch.real, batch.observations.HasStep p.1 p.2)
    (hsteps' : ∀ p ∈ other.real, other.observations.HasStep p.1 p.2)
    (hreal : other.real = batch.real)
    (hobservations : ∀ p ∈ batch.real,
      other.observations.vectorAt p.1 p.2 = batch.observations.vectorAt p.1 p.2)
    (htargets : ∀ p ∈ batch.real,
      other.targets.entry [p.1, p.2, 0] = batch.targets.entry [p.1, p.2, 0]) :
    other.meanSquare predictions' = batch.meanSquare predictions := by
  refine meanSquare_congr hreal (fun p hp => ?_) htargets
  have hvector := hmodel.pointwise.alike houtput houtput' (hsteps p hp) (hsteps' p (hreal ▸ hp))
    (hobservations p hp)
  exact Tensor.entry_eq_of_vectorAt hvector (hmodel.single houtput ▸ Nat.one_pos)

theorem value_loss_replaced (hmodel : model.IsPerTimestep) (hmasked : batch.Masked)
    (h : batch.Replaced other) : value.loss model other = value.loss model batch := by
  apply Outcome.Agree.eq
  change Agree Eq (model.output other.observations >>= _) (model.output batch.observations >>= _)
  refine (hmodel.pointwise.agree h.observationShape).bind fun predictions' predictions hboth => ?_
  obtain ⟨houtput', houtput⟩ := hboth
  have haxis := Tensor.axis_eq_of_shape_eq h.observationShape
  have hshapes : predictions'.shape = predictions.shape := by
    rw [hmodel.shape_eq houtput', hmodel.shape_eq houtput, haxis, haxis]
  have hchecked : ensureShape .valueOutput predictions.shape batch.targets.shape = .ok () →
      ensureShape .valueMask batch.mask.shape batch.targets.shape = .ok () →
        ValueLoss.value predictions' other.targets other.mask =
          ValueLoss.value predictions batch.targets batch.mask := by
    intro hshape hmask
    have hshape := ensureShape_eq_ok.mp hshape
    have hmask := ensureShape_eq_ok.mp hmask
    have hshape' := hshapes.trans (hshape.trans h.targetShape.symm)
    have hmask' : other.mask.shape = other.targets.shape := by
      rw [h.mask, hmask, h.targetShape]
    rw [value_loss_of_masked hmodel houtput hshape hmask hmasked,
      value_loss_of_masked hmodel houtput' hshape' hmask' (h.masked hmasked)]
    exact congrArg Except.ok (meanSquare_of_alike hmodel houtput houtput'
      (hasStep_of_mem_real hmodel houtput hshape hmask)
      (hasStep_of_mem_real hmodel houtput' hshape' hmask') h.real_eq h.observations h.targets)
  rw [hshapes, h.targetShape, congrArg Tensor.shape h.mask]
  exact agree_of_eq (bind_congr_of_ok fun _ hshape => bind_congr_of_ok fun _ hmask =>
    hchecked hshape hmask)

/-- More timesteps, if there are any, do not stop the model. -/
theorem exists_output_extended (hmodel : model.IsPerTimestep) {k : Nat}
    (h : batch.Extended other k) (houtput : model.output batch.observations = .ok predictions) :
    ∃ predictions', model.output other.observations = .ok predictions' := by
  by_cases hlength : 0 < other.observations.axis 1
  · refine hmodel.pointwise.answers houtput ?_ hlength
    simp [Tensor.axis, h.observationShape]
  · have hzero : batch.observations.axis 1 + k = 0 := by
      simpa [Tensor.axis, h.observationShape] using hlength
    have hshape : other.observations.shape = batch.observations.shape := by
      rw [h.observationShape, batch.observations.shape_eq_three, hzero,
        (Nat.add_eq_zero_iff.mp hzero).1]
    have hempty : Size.volume batch.observations.shape = 0 := by
      rw [batch.observations.shape_eq_three, (Nat.add_eq_zero_iff.mp hzero).1]
      simp [Size.volume]
    exact ⟨predictions, Tensor.eq_of_volume_eq_zero hshape hempty ▸ houtput⟩

theorem value_loss_extended (hmodel : model.IsPerTimestep) (hmasked : batch.Masked) {k : Nat}
    (h : batch.Extended other k) {x : K} (hloss : value.loss model batch = .ok x) :
    value.loss model other = .ok x := by
  obtain ⟨predictions, houtput, hshape, hmask, hvalue⟩ := value_loss_eq_ok.mp hloss
  rw [value_loss_of_masked hmodel houtput hshape hmask hmasked] at hvalue
  cases hvalue
  obtain ⟨predictions', houtput'⟩ := exists_output_extended hmodel h houtput
  have htargetShape := hshape.symm.trans (hmodel.shape_eq houtput)
  have hmaskShape := hmask.trans htargetShape
  have hshape' : predictions'.shape = other.targets.shape := by
    rw [hmodel.shape_eq houtput', h.targetShape]
    simp [Tensor.axis, h.observationShape, htargetShape]
  have hmask' : other.mask.shape = other.targets.shape := by
    rw [h.maskShape, h.targetShape]
    simp [Tensor.axis, hmaskShape, htargetShape]
  have hvalue := value_loss_of_masked hmodel houtput' hshape' hmask' (h.masked hmasked)
  have hsteps := hasStep_of_mem_real hmodel houtput hshape hmask
  have hsame : other.meanSquare predictions' = batch.meanSquare predictions := by
    refine meanSquare_of_alike hmodel houtput houtput' hsteps
      (hasStep_of_mem_real hmodel houtput' hshape' hmask') h.real_eq
      (fun p hp => h.observations _ _ (hsteps p hp)) fun p hp => h.targets _ _ ?_
    have haxis := Tensor.axis_eq_of_shape_eq hmask
    have hstep := (mem_real.mp hp).1
    rwa [Tensor.HasStep, haxis, haxis] at hstep
  exact value_loss_eq_ok.mpr ⟨predictions', houtput', hshape', hmask', hsame ▸ hvalue⟩

/-- Padding does not train the value model: the loss is the mean square over the real timesteps,
whatever the padding holds and however long it is. -/
theorem value_ignoresPadding (hmodel : model.IsPerTimestep) (hmasked : batch.Masked) :
    IgnoresPadding model batch := by
  have hmean : ∀ x, value.loss model batch = .ok x → ∃ predictions,
      model.output batch.observations = .ok predictions ∧ x = batch.meanSquare predictions := by
    intro x hloss
    obtain ⟨predictions, houtput, hshape, hmask, hvalue⟩ := value_loss_eq_ok.mp hloss
    rw [value_loss_of_masked hmodel houtput hshape hmask hmasked] at hvalue
    cases hvalue
    exact ⟨predictions, houtput, rfl⟩
  refine ⟨fun predictions houtput htargets hmask => ?_, fun x hloss _ => hmean x hloss,
    fun x hloss hnone => ?_, fun x hloss => ?_,
    fun other => value_loss_replaced hmodel hmasked,
    fun other k x hextended => value_loss_extended hmodel hmasked hextended⟩
  · have hshape := (hmodel.shape_eq houtput).trans htargets.symm
    have hmask := hmask.trans htargets.symm
    have hvalue := value_loss_of_masked hmodel houtput hshape hmask hmasked
    exact ⟨_, value_loss_eq_ok.mpr ⟨predictions, houtput, hshape, hmask, hvalue⟩⟩
  · obtain ⟨predictions, _, rfl⟩ := hmean x hloss
    rw [meanSquare, hnone, Finset.sum_empty, zero_div]
  · obtain ⟨predictions, _, rfl⟩ := hmean x hloss
    exact meanSquare_nonneg

namespace Line

/-- The real timestep of `returns`, with these data at the padded one. -/
def otherReturns (data : ℚ) : ValueBatch ℚ :=
  ⟨slice [0, data], slice [1, data], slice [1, 0]⟩

/-- Both timesteps of `returns` and a padded one with these data. -/
def longerReturns (data : ℚ) : ValueBatch ℚ :=
  ⟨slice [0, 1, data], slice [1, 1, data], slice [1, 0, 0]⟩

/-- Two padded timesteps. -/
def noReturns : ValueBatch ℚ :=
  ⟨slice [0, 1], slice [1, 1], slice [0, 0]⟩

theorem hasStep_cases {x : Tensor ℚ 3} (hshape : x.shape = [1, 2, 1]) {b t : Nat}
    (h : x.HasStep b t) : b = 0 ∧ (t = 0 ∨ t = 1) := by
  simp only [Tensor.HasStep, Tensor.axis, hshape, List.getD_cons_zero, List.getD_cons_succ] at h
  omega

theorem real_returns {p : Nat × Nat} (hp : p ∈ returns.real) : p = (0, 0) := by
  obtain ⟨hstep, hone⟩ := mem_real.mp hp
  obtain ⟨b, t⟩ := p
  obtain ⟨rfl, rfl | rfl⟩ := hasStep_cases rfl hstep
  · rfl
  · exact absurd hone (by decide +kernel)

theorem returns_masked : returns.Masked := by
  intro b t hstep
  obtain ⟨rfl, rfl | rfl⟩ := hasStep_cases rfl hstep
  · exact .inr rfl
  · exact .inl rfl

theorem returns_replaced (data : ℚ) : returns.Replaced (otherReturns data) := by
  refine ⟨rfl, rfl, rfl, fun p hp => ?_, fun p hp => ?_⟩
  · rw [real_returns hp]
    rfl
  · rw [real_returns hp]
    rfl

theorem returns_extended (data : ℚ) : returns.Extended (longerReturns data) 1 := by
  refine ⟨rfl, rfl, rfl, fun b t hstep => ?_, fun b t hstep => ?_, fun b t hstep => ?_,
    fun b t hstep hpadding => ?_⟩
  · obtain ⟨rfl, rfl | rfl⟩ := hasStep_cases rfl hstep
    · rfl
    · rfl
  · obtain ⟨rfl, rfl | rfl⟩ := hasStep_cases rfl hstep
    · rfl
    · rfl
  · obtain ⟨rfl, rfl | rfl⟩ := hasStep_cases rfl hstep
    · rfl
    · rfl
  · obtain ⟨hb, ht⟩ := hstep
    obtain rfl : b = 0 := Nat.lt_one_iff.mp hb
    obtain rfl : t = 2 := Nat.le_antisymm (Nat.le_of_lt_succ ht) hpadding
    rfl

theorem noReturns_masked : noReturns.Masked := by
  intro b t hstep
  obtain ⟨rfl, rfl | rfl⟩ := hasStep_cases rfl hstep
  · exact .inl rfl
  · exact .inl rfl

theorem real_noReturns : noReturns.real = ∅ := by
  refine Finset.eq_empty_of_forall_notMem fun ⟨b, t⟩ hp => ?_
  obtain ⟨hstep, hone⟩ := mem_real.mp hp
  obtain ⟨rfl, rfl | rfl⟩ := hasStep_cases rfl hstep
  · exact absurd hone (by decide +kernel)
  · exact absurd hone (by decide +kernel)

/-- A perceptron has one loss on three batches that differ in their padding, and none on padding
alone. -/
theorem value_ignoresPadding_returns :
    (∃ x, value.loss (Perceptron.line 0 2) returns = .ok x ∧ 0 ≤ x ∧
      value.loss (Perceptron.line 0 2) (otherReturns 5) = .ok x ∧
      value.loss (Perceptron.line 0 2) (longerReturns 7) = .ok x) ∧
    value.loss (Perceptron.line 0 2) noReturns = .ok 0 := by
  have hmodel := Perceptron.line_isPerTimestep 0 (2 : ℚ)
  have hreturns : IgnoresPadding (Perceptron.line 0 2) returns :=
    value_ignoresPadding hmodel returns_masked
  have hnone : IgnoresPadding (Perceptron.line 0 2) noReturns :=
    value_ignoresPadding hmodel noReturns_masked
  have hmade : ∃ predictions, (Perceptron.line 0 2).output returns.observations =
      .ok predictions :=
    exists_of_isOk (by decide +kernel)
  obtain ⟨predictions, houtput⟩ := hmade
  constructor
  · obtain ⟨x, hloss⟩ := hreturns.made _ houtput rfl rfl
    exact ⟨x, hloss, hreturns.nonneg x hloss,
      (hreturns.replaced _ (returns_replaced 5)).trans hloss,
      hreturns.extended _ 1 x (returns_extended 7) hloss⟩
  · obtain ⟨x, hloss⟩ := hnone.made _ houtput rfl rfl
    rwa [hnone.none x hloss real_noReturns] at hloss

end Line

end Objective

end PolicyGradient
