import PolicyGradient.Proofs.Padding
import PolicyGradient.Proofs.Windows

/-!
Policy inputs beside the trajectory they are made from.

Observations, actions and log-probabilities are cut to the timesteps that have an advantage and are
not moved: position by position they are those of the trajectory, at full depth, and stand beside
the advantage of the same position (`Algorithm.policyInputs_aligned`).
-/

namespace PolicyGradient

open Outcome

variable {α : Type}

namespace Tensor

variable {rank : Nat} [Zero α] {t part : Tensor α rank} {ends : Vector Nat rank}

theorem entry_of_leading (h : t.leading ends = .ok part) {p : List Nat}
    (hp : Shape.InBounds part.shape p) : part.entry p = t.entry p := by
  obtain ⟨_, rfl⟩ := leading_eq_ok.mp h
  exact entry_tabulate _ t.entry p hp

/-- A tensor is the table of its entries. -/
theorem tabulate_entry (t : Tensor α rank) : tabulate t.dims t.entry = t := by
  obtain ⟨dims, data, hsize⟩ := t
  simp only [tabulate, mk.injEq, true_and]
  apply Array.ext
  · simp [hsize]
  · intro i hi _
    rw [Array.size_ofFn] at hi
    simp [entry, shape, Shape.ravel_unravel _ _ hi, hsize, hi]

/-- The whole of every axis is the tensor. -/
theorem eq_of_leading (h : t.leading ends = .ok part) (hends : ends.toList = t.shape) :
    part = t := by
  obtain ⟨_, rfl⟩ := leading_eq_ok.mp h
  obtain rfl : ends = t.dims := Vector.toList_inj.mp hends
  have hdims : t.leadingDims t.dims = t.dims := by
    apply Vector.toList_inj.mp
    rw [toList_leadingDims, shape, List.zipWith_self]
    simp
  rw [hdims]
  exact t.tabulate_entry

/-- The whole depth is kept. -/
theorem depth_of_leading {t part : Tensor α 3} {b l : Nat}
    (h : t.leading #v[b, l, t.axis 2] = .ok part) : part.axis 2 = t.axis 2 := by
  rw [axis, shape_of_leading h, leadingDims_three, Nat.min_self]
  rfl

end Tensor

/-- The batch holds these advantages and beside them what the trajectory holds at the same
positions, as far as the first `keep` timesteps. -/
structure PolicyBatch.CutFrom [Zero α] (batch : PolicyBatch α) (trajectory : Trajectory α)
    (advantages : Tensor α 2) (keep : Nat) : Prop where
  sizes : batch.HasSizes trajectory.batchSize keep
  advantages : batch.advantages = advantages
  observationDepth : batch.observations.axis 2 = trajectory.observations.axis 2
  actionDepth : batch.actions.axis 2 = trajectory.actions.axis 2
  observations : ∀ b < trajectory.batchSize, ∀ t < keep, ∀ i < trajectory.observations.axis 2,
    batch.observations.entry [b, t, i] = trajectory.observations.entry [b, t, i]
  actions : ∀ b < trajectory.batchSize, ∀ t < keep, ∀ i < trajectory.actions.axis 2,
    batch.actions.entry [b, t, i] = trajectory.actions.entry [b, t, i]
  oldLogProbs : ∀ b < trajectory.batchSize, ∀ t < keep,
    batch.oldLogProbs.entry [b, t] = trajectory.logProbs.entry [b, t]

namespace Advantage

variable [Scalar α] {trajectory : Trajectory α} {values advantages : Tensor α 2} {gamma : α}
variable {lookAhead : Nat} {batch : PolicyBatch α}

/-- Policy inputs are made exactly as advantages and three cuts. -/
theorem policyBatch_eq_ok :
    policyBatch trajectory values gamma lookAhead = .ok batch ↔
      ofBatch trajectory.rewards trajectory.returns values gamma lookAhead = .ok batch.advantages ∧
      trajectory.observations.leading #v[batch.advantages.axis 0, batch.advantages.axis 1,
        trajectory.observations.axis 2] = .ok batch.observations ∧
      trajectory.actions.leading #v[batch.advantages.axis 0, batch.advantages.axis 1,
        trajectory.actions.axis 2] = .ok batch.actions ∧
      trajectory.logProbs.leading #v[batch.advantages.axis 0, batch.advantages.axis 1] =
        .ok batch.oldLogProbs ∧
      batch.validate = .ok () := by
  simp only [policyBatch, bind_eq_ok]
  constructor
  · rintro ⟨advantages, hadvantages, observations, hobservations, actions, hactions, logProbs,
      hlogProbs, _, hvalid, hbatch⟩
    cases hbatch
    exact ⟨hadvantages, hobservations, hactions, hlogProbs, hvalid⟩
  · rintro ⟨hadvantages, hobservations, hactions, hlogProbs, hvalid⟩
    exact ⟨_, hadvantages, _, hobservations, _, hactions, _, hlogProbs, (), hvalid, rfl⟩

theorem policyBatch_of_error {e : Failure}
    (h : ofBatch trajectory.rewards trajectory.returns values gamma lookAhead = .error e) :
    policyBatch trajectory values gamma lookAhead = .error e := by
  rw [policyBatch, h]
  rfl

/-- A cut of one field keeps its entries where they are. -/
theorem cutFrom_of_policyBatch
    (h : policyBatch trajectory values gamma lookAhead = .ok batch) :
    batch.CutFrom trajectory batch.advantages (trajectory.length - lookAhead) := by
  obtain ⟨hadvantages, hobservations, hactions, hlogProbs, hbatch⟩ := policyBatch_eq_ok.mp h
  obtain ⟨hrows, hkeep⟩ := Tensor.axes_of_shape (shape_of_ofBatch hadvantages).2.2.2
  rw [hrows, hkeep] at hobservations hactions hlogProbs
  have hsizes := PolicyBatch.validate_eq_ok.mp hbatch
  rw [hrows, hkeep] at hsizes
  have hdepth := Tensor.depth_of_leading hobservations
  have hdepth' := Tensor.depth_of_leading hactions
  obtain ⟨hrows₁, hlength₁⟩ := Tensor.axes_of_leadingSizes hsizes.observations
  obtain ⟨hrows₂, hlength₂⟩ := Tensor.axes_of_leadingSizes hsizes.actions
  refine ⟨hsizes, rfl, hdepth, hdepth', ?_, ?_, ?_⟩
  · intro b hb t ht i hi
    apply Tensor.entry_of_leading hobservations
    rw [Tensor.shape_eq_three, hrows₁, hlength₁, hdepth]
    exact ⟨hb, ht, hi, trivial⟩
  · intro b hb t ht i hi
    apply Tensor.entry_of_leading hactions
    rw [Tensor.shape_eq_three, hrows₂, hlength₂, hdepth']
    exact ⟨hb, ht, hi, trivial⟩
  · intro b hb t ht
    apply Tensor.entry_of_leading hlogProbs
    rw [hsizes.oldLogProbs]
    exact ⟨hb, ht, trivial⟩

/-- Without a look-ahead nothing is cut. -/
theorem whole_of_policyBatch (hvalid : trajectory.validate = .ok ())
    (h : policyBatch trajectory values gamma 0 = .ok batch) :
    batch.observations = trajectory.observations ∧ batch.actions = trajectory.actions ∧
      batch.oldLogProbs = trajectory.logProbs := by
  obtain ⟨hadvantages, hobservations, hactions, hlogProbs, _⟩ := policyBatch_eq_ok.mp h
  obtain ⟨hrows, hkeep⟩ := Tensor.axes_of_shape (shape_of_ofBatch hadvantages).2.2.2
  rw [Nat.sub_zero] at hkeep
  have hsizes := Trajectory.validate_eq_ok.mp hvalid
  obtain ⟨hb, hl⟩ := Tensor.axes_of_leadingSizes hsizes.observations
  obtain ⟨hb', hl'⟩ := Tensor.axes_of_leadingSizes hsizes.actions
  refine ⟨Tensor.eq_of_leading hobservations ?_, Tensor.eq_of_leading hactions ?_,
    Tensor.eq_of_leading hlogProbs ?_⟩
  · rw [Tensor.shape_eq_three, hb, hl, hrows, hkeep]
    rfl
  · rw [Tensor.shape_eq_three, hb', hl', hrows, hkeep]
    rfl
  · rw [hsizes.logProbs, hrows, hkeep]
    rfl

end Advantage

namespace Algorithm

variable [Scalar α]

/-- The policy inputs of a valid trajectory: what they hold, and when there are none. -/
theorem policyInputs_aligned {algorithm : Algorithm α} (halgorithm : algorithm.Standard)
    {trajectory : Trajectory α} (hvalid : trajectory.validate = .ok ())
    (hbatch : 0 < trajectory.batchSize) (hobservations : 0 < trajectory.observations.axis 2)
    (hactions : 0 < trajectory.actions.axis 2) (values : Tensor α 2) (gamma : α)
    (lookAhead : Nat) :
    (values.shape = [trajectory.batchSize, trajectory.length] → lookAhead < trajectory.length →
      ∃ batch advantages,
        algorithm.policyInputs trajectory values gamma lookAhead = .ok batch ∧
        Advantage.ofBatch trajectory.rewards trajectory.returns values gamma lookAhead =
          .ok advantages ∧
        batch.CutFrom trajectory advantages (trajectory.length - lookAhead) ∧
        (lookAhead = 0 → batch.observations = trajectory.observations ∧
          batch.actions = trajectory.actions ∧ batch.oldLogProbs = trajectory.logProbs)) ∧
    (values.shape ≠ [trajectory.batchSize, trajectory.length] → ∃ field expected actual,
      algorithm.policyInputs trajectory values gamma lookAhead =
        failWith (.shapeMismatch (.advantage field) expected actual)) ∧
    (values.shape = [trajectory.batchSize, trajectory.length] → trajectory.length ≤ lookAhead →
      algorithm.policyInputs trajectory values gamma lookAhead =
        failWith (.config (.horizon lookAhead trajectory.length))) := by
  have hsizes := Trajectory.validate_eq_ok.mp hvalid
  let inputs : Advantage.Inputs α := ⟨trajectory.rewards, trajectory.returns, values, gamma⟩
  have hshapes : inputs.SameShapes ↔ values.shape = [trajectory.batchSize, trajectory.length] := by
    rw [← hsizes.rewards]
    exact and_iff_right (hsizes.returns.trans hsizes.rewards.symm)
  rw [halgorithm.policyInputs_eq]
  refine ⟨?_, ?_, ?_⟩
  · intro hvalues hahead
    have hmakes : ∃ batch, Advantage.policyBatch trajectory values gamma lookAhead = .ok batch :=
      Advantage.exists_policyBatch hsizes hvalues hbatch hahead hobservations hactions
    obtain ⟨batch, hmade⟩ := hmakes
    refine ⟨batch, batch.advantages, hmade, (Advantage.policyBatch_eq_ok.mp hmade).1,
      Advantage.cutFrom_of_policyBatch hmade, ?_⟩
    rintro rfl
    exact Advantage.whole_of_policyBatch hvalid hmade
  · intro hvalues
    have hfails : ∃ field expected actual, inputs.advantages lookAhead =
        failWith (.shapeMismatch (.advantage field) expected actual) :=
      Advantage.Inputs.advantages_of_mismatch (mt hshapes.mp hvalues)
    obtain ⟨field, expected, actual, hmismatch⟩ := hfails
    exact ⟨field, expected, actual, Advantage.policyBatch_of_error hmismatch⟩
  · intro hvalues hshort
    exact Advantage.policyBatch_of_error
      (Advantage.Inputs.advantages_of_short (hshapes.mpr hvalues) hshort)

namespace Line

/-- The policy inputs of a slice of two timesteps, the second of which is looked ahead to. -/
theorem policyInputs_aligned_padded :
    ∃ batch advantages,
      (Algorithm.a2c (.gaussian 1 0.5)).policyInputs (padded 2) estimates 0.5 1 = .ok batch ∧
      Advantage.ofBatch (padded 2).rewards (padded 2).returns estimates 0.5 1 = .ok advantages ∧
      batch.CutFrom (padded 2) advantages 1 := by
  obtain ⟨batch, advantages, hbatch, hadvantages, hcut, _⟩ :=
    (@policyInputs_aligned Float32 _ _ (.a2c (.gaussian 1 0.5)) (padded 2) rfl (by decide)
      (by decide) (by decide) estimates 0.5 1).1 rfl (by decide)
  exact ⟨batch, advantages, hbatch, hadvantages, hcut⟩

end Line

end Algorithm

end PolicyGradient
