import PolicyGradient.Proofs.Alignment

/-!
Trajectories whose fields disagree.

Policy inputs compare returns and estimates with the rewards, but cut observations, actions and
log-probabilities to the advantages before they compare them.  So a field that is too short is
refused with what is left of it, one that is too long loses its end and is not refused, and from an
empty one nothing can be cut (`Advantage.policyBatch_cutFirst`).  Not all trajectories with fields
that disagree are reported (`Advantage.Line.not_reported_ragged`).
-/

namespace PolicyGradient

open Outcome

variable {α : Type}

/-- Beyond the fields that policy inputs are made of a valid trajectory has a mask of the same
sizes. -/
theorem Trajectory.validate_iff_consistent {t : Trajectory α} :
    t.validate = .ok () ↔ t.Consistent ∧ t.mask.shape = t.rewards.shape := by
  simp only [validate, bind_eq_ok, ensureShape_eq_ok, exists_const]
  constructor
  · rintro ⟨hobservations, hactions, hreturns, hlogProbs, hmask⟩
    exact ⟨⟨hobservations, hactions, hreturns, hlogProbs⟩, hmask⟩
  · rintro ⟨h, hmask⟩
    exact ⟨h.observations, h.actions, h.returns, h.logProbs, hmask⟩

namespace Advantage

variable [Scalar α]

/-- Trajectories with fields that disagree are reported: policy inputs of a trajectory, if they do
not come out, are refused with an error, and if its fields disagree, with a mismatch of shapes. -/
structure Reported (trajectory : Trajectory α) (values : Tensor α 2) (gamma : α)
    (lookAhead : Nat) : Prop where
  answers : (policyBatch trajectory values gamma lookAhead).Answers
  consistent : ∀ batch, policyBatch trajectory values gamma lookAhead = .ok batch →
    trajectory.Consistent
  mismatch : ¬ trajectory.Consistent → ∃ what expected actual,
    policyBatch trajectory values gamma lookAhead = failWith (.shapeMismatch what expected actual)

/-- What the advantages of a trajectory are computed from. -/
def inputsOf (trajectory : Trajectory α) (values : Tensor α 2) (gamma : α) : Inputs α :=
  ⟨trajectory.rewards, trajectory.returns, values, gamma⟩

/-- The policy inputs of a trajectory with fields of any shapes: what the advantages are computed
from is compared, all other fields are cut before they are. -/
structure CutFirst (trajectory : Trajectory α) (values : Tensor α 2) (gamma : α)
    (lookAhead : Nat) : Prop where
  validate_iff : trajectory.validate = .ok () ↔
    trajectory.Consistent ∧ trajectory.mask.shape = trajectory.rewards.shape
  mismatch : ¬ (inputsOf trajectory values gamma).SameShapes → ∃ field expected actual,
    policyBatch trajectory values gamma lookAhead =
      failWith (.shapeMismatch (.advantage field) expected actual)
  horizon : (inputsOf trajectory values gamma).SameShapes → trajectory.length ≤ lookAhead →
    policyBatch trajectory values gamma lookAhead =
      failWith (.config (.horizon lookAhead trajectory.length))
  /-- Fields that are longer than the advantages lose their ends. -/
  made : (inputsOf trajectory values gamma).SameShapes → lookAhead < trajectory.length →
    trajectory.Solid → trajectory.Reaches (trajectory.length - lookAhead) → ∃ batch,
      policyBatch trajectory values gamma lookAhead = .ok batch ∧
        batch.CutFrom trajectory batch.advantages (trajectory.length - lookAhead)
  /-- Fields that are shorter than the advantages are refused, the first one first. -/
  short : (inputsOf trajectory values gamma).SameShapes → lookAhead < trajectory.length →
    trajectory.Solid → ¬ trajectory.Reaches (trajectory.length - lookAhead) → ∃ field sizes,
      trajectory.firstShort (trajectory.length - lookAhead) = some (field, sizes) ∧
        policyBatch trajectory values gamma lookAhead =
          failWith (.shapeMismatch (.policy field)
            [trajectory.batchSize, trajectory.length - lookAhead] sizes)
  /-- Nothing can be cut from an empty field. -/
  empty : (inputsOf trajectory values gamma).SameShapes → lookAhead < trajectory.length →
    ¬ trajectory.Solid → policyBatch trajectory values gamma lookAhead = faultWith .outOfBounds
  reported_iff : Reported trajectory values gamma lookAhead ↔
    ¬ (inputsOf trajectory values gamma).SameShapes ∨
      trajectory.length ≤ lookAhead ∧ trajectory.Consistent ∨
      lookAhead < trajectory.length ∧ trajectory.Solid ∧
        (trajectory.Reaches (trajectory.length - lookAhead) → trajectory.Consistent)

variable {trajectory : Trajectory α} {values advantages : Tensor α 2} {gamma : α}
variable {lookAhead : Nat}

theorem policyBatch_of_mismatch (h : ¬ (inputsOf trajectory values gamma).SameShapes) :
    ∃ field expected actual, policyBatch trajectory values gamma lookAhead =
      failWith (.shapeMismatch (.advantage field) expected actual) := by
  have hfails : ∃ field expected actual, (inputsOf trajectory values gamma).advantages lookAhead =
      failWith (.shapeMismatch (.advantage field) expected actual) :=
    Inputs.advantages_of_mismatch h
  obtain ⟨field, expected, actual, hmismatch⟩ := hfails
  exact ⟨field, expected, actual, policyBatch_of_error hmismatch⟩

/-- Trajectories that are refused with a mismatch are reported. -/
theorem reported_of_refused {what : Subject} {expected actual : List Nat}
    (h : policyBatch trajectory values gamma lookAhead =
      failWith (.shapeMismatch what expected actual)) :
    Reported trajectory values gamma lookAhead := by
  refine ⟨?_, fun batch hbatch => ?_, fun _ => ⟨what, expected, actual, h⟩⟩
  · rw [h]
    exact answers_failWith _
  · rw [h] at hbatch
    cases hbatch

theorem reported_of_consistent (h : trajectory.Consistent)
    (hanswers : (policyBatch trajectory values gamma lookAhead).Answers) :
    Reported trajectory values gamma lookAhead :=
  ⟨hanswers, fun _ _ => h, fun hnot => absurd h hnot⟩

/-- With too few timesteps the horizon is refused, whatever the other fields are. -/
theorem reported_iff_of_short
    (h : policyBatch trajectory values gamma lookAhead =
      failWith (.config (.horizon lookAhead trajectory.length))) :
    Reported trajectory values gamma lookAhead ↔ trajectory.Consistent := by
  constructor
  · intro hreported
    by_contra hconsistent
    obtain ⟨what, expected, actual, hmismatch⟩ := hreported.mismatch hconsistent
    rw [h] at hmismatch
    cases hmismatch
  · intro hconsistent
    apply reported_of_consistent hconsistent
    rw [h]
    exact answers_failWith _

/-- Once there are advantages, fields that are too long are not refused. -/
theorem reported_iff_of_ofBatch
    (h : ofBatch trajectory.rewards trajectory.returns values gamma lookAhead = .ok advantages) :
    Reported trajectory values gamma lookAhead ↔ trajectory.Solid ∧
      (trajectory.Reaches (trajectory.length - lookAhead) → trajectory.Consistent) := by
  constructor
  · intro hreported
    have hsolid : trajectory.Solid := by
      by_contra hempty
      exact hreported.answers _ (policyBatch_of_empty h hempty)
    refine ⟨hsolid, fun hreaches => ?_⟩
    obtain ⟨batch, hbatch⟩ := exists_policyBatch_of_reaches h hsolid hreaches
    exact hreported.consistent batch hbatch
  · rintro ⟨hsolid, hconsistent⟩
    cases hshort : trajectory.firstShort (trajectory.length - lookAhead) with
    | none =>
        have hreaches := Trajectory.firstShort_eq_none_iff.mp hshort
        obtain ⟨batch, hbatch⟩ := exists_policyBatch_of_reaches h hsolid hreaches
        apply reported_of_consistent (hconsistent hreaches)
        rw [hbatch]
        exact answers_ok batch
    | some entry => exact reported_of_refused (policyBatch_of_short h hsolid hshort)

/-- Fields are cut before they are compared.  So of the trajectories with fields that disagree those
are reported whose returns or estimates are among these fields, and those with a field that the cuts
leave too short, as long as nothing that is cut is empty. -/
theorem policyBatch_cutFirst (trajectory : Trajectory α) (values : Tensor α 2) (gamma : α)
    (lookAhead : Nat) : CutFirst trajectory values gamma lookAhead := by
  have hhorizon : (inputsOf trajectory values gamma).SameShapes → trajectory.length ≤ lookAhead →
      policyBatch trajectory values gamma lookAhead =
        failWith (.config (.horizon lookAhead trajectory.length)) :=
    fun hsame hshort => policyBatch_of_error (Inputs.advantages_of_short hsame hshort)
  have hmakes : (inputsOf trajectory values gamma).SameShapes → lookAhead < trajectory.length →
      ∃ advantages, ofBatch trajectory.rewards trajectory.returns values gamma lookAhead =
        .ok advantages :=
    fun hsame hahead => exists_ofBatch hsame.1 hsame.2 hahead
  refine ⟨Trajectory.validate_iff_consistent, policyBatch_of_mismatch, hhorizon, ?_, ?_, ?_, ?_⟩
  · intro hsame hahead hsolid hreaches
    obtain ⟨advantages, hadvantages⟩ := hmakes hsame hahead
    obtain ⟨batch, hbatch⟩ := exists_policyBatch_of_reaches hadvantages hsolid hreaches
    exact ⟨batch, hbatch, cutFrom_of_policyBatch hbatch⟩
  · intro hsame hahead hsolid hreaches
    obtain ⟨advantages, hadvantages⟩ := hmakes hsame hahead
    obtain ⟨⟨field, sizes⟩, hshort⟩ :=
      Option.ne_none_iff_exists'.mp (mt Trajectory.firstShort_eq_none_iff.mp hreaches)
    exact ⟨field, sizes, hshort, policyBatch_of_short hadvantages hsolid hshort⟩
  · intro hsame hahead hempty
    obtain ⟨advantages, hadvantages⟩ := hmakes hsame hahead
    exact policyBatch_of_empty hadvantages hempty
  · by_cases hsame : (inputsOf trajectory values gamma).SameShapes
    · by_cases hshort : trajectory.length ≤ lookAhead
      · rw [reported_iff_of_short (hhorizon hsame hshort)]
        simp [hsame, hshort, Nat.not_lt.mpr hshort]
      · obtain ⟨advantages, hadvantages⟩ := hmakes hsame (Nat.lt_of_not_le hshort)
        rw [reported_iff_of_ofBatch hadvantages]
        simp [hsame, hshort, Nat.lt_of_not_le hshort]
    · obtain ⟨_, _, _, hrefused⟩ :=
        @policyBatch_of_mismatch _ _ trajectory values gamma lookAhead hsame
      exact iff_of_true (reported_of_refused hrefused) (.inl hsame)

namespace Line

/-- A slice of two timesteps that has been observed at `observed` timesteps. -/
def ragged (observed depth : Nat) : Trajectory Float32 :=
  { Algorithm.Line.padded 1 with
    observations := .tabulate #v[1, observed, depth] fun _ => 1 }

theorem exists_ragged (observed depth : Nat) : ∃ advantages,
    ofBatch (ragged observed depth).rewards (ragged observed depth).returns
      Algorithm.Line.estimates 0.5 0 = .ok advantages :=
  exists_ofBatch rfl rfl Nat.two_pos

/-- A slice observed at one timestep is refused: one is left where there should be two. -/
example : (ragged 1 1).firstShort 2 = some (.observations, [1, 1]) := by decide

/-- A slice observed at three timesteps is cut, and one whose observations have no depth is out of
bounds. -/
theorem not_reported_ragged :
    (∃ batch, policyBatch (ragged 3 1) Algorithm.Line.estimates 0.5 0 = .ok batch) ∧
      policyBatch (ragged 2 0) Algorithm.Line.estimates 0.5 0 = faultWith .outOfBounds ∧
      ¬ Reported (ragged 3 1) Algorithm.Line.estimates 0.5 0 ∧
      ¬ Reported (ragged 2 0) Algorithm.Line.estimates 0.5 0 := by
  obtain ⟨_, hlong⟩ := exists_ragged 3 1
  obtain ⟨_, hflat⟩ := exists_ragged 2 0
  have hmade : ∃ batch, policyBatch (ragged 3 1) Algorithm.Line.estimates 0.5 0 = .ok batch :=
    exists_policyBatch_of_reaches hlong ⟨by decide, by decide, by decide, by decide⟩
      ⟨⟨by decide, by decide⟩, ⟨by decide, by decide⟩, ⟨by decide, by decide⟩⟩
  have hfault : policyBatch (ragged 2 0) Algorithm.Line.estimates 0.5 0 =
      faultWith .outOfBounds := by
    apply policyBatch_of_empty hflat
    intro hsolid
    exact absurd (hsolid.observations 0 (by decide)) (by decide)
  refine ⟨hmade, hfault, fun hreported => ?_, fun hreported => hreported.answers _ hfault⟩
  obtain ⟨batch, hbatch⟩ := hmade
  exact absurd (hreported.consistent batch hbatch).observations (by decide)

end Line

end Advantage

end PolicyGradient
