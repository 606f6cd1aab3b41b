import PolicyGradient.Algorithm
import PolicyGradient.Proofs.Outcome

/-!
The sizes of policy inputs.

Policy inputs that are made have the sizes of the value estimates, the look-ahead taken off
(`Advantage.hasSizes_of_policyBatch`), whatever trajectory they are made from.  They are made of
every trajectory whose fields have the sizes of the estimates, as long as there are slices, depths
and a timestep more than the look-ahead (`Advantage.exists_policyBatch`).
-/

namespace PolicyGradient

open Outcome

variable {α : Type}

theorem ensureShape_eq_ok {what : Subject} {actual expected : List Nat} {u : Unit} :
    ensureShape what actual expected = .ok u ↔ actual = expected := by
  unfold ensureShape
  split
  case isTrue h => simp [h]
  case isFalse h => simp [h]

namespace Tensor

theorem shape_eq_two (t : Tensor α 2) : t.shape = [t.axis 0, t.axis 1] := by
  have hlength : t.shape.length = 2 := by simp [shape]
  obtain ⟨b, l, hshape⟩ := List.length_eq_two.mp hlength
  simp [axis, hshape]

theorem shape_eq_three (t : Tensor α 3) : t.shape = [t.axis 0, t.axis 1, t.axis 2] := by
  have hlength : t.shape.length = 3 := by simp [shape]
  obtain ⟨b, l, d, hshape⟩ := List.length_eq_three.mp hlength
  simp [axis, hshape]

theorem axis_eq_of_shape_eq {rank : Nat} {s t : Tensor α rank} (h : s.shape = t.shape) (i : Nat) :
    s.axis i = t.axis i := by
  rw [axis, axis, h]

theorem axes_of_shape {t : Tensor α 2} {b l : Nat} (h : t.shape = [b, l]) :
    t.axis 0 = b ∧ t.axis 1 = l := by
  simp [axis, h]

theorem axes_of_leadingSizes {t : Tensor α 3} {b l : Nat} (h : leadingSizes t = [b, l]) :
    t.axis 0 = b ∧ t.axis 1 = l := by
  simpa [leadingSizes] using h

section

variable {rank rank' : Nat} [Zero α] {t part : Tensor α rank} {ends : Vector Nat rank}

theorem leading_eq_ok : t.leading ends = .ok part ↔
    (∀ d ∈ (t.leadingDims ends).toList, 0 < d) ∧
      tabulate (t.leadingDims ends) t.entry = part := by
  have hall : ((t.leadingDims ends).toList.all (0 < ·)) = true ↔
      ∀ d ∈ (t.leadingDims ends).toList, 0 < d := by
    simp only [List.all_eq_true, decide_eq_true_eq]
  unfold leading
  split
  case isTrue h => rw [Except.ok.injEq, and_iff_right (hall.mp h)]
  case isFalse h => exact iff_of_false (faultWith_ne_ok _ _) fun hpart => h (hall.mpr hpart.1)

/-- A part that is not there is out of bounds. -/
theorem leading_cases (t : Tensor α rank) (ends : Vector Nat rank) :
    (∃ part, t.leading ends = .ok part) ∨ t.leading ends = faultWith .outOfBounds := by
  unfold leading
  split
  · exact .inl ⟨_, rfl⟩
  · exact .inr rfl

theorem shape_of_leading (h : t.leading ends = .ok part) :
    part.shape = (t.leadingDims ends).toList := by
  obtain ⟨_, rfl⟩ := leading_eq_ok.mp h
  rfl

omit [Zero α] in
theorem toList_leadingDims (t : Tensor α rank) (ends : Vector Nat rank) :
    (t.leadingDims ends).toList = List.zipWith min ends.toList t.shape := by
  rw [leadingDims, Vector.toList_zipWith, shape]

omit [Zero α] in
theorem leadingDims_two (t : Tensor α 2) (b l : Nat) :
    (t.leadingDims #v[b, l]).toList = [min b (t.axis 0), min l (t.axis 1)] := by
  rw [toList_leadingDims, t.shape_eq_two]
  rfl

omit [Zero α] in
theorem leadingDims_three (t : Tensor α 3) (b l d : Nat) :
    (t.leadingDims #v[b, l, d]).toList =
      [min b (t.axis 0), min l (t.axis 1), min d (t.axis 2)] := by
  rw [toList_leadingDims, t.shape_eq_three]
  rfl

omit [Zero α] in
theorem exists_reshape {dims : Vector Nat rank'}
    (h : Size.volume t.shape = Size.volume dims.toList) :
    ∃ t', t.reshape dims = .ok t' ∧ t'.shape = dims.toList := by
  have hsize : t.data.size = Size.volume dims.toList := t.size_eq.trans h
  exact ⟨⟨dims, t.data, hsize⟩, dif_pos hsize, rfl⟩

end

section

variable [Zero α] {b l d : Nat}

theorem exists_leading_two_iff {t : Tensor α 2} :
    (∃ part, t.leading #v[b, l] = .ok part) ↔ 0 < b ∧ 0 < l ∧ ∀ n ∈ t.shape, 0 < n := by
  simp only [leading_eq_ok, leadingDims_two, t.shape_eq_two, List.forall_mem_cons, Nat.lt_min,
    and_true, exists_and_left, exists_eq', and_assoc]
  tauto

/-- At full depth. -/
theorem exists_leading_three_iff {t : Tensor α 3} :
    (∃ part, t.leading #v[b, l, t.axis 2] = .ok part) ↔
      0 < b ∧ 0 < l ∧ ∀ n ∈ t.shape, 0 < n := by
  simp only [leading_eq_ok, leadingDims_three, t.shape_eq_three, List.forall_mem_cons, Nat.lt_min,
    and_true, exists_and_left, exists_eq', and_assoc]
  tauto

theorem shape_of_leading_two {t part : Tensor α 2} (h : t.leading #v[b, l] = .ok part) :
    part.shape = [min b (t.axis 0), min l (t.axis 1)] := by
  rw [shape_of_leading h, leadingDims_two]

theorem leadingSizes_of_leading {t part : Tensor α 3} (h : t.leading #v[b, l, d] = .ok part) :
    leadingSizes part = [min b (t.axis 0), min l (t.axis 1)] := by
  rw [leadingSizes, axis, axis, shape_of_leading h, leadingDims_three]
  rfl

end

end Tensor

/-- All fields have these leading sizes. -/
structure Trajectory.HasSizes (t : Trajectory α) (b length : Nat) : Prop where
  observations : leadingSizes t.observations = [b, length]
  actions : leadingSizes t.actions = [b, length]
  rewards : t.rewards.shape = [b, length]
  returns : t.returns.shape = [b, length]
  logProbs : t.logProbs.shape = [b, length]
  mask : t.mask.shape = [b, length]

namespace Trajectory

/-- The fields that policy inputs are made of have the leading sizes of the rewards. -/
structure Consistent (t : Trajectory α) : Prop where
  observations : leadingSizes t.observations = t.rewards.shape
  actions : leadingSizes t.actions = t.rewards.shape
  returns : t.returns.shape = t.rewards.shape
  logProbs : t.logProbs.shape = t.rewards.shape

theorem HasSizes.consistent {t : Trajectory α} {b length : Nat} (h : t.HasSizes b length) :
    t.Consistent :=
  ⟨h.observations.trans h.rewards.symm, h.actions.trans h.rewards.symm,
    h.returns.trans h.rewards.symm, h.logProbs.trans h.rewards.symm⟩

/-- There are slices, and no field that is cut is empty. -/
structure Solid (t : Trajectory α) : Prop where
  slices : 0 < t.batchSize
  observations : ∀ n ∈ t.observations.shape, 0 < n
  actions : ∀ n ∈ t.actions.shape, 0 < n
  logProbs : ∀ n ∈ t.logProbs.shape, 0 < n

/-- The fields that are cut have at least as many slices as the rewards, and at least `keep`
timesteps. -/
structure Reaches (t : Trajectory α) (keep : Nat) : Prop where
  observations : t.batchSize ≤ t.observations.axis 0 ∧ keep ≤ t.observations.axis 1
  actions : t.batchSize ≤ t.actions.axis 0 ∧ keep ≤ t.actions.axis 1
  logProbs : t.batchSize ≤ t.logProbs.axis 0 ∧ keep ≤ t.logProbs.axis 1

/-- The sizes of a field that is cut to the slices of the rewards and `keep` timesteps. -/
def kept {rank : Nat} (t : Trajectory α) (keep : Nat) (field : Tensor α rank) : List Nat :=
  [min t.batchSize (field.axis 0), min keep (field.axis 1)]

/-- The sizes of the fields that are cut, in the order in which they are compared. -/
def keptSizes (t : Trajectory α) (keep : Nat) : List (Field × List Nat) :=
  [(.observations, t.kept keep t.observations), (.actions, t.kept keep t.actions),
    (.oldLogProbs, t.kept keep t.logProbs)]

/-- The first field that is cut to other sizes than the advantages have, with its sizes. -/
def firstShort (t : Trajectory α) (keep : Nat) : Option (Field × List Nat) :=
  (t.keptSizes keep).find? fun (_, sizes) => sizes ≠ [t.batchSize, keep]

theorem firstShort_eq_none_iff {t : Trajectory α} {keep : Nat} :
    t.firstShort keep = none ↔ t.Reaches keep := by
  have hreaches : t.Reaches keep ↔
      (t.batchSize ≤ t.observations.axis 0 ∧ keep ≤ t.observations.axis 1) ∧
      (t.batchSize ≤ t.actions.axis 0 ∧ keep ≤ t.actions.axis 1) ∧
      t.batchSize ≤ t.logProbs.axis 0 ∧ keep ≤ t.logProbs.axis 1 :=
    ⟨fun h => ⟨h.observations, h.actions, h.logProbs⟩, fun h => ⟨h.1, h.2.1, h.2.2⟩⟩
  have hmin {m n : Nat} : min m n = m ↔ m ≤ n := by omega
  simp [hreaches, firstShort, keptSizes, kept, hmin]

theorem Consistent.reaches {t : Trajectory α} (h : t.Consistent) {keep : Nat}
    (hkeep : keep ≤ t.length) : t.Reaches keep := by
  have hrewards : t.rewards.shape = [t.batchSize, t.length] := t.rewards.shape_eq_two
  obtain ⟨hb, hl⟩ := Tensor.axes_of_leadingSizes (h.observations.trans hrewards)
  obtain ⟨hb', hl'⟩ := Tensor.axes_of_leadingSizes (h.actions.trans hrewards)
  obtain ⟨hb'', hl''⟩ := Tensor.axes_of_shape (h.logProbs.trans hrewards)
  exact ⟨⟨Nat.le_of_eq hb.symm, hl.symm ▸ hkeep⟩, ⟨Nat.le_of_eq hb'.symm, hl'.symm ▸ hkeep⟩,
    ⟨Nat.le_of_eq hb''.symm, hl''.symm ▸ hkeep⟩⟩

/-- Fields that agree are only empty without slices, timesteps or a depth. -/
theorem Consistent.solid {t : Trajectory α} (h : t.Consistent) (hslices : 0 < t.batchSize)
    (hlength : 0 < t.length) (hobservations : 0 < t.observations.axis 2)
    (hactions : 0 < t.actions.axis 2) : t.Solid := by
  have hrewards : t.rewards.shape = [t.batchSize, t.length] := t.rewards.shape_eq_two
  obtain ⟨hb, hl⟩ := Tensor.axes_of_leadingSizes (h.observations.trans hrewards)
  obtain ⟨hb', hl'⟩ := Tensor.axes_of_leadingSizes (h.actions.trans hrewards)
  refine ⟨hslices, ?_, ?_, ?_⟩
  · simp [Tensor.shape_eq_three, hb, hl, hslices, hlength, hobservations]
  · simp [Tensor.shape_eq_three, hb', hl', hslices, hlength, hactions]
  · simp [h.logProbs, hrewards, hslices, hlength]

end Trajectory

/-- All fields have these leading sizes. -/
structure PolicyBatch.HasSizes (batch : PolicyBatch α) (b length : Nat) : Prop where
  observations : leadingSizes batch.observations = [b, length]
  actions : leadingSizes batch.actions = [b, length]
  advantages : batch.advantages.shape = [b, length]
  oldLogProbs : batch.oldLogProbs.shape = [b, length]

/-- A trajectory is valid exactly when all fields have the sizes of the rewards. -/
theorem Trajectory.validate_eq_ok {t : Trajectory α} :
    t.validate = .ok () ↔ t.HasSizes t.batchSize t.length := by
  have hrewards : t.rewards.shape = [t.batchSize, t.length] := t.rewards.shape_eq_two
  simp only [validate, bind_eq_ok, ensureShape_eq_ok, exists_const, hrewards]
  constructor
  · rintro ⟨hobservations, hactions, hreturns, hlogProbs, hmask⟩
    exact ⟨hobservations, hactions, hrewards, hreturns, hlogProbs, hmask⟩
  · intro h
    exact ⟨h.observations, h.actions, h.returns, h.logProbs, h.mask⟩

theorem Trajectory.validate_of_hasSizes {t : Trajectory α} {b length : Nat}
    (h : t.HasSizes b length) : t.validate = .ok () := by
  obtain ⟨hb, hlength⟩ := Tensor.axes_of_shape h.rewards
  apply validate_eq_ok.mpr
  rw [batchSize, Trajectory.length, hb, hlength]
  exact h

/-- A policy batch is valid exactly when all fields have the sizes of the advantages. -/
theorem PolicyBatch.validate_eq_ok {batch : PolicyBatch α} : batch.validate = .ok () ↔
    batch.HasSizes (batch.advantages.axis 0) (batch.advantages.axis 1) := by
  have hadvantages := batch.advantages.shape_eq_two
  simp only [validate, bind_eq_ok, ensureShape_eq_ok, exists_const, hadvantages]
  constructor
  · rintro ⟨hobservations, hactions, hold⟩
    exact ⟨hobservations, hactions, hadvantages, hold⟩
  · intro h
    exact ⟨h.observations, h.actions, h.oldLogProbs⟩

/-- The leading sizes of the fields that are compared with the advantages, in this order. -/
def PolicyBatch.sizes (batch : PolicyBatch α) : List (Field × List Nat) :=
  [(.observations, leadingSizes batch.observations), (.actions, leadingSizes batch.actions),
    (.oldLogProbs, batch.oldLogProbs.shape)]

/-- The first field that disagrees with the advantages is refused. -/
theorem PolicyBatch.validate_eq (batch : PolicyBatch α) : batch.validate =
    match batch.sizes.find? fun (_, sizes) => sizes ≠ batch.advantages.shape with
    | none => .ok ()
    | some (field, sizes) =>
        failWith (.shapeMismatch (.policy field) batch.advantages.shape sizes) := by
  by_cases hobservations : leadingSizes batch.observations = batch.advantages.shape
  · by_cases hactions : leadingSizes batch.actions = batch.advantages.shape
    · by_cases hlogProbs : batch.oldLogProbs.shape = batch.advantages.shape
      · simp [validate, sizes, ensureShape, hobservations, hactions, hlogProbs]
        rfl
      · simp [validate, sizes, ensureShape, hobservations, hactions, hlogProbs]
        rfl
    · simp [validate, sizes, ensureShape, hobservations, hactions]
      rfl
  · simp [validate, sizes, ensureShape, hobservations]
    rfl

namespace Advantage

variable [Scalar α] {rewards returns values : Tensor α 2} {gamma : α} {lookAhead : Nat}

omit [Scalar α] in
theorem checkHorizon_eq_ok {length : Nat} {u : Unit} :
    checkHorizon lookAhead length = .ok u ↔ lookAhead < length := by
  unfold checkHorizon
  split
  case isTrue h => simp [h]
  case isFalse h => simpa using h

theorem length_slice (t : Tensor α 2) (b : Nat) : (slice t b).length = t.axis 1 := by
  rw [slice, List.length_map, List.length_range]

/-- Advantages that are made leave the look-ahead out. -/
theorem shape_of_ofBatch {advantages : Tensor α 2}
    (h : ofBatch rewards returns values gamma lookAhead = .ok advantages) :
    returns.shape = rewards.shape ∧ values.shape = rewards.shape ∧
      lookAhead < rewards.axis 1 ∧
      advantages.shape = [rewards.axis 0, rewards.axis 1 - lookAhead] := by
  simp only [ofBatch, bind_eq_ok, ensureShape_eq_ok, checkHorizon_eq_ok, exists_const] at h
  obtain ⟨hreturns, hvalues, hahead, _, _, hadvantages⟩ := h
  cases hadvantages
  exact ⟨hreturns, hvalues, hahead, rfl⟩

theorem exists_ofSlice {rewards returns values : List α}
    (hreturns : returns.length = rewards.length) (hvalues : values.length = rewards.length)
    (hahead : lookAhead < rewards.length) :
    ∃ advantages, ofSlice rewards returns values gamma lookAhead = .ok advantages := by
  simp only [ofSlice, bind_eq_ok, ensureShape_eq_ok, checkHorizon_eq_ok, exists_const, hreturns,
    hvalues, hahead, true_and]
  by_cases hzero : lookAhead = 0
  · exact ⟨_, if_pos hzero⟩
  · exact ⟨_, if_neg hzero⟩

/-- Fields of one shape have advantages for every look-ahead that leaves a timestep. -/
theorem exists_ofBatch (hreturns : returns.shape = rewards.shape)
    (hvalues : values.shape = rewards.shape) (hahead : lookAhead < rewards.axis 1) :
    ∃ advantages, ofBatch rewards returns values gamma lookAhead = .ok advantages := by
  have haxes := Tensor.axis_eq_of_shape_eq hreturns 1
  have haxes' := Tensor.axis_eq_of_shape_eq hvalues 1
  have hrow : ∀ b, ∃ row,
      ofSlice (slice rewards b) (slice returns b) (slice values b) gamma lookAhead = .ok row := by
    intro b
    apply exists_ofSlice
    · rw [length_slice, length_slice, haxes]
    · rw [length_slice, length_slice, haxes']
    · rwa [length_slice]
  choose row hrow using hrow
  have hrows : (List.range (rewards.axis 0)).mapM (fun b =>
      ofSlice (slice rewards b) (slice returns b) (slice values b) gamma lookAhead) =
        .ok ((List.range (rewards.axis 0)).map row) := by
    rw [mapM_eq_ok, List.forall₂_map_right_iff, List.forall₂_same]
    exact fun b _ => hrow b
  simp only [ofBatch, bind_eq_ok, ensureShape_eq_ok, checkHorizon_eq_ok, exists_const, hreturns,
    hvalues, hahead, hrows, true_and]
  exact ⟨_, _, rfl, rfl⟩

/-- Policy inputs that are made have the sizes of the estimates, the look-ahead taken off. -/
theorem hasSizes_of_policyBatch {trajectory : Trajectory α} {batch : PolicyBatch α}
    (h : policyBatch trajectory values gamma lookAhead = .ok batch) :
    batch.HasSizes (values.axis 0) (values.axis 1 - lookAhead) := by
  simp only [policyBatch, bind_eq_ok] at h
  obtain ⟨advantages, hadvantages, _, _, _, _, _, _, _, hvalid, hbatch⟩ := h
  cases hbatch
  obtain ⟨_, hvalues, _, hshape⟩ := shape_of_ofBatch hadvantages
  have hsizes := PolicyBatch.validate_eq_ok.mp hvalid
  obtain ⟨hb, hl⟩ := Tensor.axes_of_shape hshape
  rw [Tensor.axis_eq_of_shape_eq hvalues, Tensor.axis_eq_of_shape_eq hvalues]
  simpa only [hb, hl] using hsizes

theorem axes_of_ofBatch {trajectory : Trajectory α} {advantages : Tensor α 2}
    (h : ofBatch trajectory.rewards trajectory.returns values gamma lookAhead = .ok advantages) :
    advantages.axis 0 = trajectory.batchSize ∧
      advantages.axis 1 = trajectory.length - lookAhead :=
  Tensor.axes_of_shape (shape_of_ofBatch h).2.2.2

section

variable {trajectory : Trajectory α} {advantages : Tensor α 2}
variable (h : ofBatch trajectory.rewards trajectory.returns values gamma lookAhead = .ok advantages)

include h

theorem policyBatch_eq_cuts :
    policyBatch trajectory values gamma lookAhead = do
      let observations ← trajectory.observations.leading #v[trajectory.batchSize,
        trajectory.length - lookAhead, trajectory.observations.axis 2]
      let actions ← trajectory.actions.leading #v[trajectory.batchSize,
        trajectory.length - lookAhead, trajectory.actions.axis 2]
      let logProbs ← trajectory.logProbs.leading #v[trajectory.batchSize,
        trajectory.length - lookAhead]
      PolicyBatch.validate ⟨observations, actions, advantages, logProbs⟩
      return ⟨observations, actions, advantages, logProbs⟩ := by
  obtain ⟨hrows, hkeep⟩ := axes_of_ofBatch h
  rw [← hrows, ← hkeep, policyBatch, h]
  rfl

/-- If there is something to cut in every field, then the fields are cut and compared afterwards. -/
theorem exists_cuts (hsolid : trajectory.Solid) : ∃ batch : PolicyBatch α,
    batch.advantages.shape = [trajectory.batchSize, trajectory.length - lookAhead] ∧
      batch.sizes = trajectory.keptSizes (trajectory.length - lookAhead) ∧
      policyBatch trajectory values gamma lookAhead = do
        batch.validate
        return batch := by
  obtain ⟨_, _, hahead, hshape⟩ := shape_of_ofBatch h
  have hkeep : 0 < trajectory.length - lookAhead := Nat.sub_pos_of_lt hahead
  obtain ⟨observations, hobservations⟩ := Tensor.exists_leading_three_iff.mpr
    ⟨hsolid.slices, hkeep, hsolid.observations⟩
  obtain ⟨actions, hactions⟩ := Tensor.exists_leading_three_iff.mpr
    ⟨hsolid.slices, hkeep, hsolid.actions⟩
  obtain ⟨logProbs, hlogProbs⟩ := Tensor.exists_leading_two_iff.mpr
    ⟨hsolid.slices, hkeep, hsolid.logProbs⟩
  refine ⟨⟨observations, actions, advantages, logProbs⟩, hshape, ?_, ?_⟩
  · rw [PolicyBatch.sizes, Tensor.leadingSizes_of_leading hobservations,
      Tensor.leadingSizes_of_leading hactions, Tensor.shape_of_leading_two hlogProbs]
    rfl
  · rw [policyBatch_eq_cuts h, hobservations, hactions, hlogProbs]
    rfl

/-- Fields that reach far enough are cut to the sizes of the advantages. -/
theorem exists_policyBatch_of_reaches (hsolid : trajectory.Solid)
    (hreaches : trajectory.Reaches (trajectory.length - lookAhead)) :
    ∃ batch, policyBatch trajectory values gamma lookAhead = .ok batch := by
  obtain ⟨batch, hshape, hsizes, hbatch⟩ := exists_cuts h hsolid
  refine ⟨batch, ?_⟩
  have hnone := Trajectory.firstShort_eq_none_iff.mpr hreaches
  rw [Trajectory.firstShort, ← hsizes, ← hshape] at hnone
  rw [hbatch, PolicyBatch.validate_eq, hnone]
  rfl

/-- Otherwise the first field that does not is refused, with the sizes that it is cut to. -/
theorem policyBatch_of_short (hsolid : trajectory.Solid) {field : Field} {sizes : List Nat}
    (hshort : trajectory.firstShort (trajectory.length - lookAhead) = some (field, sizes)) :
    policyBatch trajectory values gamma lookAhead = failWith (.shapeMismatch (.policy field)
      [trajectory.batchSize, trajectory.length - lookAhead] sizes) := by
  obtain ⟨batch, hshape, hsizes, hbatch⟩ := exists_cuts h hsolid
  rw [Trajectory.firstShort, ← hsizes, ← hshape] at hshort
  rw [hbatch, PolicyBatch.validate_eq, hshort, hshape]
  rfl

/-- Nothing can be cut from an empty field. -/
theorem policyBatch_of_empty (hempty : ¬ trajectory.Solid) :
    policyBatch trajectory values gamma lookAhead = faultWith .outOfBounds := by
  rw [policyBatch_eq_cuts h]
  rcases Tensor.leading_cases trajectory.observations #v[trajectory.batchSize,
    trajectory.length - lookAhead, trajectory.observations.axis 2] with ⟨_, hobservations⟩ | hfault
  · rcases Tensor.leading_cases trajectory.actions #v[trajectory.batchSize,
      trajectory.length - lookAhead, trajectory.actions.axis 2] with ⟨_, hactions⟩ | hfault
    · rcases Tensor.leading_cases trajectory.logProbs #v[trajectory.batchSize,
        trajectory.length - lookAhead] with ⟨_, hlogProbs⟩ | hfault
      · obtain ⟨hslices, _, hsolid⟩ := Tensor.exists_leading_three_iff.mp ⟨_, hobservations⟩
        obtain ⟨_, _, hsolid'⟩ := Tensor.exists_leading_three_iff.mp ⟨_, hactions⟩
        obtain ⟨_, _, hsolid''⟩ := Tensor.exists_leading_two_iff.mp ⟨_, hlogProbs⟩
        exact absurd ⟨hslices, hsolid, hsolid', hsolid''⟩ hempty
      · rw [hobservations, hactions, hfault]
        rfl
    · rw [hobservations, hfault]
      rfl
  · rw [hfault]
    rfl

end

/-- Policy inputs are made of fields of the sizes of the estimates. -/
theorem exists_policyBatch {trajectory : Trajectory α} {b length : Nat}
    (hsizes : trajectory.HasSizes b length) (hvalues : values.shape = [b, length]) (hb : 0 < b)
    (hahead : lookAhead < length) (hobservations : 0 < trajectory.observations.axis 2)
    (hactions : 0 < trajectory.actions.axis 2) :
    ∃ batch, policyBatch trajectory values gamma lookAhead = .ok batch := by
  obtain ⟨hrows, hlength⟩ := Tensor.axes_of_shape hsizes.rewards
  obtain ⟨advantages, hadvantages⟩ := exists_ofBatch
    (hsizes.returns.trans hsizes.rewards.symm) (hvalues.trans hsizes.rewards.symm)
    (by rwa [hlength])
  have hslices : 0 < trajectory.batchSize := by rwa [Trajectory.batchSize, hrows]
  have hlong : 0 < trajectory.length := by
    rw [Trajectory.length, hlength]
    exact Nat.zero_lt_of_lt hahead
  exact exists_policyBatch_of_reaches hadvantages
    (hsizes.consistent.solid hslices hlong hobservations hactions)
    (hsizes.consistent.reaches (Nat.sub_le _ _))

end Advantage

namespace Algorithm

variable [Scalar α]

/-- The algorithms of the library: A2C, PPO and AWR with any distribution and settings. -/
inductive Standard : Algorithm α → Prop
  | a2c (distribution : Distribution α) : Standard (.a2c distribution)
  | ppo (distribution : Distribution α) (clipping : Clipping α) :
      Standard (.ppo distribution clipping)
  | awr (distribution : Distribution α) (weighting : Weighting α) :
      Standard (.awr distribution weighting)

theorem Standard.policyInputs_eq {algorithm : Algorithm α} (h : algorithm.Standard) :
    algorithm.policyInputs = Advantage.policyBatch := by
  cases h with
  | a2c => rfl
  | ppo => rfl
  | awr => rfl

end Algorithm

end PolicyGradient
