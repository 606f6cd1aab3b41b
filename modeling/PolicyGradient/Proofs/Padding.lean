import PolicyGradient.Objective
import PolicyGradient.Proofs.PolicyInputs

/-!
Padding in policy updates.

Policy inputs are made of the timesteps that the look-ahead leaves and of the rewards that these
look ahead to, and of nothing else (`Advantage.policyBatch_congr`).  They are not made of the mask.
So padding that is cut off does not train the policy (`Algorithm.loss_of_cutPadding`), but other
padding does (`Algorithm.Line.not_loss_padded`).
-/

namespace PolicyGradient

open Outcome

variable {α : Type}

theorem Shape.inBounds_unravel (ds : List Nat) (i : Nat) (h : i < Size.volume ds) :
    InBounds ds (unravel ds i) := by
  induction ds generalizing i with
  | nil => exact trivial
  | cons d ds ih =>
      have hpos : 0 < Size.volume ds := Nat.pos_of_lt_mul_left h
      exact ⟨Nat.div_lt_of_lt_mul (Nat.mul_comm d _ ▸ h), ih _ (Nat.mod_lt _ hpos)⟩

namespace Tensor

/-- Only what is given at the positions of the shape matters. -/
theorem tabulate_congr {rank : Nat} {dims : Vector Nat rank} {f g : List Nat → α}
    (h : ∀ p, Shape.InBounds dims.toList p → f p = g p) : tabulate dims f = tabulate dims g := by
  have hentries : ∀ i : Fin (Size.volume dims.toList),
      f (Shape.unravel dims.toList i) = g (Shape.unravel dims.toList i) :=
    fun i => h _ (Shape.inBounds_unravel _ i i.isLt)
  simp only [tabulate, hentries]

theorem leadingDims_congr {rank : Nat} {t u : Tensor α rank} (h : t.shape = u.shape)
    (ends : Vector Nat rank) : t.leadingDims ends = u.leadingDims ends := by
  rw [leadingDims, leadingDims, Vector.toList_inj.mp h]

variable [Zero α]

theorem leading_two_congr {t u : Tensor α 2} {b l : Nat} (hshape : t.shape = u.shape)
    (h : ∀ i < b, ∀ j < l, t.entry [i, j] = u.entry [i, j]) :
    t.leading #v[b, l] = u.leading #v[b, l] := by
  rw [leading, leading, leadingDims_congr hshape]
  congr 2
  apply tabulate_congr
  rw [leadingDims_two]
  intro p hp
  match p, hp with
  | [i, j], ⟨hi, hj, _⟩ => exact h i (Nat.lt_min.mp hi).1 j (Nat.lt_min.mp hj).1

theorem leading_three_congr {t u : Tensor α 3} {b l d : Nat} (hshape : t.shape = u.shape)
    (h : ∀ i < b, ∀ j < l, ∀ k < d, t.entry [i, j, k] = u.entry [i, j, k]) :
    t.leading #v[b, l, d] = u.leading #v[b, l, d] := by
  rw [leading, leading, leadingDims_congr hshape]
  congr 2
  apply tabulate_congr
  rw [leadingDims_three]
  intro p hp
  match p, hp with
  | [i, j, k], ⟨hi, hj, hk, _⟩ =>
      exact h i (Nat.lt_min.mp hi).1 j (Nat.lt_min.mp hj).1 k (Nat.lt_min.mp hk).1

end Tensor

namespace Trajectory

variable {x y : Trajectory α}

/-- The trajectories are valid and have the same sizes. -/
structure SameSizes (x y : Trajectory α) : Prop where
  left : x.validate = .ok ()
  right : y.validate = .ok ()
  observations : x.observations.shape = y.observations.shape
  actions : x.actions.shape = y.actions.shape
  rewards : x.rewards.shape = y.rewards.shape

theorem SameSizes.returns (h : SameSizes x y) : x.returns.shape = y.returns.shape := by
  have hx := validate_eq_ok.mp h.left
  have hy := validate_eq_ok.mp h.right
  rw [hx.returns, hy.returns, ← hx.rewards, ← hy.rewards, h.rewards]

theorem SameSizes.logProbs (h : SameSizes x y) : x.logProbs.shape = y.logProbs.shape := by
  have hx := validate_eq_ok.mp h.left
  have hy := validate_eq_ok.mp h.right
  rw [hx.logProbs, hy.logProbs, ← hx.rewards, ← hy.rewards, h.rewards]

/-- The trajectories have the same data at a timestep of a slice. -/
structure SameAt [Zero α] (x y : Trajectory α) (b t : Nat) : Prop where
  observations : ∀ i < x.observations.axis 2,
    x.observations.entry [b, t, i] = y.observations.entry [b, t, i]
  actions : ∀ i < x.actions.axis 2, x.actions.entry [b, t, i] = y.actions.entry [b, t, i]
  rewards : x.rewards.entry [b, t] = y.rewards.entry [b, t]
  returns : x.returns.entry [b, t] = y.returns.entry [b, t]
  logProbs : x.logProbs.entry [b, t] = y.logProbs.entry [b, t]

/-- The rewards that a timestep looks ahead to are the same. -/
def SameAhead [Zero α] (x y : Trajectory α) (lookAhead b t : Nat) : Prop :=
  ∀ k < lookAhead, t + k < x.length → x.rewards.entry [b, t + k] = y.rewards.entry [b, t + k]

/-- The trajectories have the same mask, and differ at padded timesteps only and not in rewards that
a real timestep looks ahead to. -/
structure UpToPadding [Zero α] [One α] (lookAhead : Nat) (x y : Trajectory α) : Prop
    extends SameSizes x y where
  mask : x.mask = y.mask
  unpadded : ∀ b < x.batchSize, ∀ t < x.length, x.mask.entry [b, t] ≠ 0 → x.SameAt y b t
  real : ∀ b < x.batchSize, ∀ t < x.length, x.mask.entry [b, t] = 1 →
    x.SameAt y b t ∧ x.SameAhead y lookAhead b t

/-- The trajectories do not differ at the padding that the look-ahead leaves, nor in the rewards
that it looks ahead to.  This is so whenever all padding is cut off. -/
def SameKeptPadding [Zero α] [One α] (lookAhead : Nat) (x y : Trajectory α) : Prop :=
  ∀ b < x.batchSize, ∀ t < x.length - lookAhead, x.mask.entry [b, t] ≠ 1 →
    x.SameAt y b t ∧ x.SameAhead y lookAhead b t

/-- The trajectories are the same in all that policy inputs are made of: in the timesteps that the
look-ahead leaves, and in the rewards that these look ahead to. -/
structure Alike [Zero α] (lookAhead : Nat) (x y : Trajectory α) : Prop extends SameSizes x y where
  same : ∀ b < x.batchSize, ∀ t < x.length - lookAhead, x.SameAt y b t
  ahead : ∀ b < x.batchSize, ∀ t < x.length - lookAhead, x.SameAhead y lookAhead b t

theorem UpToPadding.alike [Zero α] [One α] {lookAhead : Nat} (h : UpToPadding lookAhead x y)
    (hkept : SameKeptPadding lookAhead x y) : Alike lookAhead x y := by
  have hsame : ∀ b < x.batchSize, ∀ t < x.length - lookAhead,
      x.SameAt y b t ∧ x.SameAhead y lookAhead b t := by
    intro b hb t ht
    by_cases hmask : x.mask.entry [b, t] = 1
    · exact h.real b hb t (Nat.lt_of_lt_of_le ht (Nat.sub_le _ _)) hmask
    · exact hkept b hb t ht hmask
  exact ⟨h.toSameSizes, fun b hb t ht => (hsame b hb t ht).1, fun b hb t ht => (hsame b hb t ht).2⟩

end Trajectory

namespace Advantage

variable [Scalar α] {gamma : α} {lookAhead : Nat}

/-- Slices are the same wherever their entries are. -/
theorem window_slice {t u : Tensor α 2} {b first count : Nat} (haxis : t.axis 1 = u.axis 1)
    (h : ∀ k < count, first + k < t.axis 1 → t.entry [b, first + k] = u.entry [b, first + k]) :
    ((slice t b).drop first).take count = ((slice u b).drop first).take count := by
  simp only [slice, ← haxis, ← List.map_drop, ← List.map_take]
  apply List.map_congr_left
  intro i hi
  obtain ⟨k, hk, rfl⟩ := List.mem_take_iff_getElem.mp hi
  rw [List.length_drop, List.length_range] at hk
  rw [List.getElem_drop, List.getElem_range]
  exact h k (Nat.lt_of_lt_of_le hk (Nat.min_le_left _ _)) (by omega)

/-- The advantages of a slice depend on the returns if there is no look-ahead, and else on the
rewards that are looked ahead to. -/
theorem ofSlice_congr {rewards rewards' returns returns' values : List α}
    (hrewards : rewards.length = rewards'.length) (hreturns : returns.length = returns'.length)
    (hplain : lookAhead = 0 → returns = returns')
    (hahead : ∀ t < rewards.length - lookAhead,
      (rewards.drop t).take lookAhead = (rewards'.drop t).take lookAhead) :
    ofSlice rewards returns values gamma lookAhead =
      ofSlice rewards' returns' values gamma lookAhead := by
  by_cases hzero : lookAhead = 0
  · simp only [ofSlice, if_pos hzero, hplain hzero, hrewards]
  · have hsame : ∀ t ∈ List.range (rewards.length - lookAhead),
        ahead rewards values gamma lookAhead t = ahead rewards' values gamma lookAhead t := by
      intro t ht
      rw [ahead, ahead, hahead t (List.mem_range.mp ht)]
    simp only [ofSlice, if_neg hzero, ← hrewards, ← hreturns, List.map_congr_left hsame]

variable {x y : Trajectory α}

theorem ofBatch_congr (h : x.Alike lookAhead y) (values : Tensor α 2) :
    ofBatch x.rewards x.returns values gamma lookAhead =
      ofBatch y.rewards y.returns values gamma lookAhead := by
  have hbatch : x.rewards.axis 0 = y.rewards.axis 0 := Tensor.axis_eq_of_shape_eq h.rewards 0
  have hrewards : x.rewards.axis 1 = y.rewards.axis 1 := Tensor.axis_eq_of_shape_eq h.rewards 1
  have hreturns : x.returns.axis 1 = y.returns.axis 1 := Tensor.axis_eq_of_shape_eq h.returns 1
  have hlength : x.returns.axis 1 = x.length :=
    (Tensor.axes_of_shape (Trajectory.validate_eq_ok.mp h.left).returns).2
  have hrows : ∀ b ∈ List.range (x.rewards.axis 0),
      ofSlice (slice x.rewards b) (slice x.returns b) (slice values b) gamma lookAhead =
        ofSlice (slice y.rewards b) (slice y.returns b) (slice values b) gamma lookAhead := by
    intro b hb
    have hb : b < x.batchSize := List.mem_range.mp hb
    apply ofSlice_congr
    · rw [length_slice, length_slice, hrewards]
    · rw [length_slice, length_slice, hreturns]
    · -- Without a look-ahead all timesteps are left, and so all returns are the same.
      intro hzero
      rw [slice, slice, ← hreturns, hlength]
      apply List.map_congr_left
      intro t ht
      rw [List.mem_range, ← Nat.sub_zero x.length, ← hzero] at ht
      exact (h.same b hb t ht).returns
    · intro t ht
      rw [length_slice] at ht
      exact window_slice hrewards (h.ahead b hb t ht)
  simp only [ofBatch, ← hrewards, ← hbatch, h.rewards, h.returns, mapM_congr hrows]

/-- Policy inputs are made of the timesteps that the look-ahead leaves and of the rewards that these
look ahead to. -/
theorem policyBatch_congr (h : x.Alike lookAhead y) (values : Tensor α 2) :
    policyBatch x values gamma lookAhead = policyBatch y values gamma lookAhead := by
  rw [policyBatch, policyBatch, ← ofBatch_congr h]
  cases hadvantages : ofBatch x.rewards x.returns values gamma lookAhead with
  | error e => rfl
  | ok advantages =>
      obtain ⟨hbatch, hkeep⟩ := Tensor.axes_of_shape (shape_of_ofBatch hadvantages).2.2.2
      have hobservations := Tensor.leading_three_congr h.observations fun b hb t ht =>
        (h.same b hb t ht).observations
      have hactions := Tensor.leading_three_congr h.actions fun b hb t ht =>
        (h.same b hb t ht).actions
      have hlogProbs := Tensor.leading_two_congr h.logProbs fun b hb t ht =>
        (h.same b hb t ht).logProbs
      have hdepth := Tensor.axis_eq_of_shape_eq h.observations 2
      have hdepth' := Tensor.axis_eq_of_shape_eq h.actions 2
      have hbatch : advantages.axis 0 = x.batchSize := hbatch
      have hkeep : advantages.axis 1 = x.length - lookAhead := hkeep
      simp only [bind, Except.bind, hbatch, hkeep, ← hdepth, ← hdepth', hobservations, hactions,
        hlogProbs]

end Advantage

namespace Algorithm

variable [Scalar α]

/-- The policy loss of a model on the policy inputs of a trajectory. -/
def policyLoss (algorithm : Algorithm α) (model : Model α) (trajectory : Trajectory α)
    (values : Tensor α 2) (gamma : α) (lookAhead : Nat) : Outcome α := do
  let batch ← algorithm.policyInputs trajectory values gamma lookAhead
  (Objective.policy algorithm.loss).loss model batch

/-- The gradients of the policy loss. -/
def policyGradients (algorithm : Algorithm α) (model : Model α) (trajectory : Trajectory α)
    (values : Tensor α 2) (gamma : α) (lookAhead : Nat) : Outcome (Gradients α) := do
  let batch ← algorithm.policyInputs trajectory values gamma lookAhead
  (Objective.policy algorithm.loss).gradients model batch

/-- Trajectories that differ only in padding have the same policy loss and the same gradients, as
long as the padding in which they differ is cut off. -/
theorem loss_of_cutPadding {algorithm : Algorithm α} (halgorithm : algorithm.Standard)
    {lookAhead : Nat} {x y : Trajectory α}
    (h : x.UpToPadding lookAhead y) (hkept : x.SameKeptPadding lookAhead y) (model : Model α)
    (values : Tensor α 2) (gamma : α) :
    algorithm.policyLoss model x values gamma lookAhead =
        algorithm.policyLoss model y values gamma lookAhead ∧
      algorithm.policyGradients model x values gamma lookAhead =
        algorithm.policyGradients model y values gamma lookAhead := by
  have hinputs : algorithm.policyInputs x values gamma lookAhead =
      algorithm.policyInputs y values gamma lookAhead := by
    rw [halgorithm.policyInputs_eq]
    exact Advantage.policyBatch_congr (h.alike hkept) values
  rw [policyLoss, policyLoss, policyGradients, policyGradients, hinputs]
  exact ⟨rfl, rfl⟩

namespace Line

/-- A model without weights, which gives out its observations. -/
def mirror : Model Float32 where
  architecture := ⟨fun _ observations => .ok observations, fun _ _ _ => .ok []⟩
  layers := []

/-- A slice of a real timestep and a padded one, with these data at the padded one. -/
def padded (data : Float32) : Trajectory Float32 where
  observations := ⟨#v[1, 2, 1], #[1, data], rfl⟩
  actions := ⟨#v[1, 2, 1], #[1, data], rfl⟩
  rewards := ⟨#v[1, 2], #[1, data], rfl⟩
  returns := ⟨#v[1, 2], #[1, 1], rfl⟩
  logProbs := ⟨#v[1, 2], #[-1, data], rfl⟩
  mask := ⟨#v[1, 2], #[1, 0], rfl⟩

/-- Value estimates of zero. -/
def estimates : Tensor Float32 2 := ⟨#v[1, 2], #[0, 0], rfl⟩

theorem zero_ne_one_float32 : (0 : Float32) ≠ 1 := by
  intro h
  have hless : Scalar.lt (0 : Float32) 1 = Scalar.lt (1 : Float32) 1 := congrArg (Scalar.lt · 1) h
  revert hless
  decide +kernel

theorem padded_sameAt (data data' : Float32) : (padded data).SameAt (padded data') 0 0 where
  observations i hi := by
    obtain rfl : i = 0 := Nat.lt_one_iff.mp hi
    rfl
  actions i hi := by
    obtain rfl : i = 0 := Nat.lt_one_iff.mp hi
    rfl
  rewards := rfl
  returns := rfl
  logProbs := rfl

theorem padded_upToPadding {lookAhead : Nat} (h : lookAhead ≤ 1) (data data' : Float32) :
    (padded data).UpToPadding lookAhead (padded data') where
  left := rfl
  right := rfl
  observations := rfl
  actions := rfl
  rewards := rfl
  mask := rfl
  unpadded b hb t ht hmask := by
    obtain rfl : b = 0 := Nat.lt_one_iff.mp hb
    have ht : t < 2 := ht
    match t with
    | 0 => exact padded_sameAt data data'
    | 1 => exact absurd rfl hmask
  real b hb t ht hmask := by
    obtain rfl : b = 0 := Nat.lt_one_iff.mp hb
    have ht : t < 2 := ht
    match t with
    | 0 =>
        refine ⟨padded_sameAt data data', fun k hk _ => ?_⟩
        obtain rfl : k = 0 := Nat.lt_one_iff.mp (Nat.lt_of_lt_of_le hk h)
        rfl
    | 1 => exact absurd hmask zero_ne_one_float32

/-- With a look-ahead of one timestep the loss is that of the real timestep, whatever the padded one
holds. -/
theorem loss_padded :
    (Algorithm.a2c (.gaussian 1 0.5)).policyLoss mirror (padded 2) estimates 0.5 1 =
      (Algorithm.a2c (.gaussian 1 0.5)).policyLoss mirror (padded 3) estimates 0.5 1 := by
  refine (loss_of_cutPadding (.a2c _) (padded_upToPadding (Nat.le_refl 1) 2 3) ?_ _ _ _).1
  intro b hb t ht hmask
  obtain rfl : b = 0 := Nat.lt_one_iff.mp hb
  obtain rfl : t = 0 := Nat.lt_one_iff.mp ht
  exact absurd rfl hmask

/-- A distribution whose log-probabilities are minus the squares of the actions, whatever the model
says. -/
def habit : Distribution Float32 where
  inputs := 1
  logProb inputs actions := (actions.map fun a => -(a * a)).reshape inputs.front
  pullback inputs _ _ := .ok (Tensor.tabulate inputs.dims fun _ => 0)

/-- Without a look-ahead nothing is cut off, and the loss is not that of the real timestep alone. -/
theorem not_loss_padded : (Algorithm.a2c habit).Standard ∧ (padded 1).UpToPadding 0 (padded 2) ∧
    (Algorithm.a2c habit).policyLoss mirror (padded 1) estimates 0.5 0 ≠
      (Algorithm.a2c habit).policyLoss mirror (padded 2) estimates 0.5 0 := by
  refine ⟨.a2c habit, padded_upToPadding (Nat.zero_le 1) 1 2, fun hsame => ?_⟩
  let below (loss : Outcome Float32) : Bool := Scalar.lt (loss.toOption.getD 0) 2
  have hbelow := congrArg below hsame
  revert hbelow
  decide +kernel

end Line

end Algorithm

end PolicyGradient
