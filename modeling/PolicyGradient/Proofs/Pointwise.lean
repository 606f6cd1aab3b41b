import Mathlib
import PolicyGradient.Proofs.Gradients
import PolicyGradient.Proofs.PolicyBatches
import PolicyGradient.Proofs.Sums

/-!
Maps of sequences that work at each timestep by itself.

The vector at a timestep decides the vector that comes out there, whatever the sequence holds beside
it.  Such maps can be chained, so a perceptron is one (`Perceptron.isPerTimestep`).
-/

namespace PolicyGradient

open Outcome

variable {α : Type}

theorem Outcome.agree_of_eq {x y : Outcome α} (h : x = y) : Agree Eq x y :=
  h ▸ agree_self x

namespace Tensor

/-- The sequences have this timestep. -/
def HasStep (x : Tensor α 3) (b t : Nat) : Prop :=
  b < x.axis 0 ∧ t < x.axis 1

variable [Zero α]

/-- There is one tensor of a shape without positions. -/
theorem eq_of_volume_eq_zero {rank : Nat} {s t : Tensor α rank} (hshape : s.shape = t.shape)
    (h : Size.volume t.shape = 0) : s = t := by
  rw [← s.tabulate_entry, ← t.tabulate_entry, Vector.toList_inj.mp hshape]
  apply tabulate_congr
  intro p hp
  have hempty : Shape.ravel t.shape p < Size.volume t.shape := (Shape.unravel_ravel _ _ hp).2
  omega

/-- The vector at a timestep. -/
def vectorAt (x : Tensor α 3) (b t : Nat) : List α :=
  (List.range (x.axis 2)).map fun i => x.entry [b, t, i]

theorem axis_eq_of_vectorAt {x x' : Tensor α 3} {b t : Nat}
    (h : x'.vectorAt b t = x.vectorAt b t) : x'.axis 2 = x.axis 2 := by
  have hlength := congrArg List.length h
  simpa [vectorAt] using hlength

theorem entry_eq_of_vectorAt {x x' : Tensor α 3} {b t i : Nat}
    (h : x'.vectorAt b t = x.vectorAt b t) (hi : i < x.axis 2) :
    x'.entry [b, t, i] = x.entry [b, t, i] := by
  have hi' : i < x'.axis 2 := axis_eq_of_vectorAt h ▸ hi
  have hentry := congrArg (·[i]?) h
  simpa [vectorAt, hi, hi'] using hentry

omit [Zero α] in
theorem inBounds_of_hasStep {x : Tensor α 3} {b t i : Nat} (h : x.HasStep b t)
    (hi : i < x.axis 2) : Shape.InBounds x.shape [b, t, i] := by
  rw [x.shape_eq_three]
  exact ⟨h.1, h.2, hi, trivial⟩

theorem entry_map {β : Type} [Zero β] {rank : Nat} (g : α → β) {x : Tensor α rank} {p : List Nat}
    (h : Shape.InBounds x.shape p) : (x.map g).entry p = g (x.entry p) := by
  have hplace : Shape.ravel x.shape p < x.data.size := by
    rw [x.size_eq]
    exact (Shape.unravel_ravel _ _ h).2
  have hshape : (x.map g).shape = x.shape := rfl
  rw [entry, entry, hshape]
  simp [map, Array.getD, hplace]

theorem vectorAt_map {β : Type} [Zero β] (g : α → β) {x : Tensor α 3} {b t : Nat}
    (h : x.HasStep b t) : (x.map g).vectorAt b t = (x.vectorAt b t).map g := by
  have haxis : (x.map g).axis 2 = x.axis 2 := rfl
  rw [vectorAt, vectorAt, List.map_map, haxis]
  apply List.map_congr_left
  intro i hi
  exact entry_map g (inBounds_of_hasStep h (List.mem_range.mp hi))

theorem vectorAt_tabulate {b l d : Nat} (f : List Nat → α) {i t : Nat} (hi : i < b) (ht : t < l) :
    (tabulate #v[b, l, d] f).vectorAt i t = (List.range d).map fun j => f [i, t, j] := by
  have haxis : (tabulate #v[b, l, d] f).axis 2 = d := rfl
  rw [vectorAt, haxis]
  apply List.map_congr_left
  intro j hj
  exact entry_tabulate _ _ _ ⟨hi, ht, List.mem_range.mp hj, trivial⟩

end Tensor

/-- A map that works at each timestep by itself.  Once there is a timestep, the depth alone decides
whether it gives a result, and how it fails if not. -/
structure Pointwise [Zero α] (f : Tensor α 3 → Outcome (Tensor α 3)) : Prop where
  sizes : ∀ {x y}, f x = .ok y → leadingSizes y = leadingSizes x
  depth : ∀ {x x' y y'}, f x = .ok y → f x' = .ok y' → x'.axis 2 = x.axis 2 →
    y'.axis 2 = y.axis 2
  alike : ∀ {x x' y y' b t}, f x = .ok y → f x' = .ok y' → x.HasStep b t → x'.HasStep b t →
    x'.vectorAt b t = x.vectorAt b t → y'.vectorAt b t = y.vectorAt b t
  answers : ∀ {x x' y}, f x = .ok y → x'.axis 2 = x.axis 2 → 0 < x'.axis 1 → ∃ y', f x' = .ok y'
  refuses : ∀ {x x' e}, f x = .error e → x'.axis 2 = x.axis 2 → 0 < x.axis 1 → 0 < x'.axis 1 →
    f x' = .error e

namespace Pointwise

variable [Zero α] {f g : Tensor α 3 → Outcome (Tensor α 3)}

theorem axes (h : Pointwise f) {x y : Tensor α 3} (hy : f x = .ok y) :
    y.axis 0 = x.axis 0 ∧ y.axis 1 = x.axis 1 :=
  Tensor.axes_of_leadingSizes (h.sizes hy)

theorem hasStep (h : Pointwise f) {x y : Tensor α 3} (hy : f x = .ok y) {b t : Nat}
    (hstep : x.HasStep b t) : y.HasStep b t := by
  obtain ⟨hb, ht⟩ := h.axes hy
  rwa [Tensor.HasStep, hb, ht]

/-- Of two sequences of one shape both give a result, or both fail in the same way. -/
theorem agree (h : Pointwise f) {x x' : Tensor α 3} (hshape : x'.shape = x.shape) :
    Agree (fun y' y => f x' = .ok y' ∧ f x = .ok y) (f x') (f x) := by
  have haxis := Tensor.axis_eq_of_shape_eq hshape
  by_cases hlength : 0 < x.axis 1
  · cases hy : f x with
    | error e =>
        rw [h.refuses hy (haxis 2) hlength (haxis 1 ▸ hlength)]
        exact .error e
    | ok y =>
        obtain ⟨y', hy'⟩ := h.answers hy (haxis 2) (haxis 1 ▸ hlength)
        rw [hy']
        exact .ok ⟨rfl, rfl⟩
  · have hempty : Size.volume x.shape = 0 := by
      have hzero : x.axis 1 = 0 := by omega
      rw [x.shape_eq_three, hzero]
      simp [Size.volume]
    rw [Tensor.eq_of_volume_eq_zero hshape hempty]
    exact (agree_self (f x)).of_ok fun y' y hy' hy _ => ⟨hy', hy⟩

/-- What fails is not asked for its timesteps. -/
theorem of_error (e : Failure) : Pointwise fun _ : Tensor α 3 => .error e where
  sizes hy := nomatch hy
  depth hy := nomatch hy
  alike hy := nomatch hy
  answers hy := nomatch hy
  refuses he _ _ _ := he

theorem of_map (g : α → α) : Pointwise fun x : Tensor α 3 => .ok (x.map g) where
  sizes hy := by
    cases hy
    rfl
  depth hy hy' haxis := by
    cases hy
    cases hy'
    exact haxis
  alike hy hy' hstep hstep' hvector := by
    cases hy
    cases hy'
    rw [Tensor.vectorAt_map g hstep, Tensor.vectorAt_map g hstep', hvector]
  answers _ _ _ := ⟨_, rfl⟩
  refuses he := nomatch he

theorem of_id : Pointwise (.ok : Tensor α 3 → Outcome (Tensor α 3)) where
  sizes hy := by
    cases hy
    rfl
  depth hy hy' haxis := by
    cases hy
    cases hy'
    exact haxis
  alike hy hy' _ _ hvector := by
    cases hy
    cases hy'
    exact hvector
  answers _ _ _ := ⟨_, rfl⟩
  refuses he := nomatch he

theorem bind (hf : Pointwise f) (hg : Pointwise g) : Pointwise fun x => f x >>= g where
  sizes hy := by
    obtain ⟨z, hz, hy⟩ := bind_eq_ok.mp hy
    exact (hg.sizes hy).trans (hf.sizes hz)
  depth hy hy' haxis := by
    obtain ⟨z, hz, hy⟩ := bind_eq_ok.mp hy
    obtain ⟨z', hz', hy'⟩ := bind_eq_ok.mp hy'
    exact hg.depth hy hy' (hf.depth hz hz' haxis)
  alike hy hy' hstep hstep' hvector := by
    obtain ⟨z, hz, hy⟩ := bind_eq_ok.mp hy
    obtain ⟨z', hz', hy'⟩ := bind_eq_ok.mp hy'
    exact hg.alike hy hy' (hf.hasStep hz hstep) (hf.hasStep hz' hstep')
      (hf.alike hz hz' hstep hstep' hvector)
  answers hy haxis hlength := by
    obtain ⟨z, hz, hy⟩ := bind_eq_ok.mp hy
    obtain ⟨z', hz'⟩ := hf.answers hz haxis hlength
    obtain ⟨y', hy'⟩ := hg.answers hy (hf.depth hz hz' haxis) ((hf.axes hz').2 ▸ hlength)
    exact ⟨y', bind_eq_ok.mpr ⟨z', hz', hy'⟩⟩
  refuses {x x' e} he haxis hlength hlength' := by
    cases hz : f x with
    | error e' =>
        rw [hz] at he
        cases he
        rw [hf.refuses hz haxis hlength hlength']
        rfl
    | ok z =>
        rw [hz] at he
        obtain ⟨z', hz'⟩ := hf.answers hz haxis hlength'
        rw [hz']
        exact hg.refuses he (hf.depth hz hz' haxis) ((hf.axes hz).2 ▸ hlength)
          ((hf.axes hz').2 ▸ hlength')

end Pointwise

/-- A model of one number for each timestep, which depends on the observation there alone. -/
structure Model.IsPerTimestep [Zero α] (model : Model α) : Prop where
  pointwise : Pointwise model.output
  single : ∀ {x y}, model.output x = .ok y → y.axis 2 = 1

theorem Model.IsPerTimestep.shape_eq [Zero α] {model : Model α} (h : model.IsPerTimestep)
    {x y : Tensor α 3} (hy : model.output x = .ok y) : y.shape = [x.axis 0, x.axis 1, 1] := by
  obtain ⟨hb, hl⟩ := h.pointwise.axes hy
  rw [y.shape_eq_three, hb, hl, h.single hy]

variable [Scalar α]

theorem Scalar.dot_congr {n : Nat} {f f' g : Nat → α} (h : ∀ i < n, f i = f' i) :
    dot n f g = dot n f' g := by
  induction n with
  | zero => rfl
  | succ n ih =>
      rw [dot, dot, h n (Nat.lt_succ_self n), ih fun i hi => h i (Nat.lt_succ_of_lt hi)]

namespace Perceptron

namespace Affine

theorem apply_eq_ok {f : Affine α} {x y : Tensor α 3} (h : f.apply x = .ok y) :
    (x.axis 2 = f.width ∧ 0 < x.axis 1 ∧ 0 < f.width ∧ 0 < f.out) ∧
      y.shape = [x.axis 0, x.axis 1, f.out] := by
  unfold apply at h
  split at h
  case isTrue hfits =>
    cases h
    exact ⟨hfits, rfl⟩
  case isFalse => cases h

/-- What an affine layer makes of a vector is decided by the vector. -/
theorem vectorAt_of_apply {f : Affine α} {x x' y y' : Tensor α 3} {b t : Nat}
    (h : f.apply x = .ok y) (h' : f.apply x' = .ok y') (hstep : x.HasStep b t)
    (hstep' : x'.HasStep b t) (hvector : x'.vectorAt b t = x.vectorAt b t) :
    y'.vectorAt b t = y.vectorAt b t := by
  obtain ⟨hfits, _⟩ := apply_eq_ok h
  obtain ⟨hfits', _⟩ := apply_eq_ok h'
  rw [apply, if_pos hfits] at h
  rw [apply, if_pos hfits'] at h'
  cases h
  cases h'
  rw [Tensor.vectorAt_tabulate _ hstep.1 hstep.2, Tensor.vectorAt_tabulate _ hstep'.1 hstep'.2]
  apply List.map_congr_left
  intro j _
  have hdot : Scalar.dot f.width (fun i => x'.entry [b, t, i]) (fun i => f.entry i j) =
      Scalar.dot f.width (fun i => x.entry [b, t, i]) fun i => f.entry i j :=
    Scalar.dot_congr fun i hi => Tensor.entry_eq_of_vectorAt hvector (hfits.1 ▸ hi)
  simp only [List.getD_cons_zero, List.getD_cons_succ, hdot]

theorem pointwise_apply (f : Affine α) : Pointwise f.apply where
  sizes hy := by
    obtain ⟨_, hshape⟩ := apply_eq_ok hy
    simp [leadingSizes, Tensor.axis, hshape]
  depth hy hy' _ := by
    obtain ⟨_, hshape⟩ := apply_eq_ok hy
    obtain ⟨_, hshape'⟩ := apply_eq_ok hy'
    simp [Tensor.axis, hshape, hshape']
  alike := vectorAt_of_apply
  answers hy haxis hlength := by
    obtain ⟨⟨hwidth, _, hpositive⟩, _⟩ := apply_eq_ok hy
    exact ⟨_, if_pos ⟨haxis.trans hwidth, hlength, hpositive⟩⟩
  refuses {x x' e} he haxis hlength hlength' := by
    have hfits : ¬ (x.axis 2 = f.width ∧ 0 < x.axis 1 ∧ 0 < f.width ∧ 0 < f.out) := by
      intro hfits
      rw [apply, if_pos hfits] at he
      cases he
    rw [apply, if_neg hfits] at he
    rw [apply, if_neg fun h => hfits ⟨haxis ▸ h.1, hlength, h.2.2⟩, he]

end Affine

/-- The recursion over layers chains pointwise maps. -/
theorem pointwise_output (layers : List (LayerWeights α)) : Pointwise (output layers) := by
  induction layers with
  | nil => exact .of_id
  | cons layer layers ih =>
      cases hf : Affine.ofWeights layer with
      | error e =>
          have houtput : output (layer :: layers) = fun _ => .error e := by
            funext x
            cases layers with
            | nil => simp only [output, hf, bind, Except.bind]
            | cons => simp only [output, hf, bind, Except.bind]
          rw [houtput]
          exact .of_error e
      | ok f =>
          cases layers with
          | nil =>
              have houtput : output [layer] = f.apply := by
                funext x
                simp only [output, hf, bind, Except.bind]
              rw [houtput]
              exact f.pointwise_apply
          | cons next layers =>
              have houtput : output (layer :: next :: layers) = fun x =>
                  f.apply x >>= fun z => output (next :: layers) (z.map Scalar.tanh) := by
                funext x
                simp only [output, hf, bind, Except.bind]
              rw [houtput]
              exact f.pointwise_apply.bind ((Pointwise.of_map Scalar.tanh).bind ih)

/-- There is an output only for the inputs that the first layer takes. -/
theorem apply_of_output {layer : LayerWeights α} {layers : List (LayerWeights α)}
    {x y : Tensor α 3} (h : output (layer :: layers) x = .ok y) :
    ∃ f z, Affine.ofWeights layer = .ok f ∧ f.apply x = .ok z := by
  cases layers with
  | nil =>
      obtain ⟨f, hf, hy⟩ := bind_eq_ok.mp h
      exact ⟨f, y, hf, hy⟩
  | cons next layers =>
      obtain ⟨f, hf, h⟩ := bind_eq_ok.mp h
      obtain ⟨z, hz, _⟩ := bind_eq_ok.mp h
      exact ⟨f, z, hf, hz⟩

/-- A perceptron with layers that fit together and have one output works at each timestep by
itself. -/
theorem isPerTimestep {model : Model α} {depth : Nat}
    (harchitecture : model.architecture = architecture) (hlayers : model.layers ≠ [])
    (h : Joined depth model.layout 1) : model.IsPerTimestep := by
  have houtput : model.output = output model.weights.layers := by
    funext x
    rw [Model.output, harchitecture]
    rfl
  refine ⟨houtput ▸ pointwise_output _, fun {x y} hy => ?_⟩
  rw [houtput] at hy
  have hweights : model.weights.layers ≠ [] := fun hnil => hlayers (List.map_eq_nil_iff.mp hnil)
  obtain ⟨layer, layers, hcons⟩ := List.exists_cons_of_ne_nil hweights
  have hjoined : Joined depth (model.weights.layers.map LayerWeights.layout) 1 := h
  -- the first layer has refused inputs of any other depth
  have hinputs : x.axis 2 = depth ∧ 0 < x.axis 1 := by
    rw [hcons] at hjoined hy
    obtain ⟨f, z, hf, hz⟩ := apply_of_output hy
    obtain ⟨⟨hwidth, hlength, _⟩, _⟩ := Affine.apply_eq_ok hz
    cases hjoined with
    | cons hshapes _ _ _ =>
        obtain ⟨f', hf', rfl, _⟩ := exists_ofWeights hshapes
        cases hf.symm.trans hf'
        exact ⟨hwidth, hlength⟩
  obtain ⟨hdepth, hlength⟩ := hinputs
  obtain ⟨y', hy', hshape⟩ := exists_output hjoined (hdepth ▸ x.shape_eq_three) hlength
  cases hy.symm.trans hy'
  simp [Tensor.axis, hshape]

theorem line_isPerTimestep (id : Nat) (w : α) : (line id w).IsPerTimestep :=
  @isPerTimestep _ _ _ 1 rfl (List.cons_ne_nil _ _)
    (.cons (.inl rfl) Nat.one_pos Nat.one_pos (.nil 1))

end Perceptron

end PolicyGradient
