import Mathlib
import PolicyGradient.Model.Perceptron
import PolicyGradient.Proofs.Exact
import PolicyGradient.Proofs.Update

/-!
Clipping by the norm goes gradient by gradient.

An optimizer with a largest norm updates a model as one without it would by the clipped gradients
(`update_eq_clipped`).  Every gradient has a factor of its own, which depends on its own norm, so
each of them is taken below the largest norm but all of them together need not be: that they are,
and by one factor, is `TakenDown`, and `takenDown_clip_iff` says when it holds.
-/

namespace PolicyGradient

open Outcome

namespace Adam

section

variable {α : Type}

/-- The settings without a largest norm. -/
def Settings.unlimited (settings : Settings α) : Settings α :=
  { settings with maxNorm := none }

/-- The gradients that reach a parameter of the model. -/
def reaching (model : Model α) (gradients : Gradients α) : List (ParamBlock α) :=
  (assigned model.layers gradients).flatten.filterMap Prod.snd

theorem assignedRow_map (f : ParamBlock α → ParamBlock α) (params : List (Param α))
    (gradients : List (Option (ParamBlock α))) :
    assignedRow params (gradients.map (Option.map f)) =
      (assignedRow params gradients).map (Prod.map id (Option.map f)) := by
  induction params generalizing gradients with
  | nil => rfl
  | cons param params ih =>
      cases gradients with
      | nil => simpa [assignedRow] using ih []
      | cons gradient gradients => simpa [assignedRow] using ih gradients

variable [Scalar α]

/-- The gradients, each of them clipped. -/
def clipped (settings : Settings α) (gradients : Gradients α) : Gradients α :=
  gradients.map (List.map (Option.map (clip settings)))

theorem updateParam_clip (settings : Settings α) (lr : α) (records : Records α) (param : Param α)
    (gradient : Option (ParamBlock α)) :
    updateParam settings.unlimited lr records param (gradient.map (clip settings)) =
      updateParam settings lr records param gradient := by
  cases gradient with
  | none => rfl
  | some gradient => rfl

theorem updateParams_clip (settings : Settings α) (lr : α) (records : Records α)
    (params : List (Param α)) (gradients : List (Option (ParamBlock α))) :
    updateParams settings.unlimited lr records params (gradients.map (Option.map (clip settings))) =
      updateParams settings lr records params gradients := by
  induction params generalizing records gradients with
  | nil => rfl
  | cons param params ih =>
      have hhead : (gradients.map (Option.map (clip settings))).head?.join =
          gradients.head?.join.map (clip settings) := by
        cases gradients with
        | nil => rfl
        | cons gradient gradients => rfl
      rw [updateParams, updateParams, hhead, updateParam_clip, ← List.map_tail]
      simp only [ih]

theorem updateLayers_clip (settings : Settings α) (lr : α) (records : Records α)
    (layers : List (List (Param α))) (gradients : Gradients α) :
    updateLayers settings.unlimited lr records layers (clipped settings gradients) =
      updateLayers settings lr records layers gradients := by
  induction layers generalizing records gradients with
  | nil => rfl
  | cons params layers ih =>
      have hhead : (clipped settings gradients).head?.getD [] =
          (gradients.head?.getD []).map (Option.map (clip settings)) := by
        cases gradients with
        | nil => rfl
        | cons row gradients => rfl
      have htail : (clipped settings gradients).tail = clipped settings gradients.tail :=
        List.map_tail.symm
      rw [updateLayers, updateLayers, hhead, updateParams_clip, htail]
      simp only [ih]

/-- A largest norm changes an update only by way of the gradients. -/
theorem update_eq_clipped (adam : Adam α) (lr : α) (model : Model α) (gradients : Gradients α) :
    adam.update lr model gradients =
      (({ adam with settings := adam.settings.unlimited } : Adam α).update lr model
        (clipped adam.settings gradients)).map fun updated =>
          ({ updated.1 with settings := adam.settings }, updated.2) := by
  rw [update, update, updateLayers_clip]
  show (Size.add adam.step 1 >>= _) = (Size.add adam.step 1 >>= _).map _
  cases Size.add adam.step 1 with
  | error e => rfl
  | ok step =>
      show (updateLayers adam.settings lr adam.records model.layers gradients >>= _) =
        (updateLayers adam.settings lr adam.records model.layers gradients >>= _).map _
      cases updateLayers adam.settings lr adam.records model.layers gradients with
      | error e => rfl
      | ok updated => rfl

theorem assigned_clipped (settings : Settings α) (layers : List (List (Param α)))
    (gradients : Gradients α) :
    assigned layers (clipped settings gradients) =
      (assigned layers gradients).map (List.map (Prod.map id (Option.map (clip settings)))) := by
  induction layers generalizing gradients with
  | nil => rfl
  | cons params layers ih =>
      cases gradients with
      | nil =>
          have hrow := assignedRow_map (clip settings) params []
          simpa [assigned, clipped] using ⟨hrow, ih []⟩
      | cons row gradients =>
          have hrow := assignedRow_map (clip settings) params row
          simpa [assigned, clipped] using ⟨hrow, ih gradients⟩

/-- The clipped gradients that reach a parameter. -/
theorem reaching_clipped (settings : Settings α) (model : Model α) (gradients : Gradients α) :
    reaching model (clipped settings gradients) =
      (reaching model gradients).map (clip settings) := by
  rw [reaching, reaching, assigned_clipped, ← List.map_flatten, List.filterMap_map,
    List.map_filterMap]
  rfl

end

end Adam

namespace Exact

/-- The elementary square root is a square root. -/
class SquareRoot (K : Type) [OrderedField K] [Elementary K] : Prop where
  sqrt_nonneg : ∀ x : K, 0 ≤ x → 0 ≤ Elementary.sqrt x
  sqrt_mul_self : ∀ x : K, 0 ≤ x → Elementary.sqrt x * Elementary.sqrt x = x

/-- The elementary functions on the real numbers. -/
noncomputable scoped instance real : Elementary ℝ where
  exp := Real.exp
  ln := Real.log
  sqrt := Real.sqrt
  tanh := Real.tanh
  pi := Real.pi
  truncate? x := some (if 0 ≤ x then ⌊x⌋ else ⌈x⌉)

instance : SquareRoot ℝ where
  sqrt_nonneg x _ := Real.sqrt_nonneg x
  sqrt_mul_self _ h := Real.mul_self_sqrt h

end Exact

open scoped Exact

variable {K : Type} [OrderedField K] [Exact.Elementary K]

namespace ParamBlock

/-- The sum of the squares of all entries. -/
def squares (block : ParamBlock K) : K :=
  (block.values.toList.map fun g => g * g).sum

/-- All entries times a factor. -/
def scale (factor : K) (block : ParamBlock K) : ParamBlock K :=
  block.map (· * factor)

theorem square_nonneg (block : ParamBlock K) :
    ∀ x ∈ block.values.toList.map fun g => g * g, 0 ≤ x := by
  intro x hx
  obtain ⟨g, _, rfl⟩ := List.mem_map.mp hx
  exact mul_self_nonneg g

theorem squares_nonneg (block : ParamBlock K) : 0 ≤ block.squares :=
  List.sum_nonneg block.square_nonneg

theorem squares_scale (factor : K) (block : ParamBlock K) :
    (block.scale factor).squares = factor * factor * block.squares := by
  have hterms : ∀ g : K, g * factor * (g * factor) = factor * factor * (g * g) := fun g => by ring
  simp only [squares, scale, map, Array.toList_map, List.map_map, Function.comp_def, hterms,
    List.sum_map_mul_left]

/-- Without squares all entries are zero. -/
theorem eq_zero_of_squares {block : ParamBlock K} (h : block.squares = 0) :
    ∀ g ∈ block.values.toList, g = 0 := by
  intro g hg
  have hzero :=
    List.all_zero_of_le_zero_le_of_sum_eq_zero block.square_nonneg h (List.mem_map_of_mem hg)
  exact mul_self_eq_zero.mp hzero

theorem scale_eq_scale_iff {block : ParamBlock K} {factor other : K} :
    block.scale factor = block.scale other ↔
      ∀ g ∈ block.values.toList, g * factor = g * other := by
  rw [← List.map_inj_left]
  constructor
  · intro h
    have hvalues := congrArg (fun scaled => scaled.values.toList) h
    simpa only [scale, map, Array.toList_map] using hvalues
  · intro h
    have hvalues : block.values.map (· * factor) = block.values.map (· * other) := by
      apply Array.toList_inj.mp
      rwa [Array.toList_map, Array.toList_map]
    rw [scale, scale, map, map, hvalues]

/-- Blocks of zeros do not tell factors apart. -/
theorem scale_of_squares_eq_zero {block : ParamBlock K} (h : block.squares = 0) (factor other : K) :
    block.scale factor = block.scale other := by
  apply scale_eq_scale_iff.mpr
  intro g hg
  rw [eq_zero_of_squares h g hg, zero_mul, zero_mul]

/-- All other blocks do. -/
theorem factor_eq_of_scale {block : ParamBlock K} (h : block.squares ≠ 0) {factor other : K}
    (hscale : block.scale factor = block.scale other) : factor = other := by
  by_contra hfactor
  have hzero : ∀ g ∈ block.values.toList, g = 0 := by
    intro g hg
    by_contra hg'
    exact hfactor (mul_left_cancel₀ hg' (scale_eq_scale_iff.mp hscale g hg))
  apply h
  apply List.sum_eq_zero
  intro x hx
  obtain ⟨g, hg, rfl⟩ := List.mem_map.mp hx
  rw [hzero g hg, zero_mul]

end ParamBlock

namespace Adam

/-- What is added to a norm before it is divided by. -/
def margin : K := 1 / ((1000000 : Nat) : K)

/-- The sum of the squares of all entries of all gradients. -/
def squares (gradients : List (ParamBlock K)) : K :=
  (gradients.map ParamBlock.squares).sum

/-- All gradients are multiplied by one factor, and then they lie within the limit together. -/
def TakenDown (limit : K) (given used : List (ParamBlock K)) : Prop :=
  ∃ factor, 0 < factor ∧ factor ≤ 1 ∧ used = given.map (ParamBlock.scale factor) ∧
    squares used ≤ limit * limit

theorem margin_pos : 0 < (margin : K) := by
  have hcast : (0 : K) < ((1000000 : Nat) : K) := by positivity
  exact one_div_pos.mpr hcast

theorem clipFactor_eq (limit : K) (gradient : ParamBlock K) :
    clipFactor limit gradient = min 1 (limit / (norm gradient + margin)) := by
  have hunfold : clipFactor limit gradient =
      if 1 < limit / (norm gradient + margin) then 1 else limit / (norm gradient + margin) := by
    simp only [clipFactor, Scalar.lt, decide_eq_true_eq]
    rfl
  rw [hunfold]
  split
  case isTrue h => exact (min_eq_left h.le).symm
  case isFalse h => exact (min_eq_right (le_of_not_gt h)).symm

theorem clipFactor_le_one (limit : K) (gradient : ParamBlock K) :
    clipFactor limit gradient ≤ 1 := by
  rw [clipFactor_eq]
  exact min_le_left _ _

theorem clip_eq_scale {settings : Settings K} {limit : K} (h : settings.maxNorm = some limit)
    (gradient : ParamBlock K) :
    clip settings gradient = gradient.scale (clipFactor limit gradient) := by
  rw [clip, h]
  rfl

theorem norm_eq (gradient : ParamBlock K) :
    norm gradient = Exact.Elementary.sqrt gradient.squares := by
  have hsum : (gradient.values.map fun g => g * g).foldl (· + ·) 0 = gradient.squares := by
    rw [ParamBlock.squares, List.sum_eq_foldl, ← Array.toList_map, Array.foldl_toList]
  rw [← hsum]
  rfl

/-- Two gradients have the same norm, or both are within the limit. -/
def Level (limit : K) (gradient other : ParamBlock K) : Prop :=
  norm gradient = norm other ∨ norm gradient + margin ≤ limit ∧ norm other + margin ≤ limit

section

variable [Exact.SquareRoot K] {settings : Settings K} {limit : K}

theorem norm_nonneg (gradient : ParamBlock K) : 0 ≤ norm gradient := by
  rw [norm_eq]
  exact Exact.SquareRoot.sqrt_nonneg _ gradient.squares_nonneg

theorem norm_mul_self (gradient : ParamBlock K) :
    norm gradient * norm gradient = gradient.squares := by
  rw [norm_eq]
  exact Exact.SquareRoot.sqrt_mul_self _ gradient.squares_nonneg

theorem norm_add_margin_pos (gradient : ParamBlock K) : 0 < norm gradient + margin :=
  add_pos_of_nonneg_of_pos (norm_nonneg gradient) margin_pos

theorem clipFactor_pos (hlimit : 0 < limit) (gradient : ParamBlock K) :
    0 < clipFactor limit gradient := by
  rw [clipFactor_eq]
  exact lt_min one_pos (div_pos hlimit (norm_add_margin_pos gradient))

/-- The margin keeps a clipped gradient strictly below the limit. -/
theorem clipFactor_mul_norm_lt (hlimit : 0 < limit) (gradient : ParamBlock K) :
    clipFactor limit gradient * norm gradient < limit := by
  have hratio : clipFactor limit gradient ≤ limit / (norm gradient + margin) := by
    rw [clipFactor_eq]
    exact min_le_right _ _
  calc clipFactor limit gradient * norm gradient
      < clipFactor limit gradient * (norm gradient + margin) :=
        mul_lt_mul_of_pos_left (lt_add_of_pos_right _ margin_pos) (clipFactor_pos hlimit gradient)
    _ ≤ limit := (le_div_iff₀ (norm_add_margin_pos gradient)).mp hratio

theorem squares_clip_lt (hlimit : 0 < limit) (hsettings : settings.maxNorm = some limit)
    (gradient : ParamBlock K) : (clip settings gradient).squares < limit * limit := by
  have hnorm : 0 ≤ clipFactor limit gradient * norm gradient :=
    mul_nonneg (clipFactor_pos hlimit gradient).le (norm_nonneg gradient)
  calc (clip settings gradient).squares
      = clipFactor limit gradient * norm gradient *
          (clipFactor limit gradient * norm gradient) := by
        rw [clip_eq_scale hsettings, ParamBlock.squares_scale, ← norm_mul_self]
        ring
    _ < limit * limit := mul_self_lt_mul_self hnorm (clipFactor_mul_norm_lt hlimit gradient)

/-- Two gradients have one factor exactly where they are level. -/
theorem clipFactor_eq_iff (hlimit : 0 < limit) (gradient other : ParamBlock K) :
    clipFactor limit gradient = clipFactor limit other ↔ Level limit gradient other := by
  have hwithin : ∀ g : ParamBlock K, clipFactor limit g = 1 ↔ norm g + margin ≤ limit := by
    intro g
    rw [clipFactor_eq, min_eq_left_iff, one_le_div (norm_add_margin_pos g)]
  have hbeyond : ∀ g : ParamBlock K, limit ≤ norm g + margin →
      clipFactor limit g = limit / (norm g + margin) := by
    intro g hg
    rw [clipFactor_eq, min_eq_right]
    exact (div_le_one (norm_add_margin_pos g)).mpr hg
  constructor
  · intro heq
    by_cases hfirst : norm gradient + margin ≤ limit
    · have hone := (hwithin gradient).mpr hfirst
      exact Or.inr ⟨hfirst, (hwithin other).mp (heq ▸ hone)⟩
    · have hsecond : ¬ norm other + margin ≤ limit := by
        intro hle
        exact hfirst ((hwithin gradient).mp (heq.trans ((hwithin other).mpr hle)))
      rw [hbeyond gradient (le_of_not_ge hfirst), hbeyond other (le_of_not_ge hsecond),
        div_eq_div_iff (norm_add_margin_pos gradient).ne' (norm_add_margin_pos other).ne'] at heq
      exact Or.inl (add_right_cancel (mul_left_cancel₀ hlimit.ne' heq)).symm
  · rintro (hnorm | ⟨hfirst, hsecond⟩)
    · rw [clipFactor_eq, clipFactor_eq, hnorm]
    · rw [(hwithin gradient).mpr hfirst, (hwithin other).mpr hsecond]

/-- All gradients are within the limit. -/
theorem squares_clipped_le (hlimit : 0 < limit) (hsettings : settings.maxNorm = some limit)
    (given : List (ParamBlock K)) :
    squares (given.map (clip settings)) ≤ given.length * (limit * limit) := by
  have hle : ∀ x ∈ (given.map (clip settings)).map ParamBlock.squares, x ≤ limit * limit := by
    intro x hx
    obtain ⟨_, hused, rfl⟩ := List.mem_map.mp hx
    obtain ⟨gradient, _, rfl⟩ := List.mem_map.mp hused
    exact (squares_clip_lt hlimit hsettings gradient).le
  have hsum := List.sum_le_card_nsmul _ _ hle
  rwa [List.length_map, List.length_map, nsmul_eq_mul] at hsum

/-- The clipped gradients are the given ones taken down together exactly where those that are not
zero are level and the sum of all squares happens to be within the limit. -/
theorem takenDown_clip_iff (hlimit : 0 < limit) (hsettings : settings.maxNorm = some limit)
    (given : List (ParamBlock K)) :
    TakenDown limit given (given.map (clip settings)) ↔
      squares (given.map (clip settings)) ≤ limit * limit ∧
        ∀ g ∈ given, ∀ h ∈ given, g.squares ≠ 0 → h.squares ≠ 0 → Level limit g h := by
  constructor
  · rintro ⟨factor, _, _, hused, hsum⟩
    have hfactor : ∀ g ∈ given, g.squares ≠ 0 → clipFactor limit g = factor := by
      intro g hg hsquares
      apply ParamBlock.factor_eq_of_scale hsquares
      rw [← clip_eq_scale hsettings]
      exact List.map_inj_left.mp hused g hg
    refine ⟨hsum, fun g hg h hh hgsquares hhsquares => ?_⟩
    apply (clipFactor_eq_iff hlimit g h).mp
    rw [hfactor g hg hgsquares, hfactor h hh hhsquares]
  · rintro ⟨hsum, hlevel⟩
    -- One that is not zero gives the factor of all, and without one any factor will do.
    obtain ⟨factor, hpos, hle, hfactor⟩ : ∃ factor, 0 < factor ∧ factor ≤ 1 ∧
        ∀ g ∈ given, g.squares ≠ 0 → clipFactor limit g = factor := by
      by_cases hsome : ∃ g ∈ given, g.squares ≠ 0
      · obtain ⟨g, hg, hsquares⟩ := hsome
        refine ⟨clipFactor limit g, clipFactor_pos hlimit g, clipFactor_le_one limit g, ?_⟩
        intro h hh hhsquares
        exact (clipFactor_eq_iff hlimit h g).mpr (hlevel h hh g hg hhsquares hsquares)
      · refine ⟨1, one_pos, le_refl 1, fun g hg hsquares => ?_⟩
        exact absurd ⟨g, hg, hsquares⟩ hsome
    refine ⟨factor, hpos, hle, ?_, hsum⟩
    apply List.map_inj_left.mpr
    intro g hg
    rw [clip_eq_scale hsettings]
    by_cases hsquares : g.squares = 0
    · exact ParamBlock.scale_of_squares_eq_zero hsquares _ _
    · rw [hfactor g hg hsquares]

/-- What a largest norm makes of the gradients of a model. -/
structure ClippedApart (limit : K) (given used : List (ParamBlock K)) : Prop where
  /-- Every gradient has a factor of its own. -/
  used_eq : used = given.map fun gradient =>
    gradient.scale (min 1 (limit / (norm gradient + margin)))
  factor_pos : ∀ gradient ∈ given, 0 < min 1 (limit / (norm gradient + margin))
  /-- Every gradient is taken below the limit. -/
  each : ∀ gradient ∈ used, gradient.squares < limit * limit
  /-- All together have as many times the limit as there are gradients. -/
  total : squares used ≤ given.length * (limit * limit)
  /-- When they have been taken down together. -/
  takenDown_iff : TakenDown limit given used ↔ squares used ≤ limit * limit ∧
    ∀ g ∈ given, ∀ h ∈ given, g.squares ≠ 0 → h.squares ≠ 0 → Level limit g h

theorem clippedApart (hlimit : 0 < limit) (hsettings : settings.maxNorm = some limit)
    (given : List (ParamBlock K)) : ClippedApart limit given (given.map (clip settings)) := by
  refine ⟨?_, ?_, ?_, squares_clipped_le hlimit hsettings given,
    takenDown_clip_iff hlimit hsettings given⟩
  · apply List.map_inj_left.mpr
    intro gradient _
    rw [clip_eq_scale hsettings, clipFactor_eq]
  · intro gradient _
    rw [← clipFactor_eq]
    exact clipFactor_pos hlimit gradient
  · intro used hused
    obtain ⟨gradient, _, rfl⟩ := List.mem_map.mp hused
    exact squares_clip_lt hlimit hsettings gradient

/-- An optimizer with a largest norm updates a model by its gradients, each of them clipped by
itself. -/
theorem clips_apart {adam : Adam K} (hlimit : 0 < limit)
    (hsettings : adam.settings.maxNorm = some limit) (lr : K) (model : Model K)
    (gradients : Gradients K) :
    adam.update lr model gradients =
        (({ adam with settings := adam.settings.unlimited } : Adam K).update lr model
          (clipped adam.settings gradients)).map (fun updated =>
            ({ updated.1 with settings := adam.settings }, updated.2)) ∧
      ClippedApart limit (reaching model gradients)
        (reaching model (clipped adam.settings gradients)) := by
  refine ⟨update_eq_clipped adam lr model gradients, ?_⟩
  rw [reaching_clipped]
  exact clippedApart hlimit hsettings _

end

namespace Pair

open scoped Exact

/-- A weight and a bias, both zero. -/
noncomputable def model : Model ℝ where
  architecture := Perceptron.architecture
  layers := [[⟨0, true, ⟨[1, 1], #[0]⟩, rfl, rfl⟩, ⟨1, true, ⟨[1], #[0]⟩, rfl, rfl⟩]]

/-- Half of the norm that a gradient of 3 and one of 4 have together. -/
noncomputable def adam : Adam ℝ :=
  ofSettings ⟨1 / 2, 1 / 2, 0, 0, some (5 / 2)⟩

/-- A gradient of 3 for the weight. -/
def steep : ParamBlock ℝ := ⟨[1, 1], #[3]⟩

/-- A gradient of 4 for the bias. -/
def steeper : ParamBlock ℝ := ⟨[1], #[4]⟩

/-- Gradients for both. -/
def slopes : Gradients ℝ := [[some steep, some steeper]]

theorem squares_steep : steep.squares = 9 := by
  norm_num [ParamBlock.squares, steep]

theorem squares_steeper : steeper.squares = 16 := by
  norm_num [ParamBlock.squares, steeper]

theorem norm_steep : norm steep = 3 := by
  rw [norm_eq, squares_steep]
  exact (Real.sqrt_eq_iff_mul_self_eq (by norm_num) (by norm_num)).mpr (by norm_num)

theorem norm_steeper : norm steeper = 4 := by
  rw [norm_eq, squares_steeper]
  exact (Real.sqrt_eq_iff_mul_self_eq (by norm_num) (by norm_num)).mpr (by norm_num)

/-- Both gradients are taken down almost to the largest norm, each by a factor of its own. -/
theorem clips_apart_slopes : (0 : ℝ) < 5 / 2 ∧ adam.settings.maxNorm = some (5 / 2) ∧
    reaching model (clipped adam.settings slopes) =
      [steep.scale ((5 / 2) / (3 + margin)), steeper.scale ((5 / 2) / (4 + margin))] := by
  have hlimit : (0 : ℝ) < 5 / 2 := by norm_num
  have hsettings : adam.settings.maxNorm = some (5 / 2) := rfl
  refine ⟨hlimit, hsettings, ?_⟩
  have hmargin : (0 : ℝ) < margin := margin_pos
  have hfactor : ∀ x : ℝ, 3 ≤ x → min 1 ((5 / 2) / (x + margin)) = (5 / 2) / (x + margin) := by
    intro x hx
    apply min_eq_right
    rw [div_le_one (by linarith)]
    linarith
  rw [(clips_apart hlimit hsettings (1 / 2) model slopes).2.used_eq]
  show [steep.scale (min 1 ((5 / 2) / (norm steep + margin))),
    steeper.scale (min 1 ((5 / 2) / (norm steeper + margin)))] = _
  rw [norm_steep, norm_steeper, hfactor 3 (by norm_num), hfactor 4 (by norm_num)]

/-- So they are not taken down together. -/
theorem not_takenDown_slopes : (0 : ℝ) < 5 / 2 ∧ adam.settings.maxNorm = some (5 / 2) ∧
    ¬ TakenDown (5 / 2) (reaching model slopes)
      (reaching model (clipped adam.settings slopes)) := by
  have hlimit : (0 : ℝ) < 5 / 2 := by norm_num
  refine ⟨hlimit, rfl, fun htaken => ?_⟩
  rw [reaching_clipped] at htaken
  have hlevel := ((takenDown_clip_iff hlimit rfl _).mp htaken).2 steep List.mem_cons_self steeper
    (List.mem_cons_of_mem _ List.mem_cons_self) (by norm_num [squares_steep])
    (by norm_num [squares_steeper])
  rw [Level, norm_steep, norm_steeper] at hlevel
  have hmargin : (0 : ℝ) < margin := margin_pos
  rcases hlevel with hsame | ⟨hfirst, _⟩
  · norm_num at hsame
  · linarith

end Pair

end Adam

end PolicyGradient
