import PolicyGradient.Model.Perceptron
import PolicyGradient.Proofs.Load
import PolicyGradient.Proofs.Mismatch

/-!
What loading weights into a model accepts and what it reports.

Loading compares the number of layers and all shapes, but not whether the blocks are filled.
`Model.Loads` says how it ends for any weights: with the given weights in the model, with an error
about the first difference, or with a broken precondition for weights of the model's layout that
are not filled.  So it reports all weights that do not match (`Model.LoadsOrReports`) exactly where
these do not occur.
-/

namespace PolicyGradient

open Outcome

variable {α : Type}

namespace Model

/-- The weights have the model's layout and are filled. -/
def Matches (model : Model α) (weights : ModelWeights α) : Prop :=
  weights.layout = model.layout ∧ weights.IsFilled

/-- A model that has taken the weights over: they are its weights now, and it has kept its
architecture, its identities and which parameters gradients reach. -/
structure TakenOver (model : Model α) (weights : ModelWeights α) (loaded : Model α) : Prop where
  weights_eq : loaded.weights = weights
  identities_eq : loaded.identities = model.identities
  tracked_eq : loaded.layers.map (List.map Param.tracked) =
    model.layers.map (List.map Param.tracked)
  architecture_eq : loaded.architecture = model.architecture

/-- How loading some weights ends. -/
structure Loads (model : Model α) (weights : ModelWeights α) : Prop where
  /-- Weights that match go in, and no others. -/
  exists_iff : (∃ loaded, model.load weights = .ok loaded) ↔ model.Matches weights
  takenOver : ∀ loaded, model.load weights = .ok loaded → model.TakenOver weights loaded
  /-- Another number of layers is reported. -/
  count : weights.length ≠ model.depth →
    model.load weights = failWith (.shapeMismatch .layerCount [model.depth] [weights.length])
  /-- Otherwise the first layer with another layout is reported. -/
  layer : weights.length = model.depth → weights.layout ≠ model.layout →
    ∃ i own given, FirstUnmatched LayerWeights.SameLayout model.weights.layers weights.layers i
        own given ∧
      model.load weights =
        failWith (.shapeMismatch (.layerLayout i) own.layout.flatten given.layout.flatten)
  /-- Weights of the right layout that are not filled are a broken precondition. -/
  unfilled : weights.layout = model.layout → ¬ weights.IsFilled →
    model.load weights = faultWith .incompatibleShapes

/-- Weights that match go in, and all others are reported as a mismatch. -/
structure LoadsOrReports (model : Model α) (weights : ModelWeights α) : Prop where
  exists_iff : (∃ loaded, model.load weights = .ok loaded) ↔ model.Matches weights
  takenOver : ∀ loaded, model.load weights = .ok loaded → model.TakenOver weights loaded
  reported : ¬ model.Matches weights → ∃ what expected actual,
    model.load weights = failWith (.shapeMismatch what expected actual)

theorem map_tracked_eq (model : Model α) :
    model.layers.map (List.map Param.tracked) = model.form.map (List.map Prod.fst) := by
  simp [form, Param.form, Function.comp_def]

theorem takenOver_of_load {model loaded : Model α} {weights : ModelWeights α}
    (h : model.load weights = .ok loaded) : model.TakenOver weights loaded := by
  obtain ⟨hweights, hids, harchitecture, hform⟩ := load_spec h
  refine ⟨hweights, hids, ?_, harchitecture⟩
  rw [map_tracked_eq, map_tracked_eq, hform]

theorem load_of_count {model : Model α} {weights : ModelWeights α}
    (h : weights.length ≠ model.depth) :
    model.load weights = failWith (.shapeMismatch .layerCount [model.depth] [weights.length]) := by
  rw [load, ensureShape, if_neg fun hcount => h (List.cons.inj hcount).1]
  rfl

theorem load_of_first {model : Model α} {weights : ModelWeights α} {i : Nat}
    {own given : LayerWeights α} (hcount : weights.length = model.depth)
    (h : FirstUnmatched LayerWeights.SameLayout model.weights.layers weights.layers i own given) :
    model.load weights =
      failWith (.shapeMismatch (.layerLayout i) own.layout.flatten given.layout.flatten) := by
  have hlayouts := Layers.checkLayouts_of_first h 0
  rw [Nat.zero_add] at hlayouts
  rw [load, ensureShape, if_pos (by rw [hcount]), layout, hlayouts]
  rfl

theorem load_of_unfilled {model : Model α} {weights : ModelWeights α}
    (hlayout : weights.layout = model.layout) (hunfilled : ¬ weights.IsFilled) :
    model.load weights = faultWith .incompatibleShapes := by
  cases hload : model.load weights with
  | error e => exact congrArg Except.error (error_of_load hlayout hload)
  | ok loaded => exact absurd (exists_load_iff.mp ⟨loaded, hload⟩).2 hunfilled

theorem loads (model : Model α) (weights : ModelWeights α) : model.Loads weights := by
  refine ⟨exists_load_iff, fun loaded => takenOver_of_load, load_of_count, fun hcount hother => ?_,
    load_of_unfilled⟩
  have hlength : model.weights.layers.length = weights.layers.length := by
    rw [Model.weights, List.length_map]
    exact hcount.symm
  rcases forall₂_or_first hlength with hall | ⟨i, own, given, hfirst⟩
  · exact absurd (map_eq_iff_forall₂.mpr hall).symm hother
  · exact ⟨i, own, given, hfirst, load_of_first hcount hfirst⟩

/-- Weights of another layout are reported. -/
theorem Loads.reported {model : Model α} {weights : ModelWeights α} (h : model.Loads weights)
    (hother : weights.layout ≠ model.layout) : ∃ what expected actual,
      model.load weights = failWith (.shapeMismatch what expected actual) := by
  by_cases hcount : weights.length = model.depth
  · obtain ⟨i, own, given, _, hload⟩ := h.layer hcount hother
    exact ⟨_, _, _, hload⟩
  · exact ⟨_, _, _, h.count hcount⟩

/-- Loading ends as described, and so it reports all weights that do not match if they have
another layout. -/
theorem loads_and_loadsOrReports_iff (model : Model α) (weights : ModelWeights α) :
    model.Loads weights ∧
      (model.LoadsOrReports weights ↔ (weights.layout = model.layout → weights.IsFilled)) := by
  have hloads := loads model weights
  refine ⟨hloads, fun hreports hlayout => ?_, fun hfilled => ?_⟩
  · by_contra hunfilled
    obtain ⟨what, expected, actual, hload⟩ :=
      hreports.reported fun hmatches => hunfilled hmatches.2
    rw [hloads.unfilled hlayout hunfilled] at hload
    cases hload
  · refine ⟨hloads.exists_iff, hloads.takenOver, fun hunmatched => ?_⟩
    apply hloads.reported
    intro hlayout
    exact hunmatched ⟨hlayout, hfilled hlayout⟩

namespace Line

/-- A model with one parameter of two values. -/
def double : Model Float32 where
  architecture := Perceptron.architecture
  layers := [[⟨0, true, ⟨[2, 1], #[-0.375, 0.625]⟩, rfl, rfl⟩]]

/-- Weights for it with one value only. -/
def single : ModelWeights Float32 :=
  ⟨[⟨[⟨[2, 1], #[0.25]⟩]⟩]⟩

/-- Weights that lack a value are not reported. -/
theorem not_loadsOrReports_single : ¬ double.LoadsOrReports single := by
  intro h
  have hunfilled : ¬ double.Matches single := by
    rintro ⟨_, hfilled⟩
    have hsize : 1 = 2 := hfilled _ List.mem_cons_self _ List.mem_cons_self
    exact absurd hsize (by decide)
  obtain ⟨what, expected, actual, hload⟩ := h.reported hunfilled
  cases hload

end Line

end Model

end PolicyGradient
