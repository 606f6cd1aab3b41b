import PolicyGradient.Model.Perceptron
import PolicyGradient.Proofs.Reached

/-!
The gradients of the objectives.

Value and policy objectives take their gradients from the architecture.  They have the shapes of the
parameters as soon as the architecture's do, and they see no identities.
-/

namespace PolicyGradient

open Outcome

variable {α : Type}

/-- At weights of a layout, the architecture gives gradients that fill the shapes of the layout. -/
def Architecture.Fits (architecture : Architecture α) (layout : List (List (List Nat))) : Prop :=
  ∀ weights observations gradient values, weights.layout = layout →
    architecture.pullback weights observations gradient = .ok values →
      List.Forall₂ (List.Forall₂ fun shape g => Array.size g = Size.volume shape) layout values

namespace Model

/-- The gradient of a parameter from its values, if the parameter is tracked. -/
def gradientOf (param : Param α) (values : Array α) : Option (ParamBlock α) :=
  if param.tracked then some ⟨param.block.shape, values⟩ else none

theorem gradients_eq (model : Model α) (observations gradient : Tensor α 3) :
    model.gradients observations gradient = do
      let values ← model.architecture.pullback model.weights observations gradient
      return List.zipWith (List.zipWith gradientOf) model.layers values := rfl

theorem fit_assignedRow {params : List (Param α)} {values : List (Array α)}
    (h : List.Forall₂ (fun shape g => Array.size g = Size.volume shape)
      (weightsOf params).layout values) :
    ∀ x ∈ Adam.assignedRow params (List.zipWith gradientOf params values),
      ∃ g, g.size = Size.volume x.1.block.shape ∧ x.2 = gradientOf x.1 g := by
  induction params generalizing values with
  | nil =>
      intro x hx
      cases hx
  | cons param params ih =>
      cases h with
      | @cons _ g _ values hsize hvalues =>
          intro x hx
          rcases List.mem_cons.mp hx with rfl | hx
          · exact ⟨g, hsize, rfl⟩
          · exact ih hvalues x hx

theorem fit_assigned {layers : List (List (Param α))} {values : List (List (Array α))}
    (h : List.Forall₂ (List.Forall₂ fun shape g => Array.size g = Size.volume shape)
      (Adam.layouts layers) values) :
    ∀ row ∈ Adam.assigned layers (List.zipWith (List.zipWith gradientOf) layers values),
      ∀ x ∈ row, ∃ g, g.size = Size.volume x.1.block.shape ∧ x.2 = gradientOf x.1 g := by
  induction layers generalizing values with
  | nil =>
      intro row hrow
      cases hrow
  | cons params layers ih =>
      cases h with
      | @cons _ row' _ values hrow' hvalues =>
          intro row hrow
          rcases List.mem_cons.mp hrow with rfl | hrow
          · exact fit_assignedRow hrow'
          · exact ih hvalues row hrow

section

variable {model : Model α} {observations gradient : Tensor α 3} {gradients : Gradients α}

theorem assigned_gradients (hfits : model.architecture.Fits model.layout)
    (h : model.gradients observations gradient = .ok gradients) :
    ∀ row ∈ Adam.assigned model.layers gradients, ∀ x ∈ row,
      ∃ g, g.size = Size.volume x.1.block.shape ∧ x.2 = gradientOf x.1 g := by
  rw [gradients_eq, bind_eq_ok] at h
  obtain ⟨values, hvalues, hgradients⟩ := h
  cases hgradients
  have hsizes := hfits _ _ _ _ rfl hvalues
  rw [Adam.layout_eq_layouts] at hsizes
  exact fit_assigned hsizes

theorem fit_gradients (hfits : model.architecture.Fits model.layout)
    (h : model.gradients observations gradient = .ok gradients) : gradients.Fit model := by
  intro row hrow x hx block hblock
  obtain ⟨g, hsize, hgradient⟩ := assigned_gradients hfits h row hrow x hx
  rw [hgradient, gradientOf] at hblock
  split at hblock
  · cases hblock
    exact ⟨rfl, hsize⟩
  · cases hblock

theorem complete_gradients (hfits : model.architecture.Fits model.layout)
    (htracked : ∀ params ∈ model.layers, ∀ param ∈ params, param.tracked = true)
    (h : model.gradients observations gradient = .ok gradients) : gradients.Complete model := by
  intro row hrow x hx
  obtain ⟨g, _, hgradient⟩ := assigned_gradients hfits h row hrow x hx
  obtain ⟨params, hparams, hparam⟩ := Adam.mem_layers_of_assigned hrow hx
  rw [hgradient, gradientOf, if_pos (htracked params hparams x.1 hparam)]
  exact Option.some_ne_none _

/-- Models of the same form and weights have the same gradients. -/
theorem gradients_congr {other : Model α} (hform : model.SameForm other)
    (hweights : model.weights = other.weights) :
    model.gradients observations gradient = other.gradients observations gradient := by
  have hrows : ∀ (m : Model α) (values : List (List (Array α))),
      List.zipWith (List.zipWith gradientOf) m.layers values =
        List.zipWith (List.zipWith fun f g => if f.1 then some ⟨f.2, g⟩ else none)
          m.form values := by
    intro m values
    rw [form, List.zipWith_map_left]
    congr 1
    funext params row
    rw [List.zipWith_map_left]
    rfl
  simp only [gradients_eq, hrows, hform.1, hform.2, hweights]

end

end Model

namespace Objective

variable {model : Model α}

/-- Objectives that take their gradients from the model's architecture. -/
def OfModel {β : Type} (objective : Objective α β) : Prop :=
  ∀ model batch gradients, objective.gradients model batch = .ok gradients →
    ∃ observations gradient, model.gradients observations gradient = .ok gradients

theorem value_ofModel [Scalar α] : (value : Objective α (ValueBatch α)).OfModel := by
  intro model batch gradients h
  simp only [value, bind_eq_ok] at h
  obtain ⟨_, _, gradient, _, hgradients⟩ := h
  exact ⟨_, gradient, hgradients⟩

theorem policy_ofModel [Scalar α] (loss : PolicyLoss α) : (policy loss).OfModel := by
  intro model batch gradients h
  simp only [policy, bind_eq_ok] at h
  obtain ⟨_, _, _, _, gradient, _, hgradients⟩ := h
  exact ⟨_, gradient, hgradients⟩

/-- Gradients fit a model if its architecture's do. -/
theorem OfModel.fits {β : Type} {objective : Objective α β} (h : objective.OfModel)
    (hfits : model.architecture.Fits model.layout) : objective.Fits model := by
  intro other batch gradients hform hgradients
  obtain ⟨_, _, hmodel⟩ := h other batch gradients hgradients
  rw [← hform.1, ← hform.layout_eq] at hfits
  exact Model.fit_gradients hfits hmodel

/-- A model with tracked parameters has gradients for all of them. -/
theorem OfModel.complete {β : Type} {objective : Objective α β} (h : objective.OfModel)
    (hfits : model.architecture.Fits model.layout)
    (htracked : ∀ forms ∈ model.form, ∀ form ∈ forms, form.1 = true) :
    objective.Complete model := by
  intro other batch gradients hform hgradients
  obtain ⟨_, _, hmodel⟩ := h other batch gradients hgradients
  rw [← hform.1, ← hform.layout_eq] at hfits
  refine Model.complete_gradients hfits ?_ hmodel
  intro params hparams param hparam
  rw [← hform.2] at htracked
  exact htracked _ (List.mem_map_of_mem hparams) _ (List.mem_map_of_mem hparam)

theorem output_congr {other : Model α} (hform : model.SameForm other)
    (hweights : model.weights = other.weights) (observations : Tensor α 3) :
    model.output observations = other.output observations := by
  rw [Model.output, Model.output, hform.1, hweights]

theorem value_ignoresIds [Scalar α] : (value : Objective α (ValueBatch α)).IgnoresIds := by
  intro model other batch hform hweights
  simp only [value, output_congr hform hweights, Model.gradients_congr hform hweights, and_self]

theorem policy_ignoresIds [Scalar α] (loss : PolicyLoss α) : (policy loss).IgnoresIds := by
  intro model other batch hform hweights
  simp only [policy, output_congr hform hweights, Model.gradients_congr hform hweights, and_self]

end Objective

namespace Perceptron

variable [Scalar α]

/-- The gradient of a layer without bias fills the layer's shape. -/
theorem sizes_of_paramGradients {layer : LayerWeights α} {f : Affine α} {m n : Nat}
    (hlayout : layer.layout = [[m, n]]) (h : Affine.ofWeights layer = .ok f)
    (x gradient : Tensor α 3) :
    List.Forall₂ (fun shape g => Array.size g = Size.volume shape) layer.layout
      (f.paramGradients x gradient) := by
  obtain ⟨params⟩ := layer
  obtain ⟨block, rfl, hshape⟩ := List.map_eq_singleton_iff.mp hlayout
  obtain ⟨shape, values⟩ := block
  cases hshape
  cases h
  refine .cons ?_ .nil
  simp [Size.volume]

theorem sizes_of_backward {layers : List (LayerWeights α)}
    (hlayout : ∀ layer ∈ layers, ∃ m n, layer.layout = [[m, n]]) {x gradient inner : Tensor α 3}
    {values : List (List (Array α))} (h : backward layers x gradient = .ok (inner, values)) :
    List.Forall₂ (List.Forall₂ fun shape g => Array.size g = Size.volume shape)
      (layers.map LayerWeights.layout) values := by
  induction layers generalizing x inner values with
  | nil =>
      cases h
      exact .nil
  | cons layer layers ih =>
      obtain ⟨m, n, hlayer⟩ := hlayout layer List.mem_cons_self
      cases layers with
      | nil =>
          simp only [backward, bind_eq_ok] at h
          obtain ⟨f, hf, hvalues⟩ := h
          cases hvalues
          exact .cons (sizes_of_paramGradients hlayer hf x gradient) .nil
      | cons next layers =>
          simp only [backward, bind_eq_ok] at h
          obtain ⟨f, hf, hidden, _, ⟨inner', others⟩, hothers, slope, _, hvalues⟩ := h
          cases hvalues
          have hrest := ih (fun l hl => hlayout l (List.mem_cons_of_mem layer hl)) hothers
          exact .cons (sizes_of_paramGradients hlayer hf x slope) hrest

/-- The gradients of a perceptron without biases fill its shapes. -/
theorem architecture_fits {layout : List (List (List Nat))}
    (h : ∀ shapes ∈ layout, ∃ m n, shapes = [[m, n]]) :
    (architecture : Architecture α).Fits layout := by
  rintro weights x gradient values rfl hvalues
  simp only [architecture, bind_eq_ok] at hvalues
  obtain ⟨⟨inner, others⟩, hbackward, hothers⟩ := hvalues
  cases hothers
  refine sizes_of_backward ?_ hbackward
  intro layer hlayer
  exact h _ (List.mem_map_of_mem hlayer)

/-- The perceptron `x ↦ x w`. -/
def line (id : Nat) (w : α) : Model α where
  architecture := architecture
  layers := [[⟨id, true, ⟨[1, 1], #[w]⟩, rfl, rfl⟩]]

theorem line_distinctIds (id : Nat) (w : α) : (line id w).DistinctIds :=
  List.nodup_singleton id

theorem line_fits (id : Nat) (w : α) : (line id w).architecture.Fits (line id w).layout := by
  apply architecture_fits
  intro shapes hshapes
  exact ⟨1, 1, List.mem_singleton.mp hshapes⟩

theorem line_tracked (id : Nat) (w : α) :
    ∀ forms ∈ (line id w).form, ∀ form ∈ forms, form.1 = true := by
  intro forms hforms form hform
  cases List.mem_singleton.mp hforms
  cases List.mem_singleton.mp hform
  rfl

/-- The perceptron `x ↦ tanh (x v) w`, with two identities from `id` on. -/
def bent (id : Nat) (v w : α) : Model α where
  architecture := architecture
  layers := [[⟨id, true, ⟨[1, 1], #[v]⟩, rfl, rfl⟩], [⟨id + 1, true, ⟨[1, 1], #[w]⟩, rfl, rfl⟩]]

theorem bent_distinctIds (id : Nat) (v w : α) : (bent id v w).DistinctIds := by
  have hids : [id, id + 1].Nodup := by simp
  exact hids

theorem bent_fits (id : Nat) (v w : α) :
    (bent id v w).architecture.Fits (bent id v w).layout := by
  apply architecture_fits
  intro shapes hshapes
  have hlayout : (bent id v w).layout = [[[1, 1]], [[1, 1]]] := rfl
  rw [hlayout] at hshapes
  exact ⟨1, 1, by simpa using hshapes⟩

end Perceptron

namespace Training

open Decimal (Shown)

variable {ρ : Type} [Scalar α] [Scalar ρ] [Shown α] [Shown ρ] [Narrows ρ α]

/-- A learner of the value model that has not been called yet. -/
def ofValueModel (model : Model α) (rate : ρ) :
    Training α ρ (ValueBatch α) (Feed.Listed (ValueBatch α)) where
  learner := .ofModel "value" model .value (.constant rate)
  source := .unopened
  journal := .start .empty

theorem reached_ofValueModel {model : Model α} (hids : model.DistinctIds)
    (hfits : model.architecture.Fits model.layout) (rate : ρ)
    (feed : Feed (Feed.Listed (ValueBatch α)) (ValueBatch α)) (bound : Nat) :
    (ofValueModel model rate).Reached feed bound :=
  .fresh (.ofModel _ _ _ _) hids (Objective.value_ofModel.fits hfits)

/-- A learner of `Perceptron.line` that has not been called yet. -/
def ofLine (id : Nat) (w : α) (rate : ρ) :
    Training α ρ (ValueBatch α) (Feed.Listed (ValueBatch α)) :=
  ofValueModel (Perceptron.line id w) rate

theorem reached_ofLine (id : Nat) (w : α) (rate : ρ)
    (feed : Feed (Feed.Listed (ValueBatch α)) (ValueBatch α)) (bound : Nat) :
    (ofLine id w rate).Reached feed bound :=
  reached_ofValueModel (Perceptron.line_distinctIds id w) (Perceptron.line_fits id w) rate feed
    bound

namespace Line

/-- One observation with its target. -/
def point (x y : α) : ValueBatch α where
  observations := ⟨#v[1, 1, 1], #[x], rfl⟩
  targets := ⟨#v[1, 1, 1], #[y], rfl⟩
  mask := ⟨#v[1, 1, 1], #[1], rfl⟩

/-- The feed that gives out one point over and over again. -/
def points : Feed (Feed.Listed (ValueBatch Float32)) (ValueBatch Float32) :=
  .ofList [.ok (point 2 1)] true

end Line

end Training

end PolicyGradient
