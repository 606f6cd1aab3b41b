import PolicyGradient.Tensor.Basic
import PolicyGradient.Weights.Arithmetic

/-!
Models made of an ordered sequence of layers.

An architecture maps the weights and a batch of observation sequences to outputs, and gradients at
the outputs to gradients at the weights.  A model adds what is its own: parameters with identities,
by which an optimizer keeps their state.  Weights move between models by position, never by
identity, so `load` keeps the identities.
-/

namespace PolicyGradient

/-- A trainable tensor of a model. -/
structure Param (α : Type) where
  id : Nat
  /-- Whether gradients reach it. -/
  tracked : Bool
  block : ParamBlock α
  filled : block.IsFilled
  addressable : Shape.addressable block.shape = true

namespace Param

variable {α : Type}

/-- The parameter with another block in its place, which has to be filled and addressable. -/
def replace (param : Param α) (block : ParamBlock α) : Outcome (Param α) :=
  if h : block.values.size = Size.volume block.shape ∧ Shape.addressable block.shape = true then
    .ok { param with block := block, filled := h.1, addressable := h.2 }
  else
    faultWith .incompatibleShapes

/-- The parameter with other values. -/
def fill (param : Param α) (values : Array α) : Outcome (Param α) :=
  param.replace ⟨param.block.shape, values⟩

end Param

/-- Gradients by layer and parameter; a parameter may have none. -/
abbrev Gradients (α : Type) : Type :=
  List (List (Option (ParamBlock α)))

/-- Gradients from blocks in the order of the parameters, as far as they go.  Each has to be a tensor
of its parameter's rank. -/
def Gradients.ofBlocks {α : Type} :
    List (List (Param α)) → List (Option (ParamBlock α)) → Outcome (Gradients α)
  | [], _ => .ok []
  | params :: layers, blocks => do
      let gradients ← (params.zip blocks).mapM fun (param, block) =>
        match block with
        | none => .ok none
        | some block => (block.asTensor? param.block.shape.length).map some
      return gradients :: (← ofBlocks layers (blocks.drop params.length))

/-- How weights turn observations `[B, L, depth]` into outputs `[B, L, out]`. -/
structure Architecture (α : Type) where
  output : ModelWeights α → Tensor α 3 → Outcome (Tensor α 3)
  /-- Gradients at the parameters, given the gradient at the output. -/
  pullback : ModelWeights α → Tensor α 3 → Tensor α 3 → Outcome (List (List (Array α)))

/-- A layered model. -/
structure Model (α : Type) where
  architecture : Architecture α
  layers : List (List (Param α))

namespace Model

variable {α : Type}

/-- Number of layers. -/
def depth (model : Model α) : Nat :=
  model.layers.length

/-- The weights of a list of parameters. -/
def weightsOf (params : List (Param α)) : LayerWeights α :=
  ⟨params.map Param.block⟩

/-- All weights. -/
def weights (model : Model α) : ModelWeights α :=
  ⟨model.layers.map weightsOf⟩

/-- The parameter shapes of all layers. -/
def layout (model : Model α) : List (List (List Nat)) :=
  model.weights.layers.map LayerWeights.layout

/-- One layer of a list with one entry for each layer. -/
def layerAt {β : Type} (layers : List β) (index : Nat) : Outcome β :=
  match layers[index]? with
  | some layer => .ok layer
  | none => do failWith (.layerRange index (← Size.add index 1) layers.length)

/-- The weights of a layer. -/
def layerWeights (model : Model α) (index : Nat) : Outcome (LayerWeights α) :=
  layerAt model.weights.layers index

/-- The parameter shapes of a layer. -/
def layerShapes (model : Model α) (index : Nat) : Outcome (List (List Nat)) :=
  layerAt model.layout index

/-- The parameters of a layer with the values of the given blocks. -/
def fillLayer (params : List (Param α)) (layer : LayerWeights α) : Outcome (List (Param α)) :=
  (params.zip layer.params).mapM fun (param, block) => param.fill block.values

/-- The model with all weights replaced.  The number of layers and all shapes have to be the
model's own; identities stay. -/
def load (model : Model α) (weights : ModelWeights α) : Outcome (Model α) := do
  ensureShape .layerCount [weights.length] [model.depth]
  Layers.checkLayouts 0 model.layout (weights.layers.map LayerWeights.layout)
  let layers ← (model.layers.zip weights.layers).mapM fun (params, layer) =>
    fillLayer params layer
  return { model with layers := layers }

/-- The output for observations `[B, L, depth]`. -/
def output (model : Model α) (observations : Tensor α 3) : Outcome (Tensor α 3) :=
  model.architecture.output model.weights observations

/-- The gradients of the tracked parameters, given the gradient at the output. -/
def gradients (model : Model α) (observations gradient : Tensor α 3) : Outcome (Gradients α) := do
  let values ← model.architecture.pullback model.weights observations gradient
  return List.zipWith
    (List.zipWith fun param g => if param.tracked then some ⟨param.block.shape, g⟩ else none)
    model.layers values

end Model

end PolicyGradient
