import PolicyGradient.Scalar
import PolicyGradient.Size

/-!
Weights of a model, layer by layer.

A layer is a list of parameter blocks and a model a list of layers.  A range of layers is the unit
in which weights move between models: it is read with `range` and written with `replaceRange`,
which checks the whole range before it writes.
-/

namespace PolicyGradient

/-- A parameter tensor, row-major.  Nothing ties the values to the shape, see `IsFilled`. -/
structure ParamBlock (α : Type) where
  shape : List Nat
  values : Array α
  deriving Repr

namespace ParamBlock

variable {α : Type}

/-- The block has one value for each position of its shape. -/
def IsFilled (block : ParamBlock α) : Prop :=
  block.values.size = Size.volume block.shape

/-- A block with as many values as its shape has positions. -/
def make? (shape : List Nat) (values : Array α) : Outcome (ParamBlock α) := do
  let count ← Size.product shape
  if count = values.size then
    return ⟨shape, values⟩
  else
    failWith (.shapeMismatch .parameterBlock [count] [values.size])

/-- The block of zeros. -/
def zeros [Scalar α] (shape : List Nat) : Outcome (ParamBlock α) := do
  let count ← Size.product shape
  Size.allocate count 4
  return ⟨shape, Array.replicate count 0⟩

end ParamBlock

/-- The parameters of a layer, in order. -/
structure LayerWeights (α : Type) where
  params : List (ParamBlock α)
  deriving Repr

namespace LayerWeights

variable {α : Type}

/-- The shapes of the parameters. -/
def layout (layer : LayerWeights α) : List (List Nat) :=
  layer.params.map ParamBlock.shape

/-- As many parameters with the same shapes. -/
def sameLayout (layer other : LayerWeights α) : Bool :=
  layer.layout == other.layout

end LayerWeights

namespace Layers

variable {α : Type}

/-- The range from `start` to `stop` lies inside `count` layers and is not reversed. -/
def checkRange (start stop count : Nat) : Outcome Unit :=
  if stop < start ∨ count < stop then failWith (.layerRange start stop count) else .ok ()

/-- Layouts agree pairwise; the first that do not are reported, counted from `first`.  A report
lists the sizes of all parameters of the layer. -/
def checkLayouts : (first : Nat) → (expected actual : List (List (List Nat))) → Outcome Unit
  | first, expected :: others, actual :: rest =>
      if expected = actual then checkLayouts (first + 1) others rest
      else failWith (.shapeMismatch (.layerLayout first) expected.flatten actual.flatten)
  | _, _, _ => .ok ()

/-- The layers from `start` to `stop`. -/
def range (layers : List (LayerWeights α)) (start stop : Nat) :
    Outcome (List (LayerWeights α)) := do
  checkRange start stop layers.length
  return layers.extract start stop

/-- The layers with those from `start` on replaced by `blocks`, which have the same layouts. -/
def replaceRange (layers : List (LayerWeights α)) (start : Nat) (blocks : List (LayerWeights α)) :
    Outcome (List (LayerWeights α)) := do
  let stop ← Size.add start blocks.length
  checkRange start stop layers.length
  checkLayouts start ((layers.extract start stop).map LayerWeights.layout)
    (blocks.map LayerWeights.layout)
  return layers.take start ++ blocks ++ layers.drop stop

end Layers

/-- The weights of a model. -/
structure ModelWeights (α : Type) where
  layers : List (LayerWeights α)
  deriving Repr

namespace ModelWeights

variable {α : Type}

def length (weights : ModelWeights α) : Nat :=
  weights.layers.length

def isEmpty (weights : ModelWeights α) : Bool :=
  weights.layers.isEmpty

/-- One layer, if there is one at the index. -/
def layer? (weights : ModelWeights α) (index : Nat) : Option (LayerWeights α) :=
  weights.layers[index]?

/-- The layers from `start` to `stop`. -/
def range (weights : ModelWeights α) (start stop : Nat) : Outcome (List (LayerWeights α)) :=
  Layers.range weights.layers start stop

/-- The weights with the layers from `start` on replaced. -/
def replaceRange (weights : ModelWeights α) (start : Nat) (blocks : List (LayerWeights α)) :
    Outcome (ModelWeights α) := do
  return ⟨← Layers.replaceRange weights.layers start blocks⟩

end ModelWeights

end PolicyGradient
