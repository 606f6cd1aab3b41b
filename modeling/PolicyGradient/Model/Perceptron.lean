import PolicyGradient.Model.Basic
import PolicyGradient.Noise

/-!
Multilayer perceptrons.

Each layer maps the last axis by `x W + b`, with `W : [in, out]` and an optional `b : [out]`, and
all layers but the last are followed by the hyperbolic tangent.  No layers are the identity.
-/

namespace PolicyGradient.Perceptron

variable {α : Type} [Scalar α]

/-- Sizes of an affine layer with its weight and bias values. -/
structure Affine (α : Type) where
  width : Nat
  out : Nat
  weight : Array α
  bias : Option (Array α)

namespace Affine

/-- The affine map of a weight block and an optional bias block. -/
def ofWeights (layer : LayerWeights α) : Outcome (Affine α) :=
  match layer.params with
  | [⟨[m, n], w⟩] => .ok ⟨m, n, w, none⟩
  | [⟨[m, n], w⟩, ⟨_, b⟩] => .ok ⟨m, n, w, some b⟩
  | _ => faultWith .incompatibleShapes

/-- The weight from input `i` to output `j`. -/
def entry (f : Affine α) (i j : Nat) : α :=
  f.weight.getD (i * f.out + j) 0

/-- `x W + b` at every timestep.  There has to be a timestep, an input and an output to multiply;
only the batch may be empty. -/
def apply (f : Affine α) (x : Tensor α 3) : Outcome (Tensor α 3) :=
  if x.axis 2 = f.width ∧ 0 < x.axis 1 ∧ 0 < f.width ∧ 0 < f.out then
    .ok (Tensor.tabulate #v[x.axis 0, x.axis 1, f.out] fun p =>
      let b := p.getD 0 0
      let t := p.getD 1 0
      let j := p.getD 2 0
      let y := Scalar.dot f.width (fun i => x.entry [b, t, i]) fun i => f.entry i j
      match f.bias with
      | none => y
      | some c => y + c.getD j 0)
  else
    faultWith .incompatibleShapes

/-- The gradient at the input. -/
def inputGradient (f : Affine α) (x gradient : Tensor α 3) : Tensor α 3 :=
  Tensor.tabulate x.dims fun p =>
    Scalar.dot f.out (fun j => gradient.entry [p.getD 0 0, p.getD 1 0, j]) fun j =>
      f.entry (p.getD 2 0) j

/-- The gradients at the weight and, if there is one, at the bias, added up over the batch. -/
def paramGradients (f : Affine α) (x gradient : Tensor α 3) : List (Array α) :=
  let weight := Array.ofFn fun k : Fin (f.width * f.out) =>
    Scalar.total (x.axis 0) fun b =>
      Scalar.dot (x.axis 1) (fun t => x.entry [b, t, k.val / f.out])
        fun t => gradient.entry [b, t, k.val % f.out]
  match f.bias with
  | none => [weight]
  | some _ => [weight, (gradient.collapse #v[1, 1, f.out]).data]

end Affine

/-- The output of a list of layers. -/
def output : List (LayerWeights α) → Tensor α 3 → Outcome (Tensor α 3)
  | [], x => .ok x
  | [layer], x => do (← Affine.ofWeights layer).apply x
  | layer :: layers, x => do
      let z ← (← Affine.ofWeights layer).apply x
      output layers (z.map Scalar.tanh)

/-- The gradients at the input and at the parameters, given the gradient at the output. -/
def backward : List (LayerWeights α) → (x gradient : Tensor α 3) →
    Outcome (Tensor α 3 × List (List (Array α)))
  | [], _, gradient => .ok (gradient, [])
  | [layer], x, gradient => do
      let f ← Affine.ofWeights layer
      return (f.inputGradient x gradient, [f.paramGradients x gradient])
  | layer :: layers, x, gradient => do
      let f ← Affine.ofWeights layer
      let h := (← f.apply x).map Scalar.tanh
      let (inner, others) ← backward layers h gradient
      let slope ← inner.zipWith (fun g y => g * (1 - y * y)) h
      return (f.inputGradient x slope, f.paramGradients x slope :: others)

/-- The perceptron as an architecture: the weights alone determine its sizes. -/
def architecture : Architecture α where
  output weights x := output weights.layers x
  pullback weights x gradient := do
    return (← backward weights.layers x gradient).2

/-- Parameter shapes for layer sizes; `bias` tells for each layer whether it has one. -/
def layout : (sizes : List Nat) → (bias : Nat → Bool) → List (List (List Nat))
  | m :: n :: sizes, bias =>
      (if bias 0 then [[m, n], [n]] else [[m, n]]) ::
        layout (n :: sizes) fun i => bias (i + 1)
  | _, _ => []

/-- A parameter of zeros, if there is room for it. -/
def zeroParam? (id : Nat) (shape : List Nat) : Outcome (Param α) := do
  Shape.room shape
  if h : Shape.addressable shape = true then
    return ⟨id, true, ⟨shape, Array.replicate (Size.volume shape) 0⟩, Array.size_replicate, h⟩
  else
    faultWith .overflow

/-- Layers of zeros with identities counted from `first`. -/
def zeroLayers? : (first : Nat) → List (List (List Nat)) → Outcome (List (List (Param α)))
  | _, [] => .ok []
  | first, shapes :: layout => do
      let params ← (shapes.zipIdx first).mapM fun (shape, id) => zeroParam? id shape
      return params :: (← zeroLayers? (first + shapes.length) layout)

/-- The perceptron with the given layer sizes and all weights zero, if there is room for its
parameters. -/
def zero? (sizes : List Nat) (bias : Nat → Bool) : Outcome (Model α) := do
  return ⟨architecture, ← zeroLayers? 0 (layout sizes bias)⟩

/-- Draw the blocks of a list of shapes. -/
def drawBlocks : List (List Nat) → Noise → List (ParamBlock α) × Noise
  | [], noise => ([], noise)
  | shape :: shapes, noise =>
      let (values, noise) := Noise.draws Noise.value (Size.volume shape) noise
      let (blocks, noise) := drawBlocks shapes noise
      (⟨shape, values.toArray⟩ :: blocks, noise)

/-- Draw the weights of a layout, parameter by parameter. -/
def drawLayers : List (List (List Nat)) → Noise → List (LayerWeights α) × Noise
  | [], noise => ([], noise)
  | shapes :: layout, noise =>
      let (blocks, noise) := drawBlocks shapes noise
      let (layers, noise) := drawLayers layout noise
      (⟨blocks⟩ :: layers, noise)

/-- The weights that a seed gives to a layout. -/
def seeded (layout : List (List (List Nat))) (seed : Nat) : ModelWeights α :=
  ⟨(drawLayers layout (Noise.ofSeed seed)).1⟩

end PolicyGradient.Perceptron
