import PolicyGradient.Document.Basic
import PolicyGradient.Weights.OptimizerState

/-!
Weights and optimizer states as documents.

Every field has to be there, other entries are ignored.  Reading does not compare a block's shape
with its values.  Writing takes the form of numbers from its caller.
-/

namespace PolicyGradient

open Document (fields? required? listOf?)

def ParamBlock.ofDocument? (document : Document) : Option (ParamBlock Float32) := do
  let [shape, values] ← fields? ["shape", "values"] document | none
  return ⟨← required? (listOf? Document.nat?) shape,
    (← required? (listOf? Document.float32?) values).toArray⟩

def LayerWeights.ofDocument? (document : Document) : Option (LayerWeights Float32) := do
  let [params] ← fields? ["params"] document | none
  return ⟨← required? (listOf? ParamBlock.ofDocument?) params⟩

/-- A list of layers. -/
def Layers.ofDocument? : Document → Option (List (LayerWeights Float32)) :=
  listOf? LayerWeights.ofDocument?

def ModelWeights.ofDocument? (document : Document) : Option (ModelWeights Float32) := do
  let [layers] ← fields? ["layers"] document | none
  return ⟨← required? Layers.ofDocument? layers⟩

def OptimizerState.ofDocument? (document : Document) : Option (OptimizerState Float32) := do
  let [slots, step] ← fields? ["slots", "step"] document | none
  return ⟨← required? (listOf? Layers.ofDocument?) slots, ← required? Document.nat? step⟩

variable {α : Type}

def ParamBlock.toDocument (number : α → Document) (block : ParamBlock α) : Document :=
  .record [("shape", .ofSizes block.shape),
    ("values", .list (block.values.toList.map number))]

def LayerWeights.toDocument (number : α → Document) (layer : LayerWeights α) : Document :=
  .record [("params", .list (layer.params.map (ParamBlock.toDocument number)))]

/-- A list of layers. -/
def Layers.toDocument (number : α → Document) (layers : List (LayerWeights α)) : Document :=
  .list (layers.map (LayerWeights.toDocument number))

def ModelWeights.toDocument (number : α → Document) (weights : ModelWeights α) : Document :=
  .record [("layers", Layers.toDocument number weights.layers)]

def OptimizerState.toDocument (number : α → Document) (state : OptimizerState α) : Document :=
  .record [("slots", .list (state.slots.map (Layers.toDocument number))),
    ("step", .ofNat state.step)]

end PolicyGradient
