import PolicyGradient.Weights.Block

/-!
The state of an optimizer, laid out like the weights it belongs to.

Slot group 0 holds a block list for each layer of the model.  Other groups belong to parameters
outside the model; copying a range of layers leaves them and the step counter alone.
-/

namespace PolicyGradient

/-- Slot groups and the number of updates made. -/
structure OptimizerState (α : Type) where
  slots : List (List (LayerWeights α))
  step : Nat
  deriving Repr

namespace OptimizerState

variable {α : Type}

/-- The group of the model's own layers. -/
def modelGroup : Nat := 0

/-- A slot group. -/
def group (state : OptimizerState α) (index : Nat) : Outcome (List (LayerWeights α)) :=
  match state.slots[index]? with
  | some layers => .ok layers
  | none => failWith (.config (.noSlotGroup state.slots.length index))

/-- The layers from `start` to `stop` of a slot group. -/
def slotRange (state : OptimizerState α) (index start stop : Nat) :
    Outcome (List (LayerWeights α)) := do
  Layers.range (← state.group index) start stop

/-- The state with the layers from `start` on of a slot group replaced. -/
def withSlotRange (state : OptimizerState α) (index start : Nat)
    (blocks : List (LayerWeights α)) : Outcome (OptimizerState α) := do
  let layers ← Layers.replaceRange (← state.group index) start blocks
  return { state with slots := state.slots.set index layers }

/-- The state with another step counter. -/
def withStep (state : OptimizerState α) (step : Nat) : OptimizerState α :=
  { state with step := step }

end OptimizerState

end PolicyGradient
