import PolicyGradient.Learner.Basic

/-!
Copying a range of layers between two holders of weights.

The layers of the weights are copied, and on request also the same layers of the model's slot
group.  Everything is read and checked before anything is written; other layers, other slot groups
and the step counter of the destination stay as they are.
-/

namespace PolicyGradient

/-- What holds weights and an optimizer state. -/
class Holder (κ : Type) (α : outParam Type) where
  weights : κ → Outcome (ModelWeights α)
  setWeights : κ → ModelWeights α → Outcome κ
  optimizerState : κ → Outcome (OptimizerState α)
  setOptimizerState : κ → OptimizerState α → Outcome κ

/-- Weights and an optimizer state, held as they are. -/
structure Snapshot (α : Type) where
  weights : ModelWeights α
  state : OptimizerState α
  deriving Repr

instance {α : Type} : Holder (Snapshot α) α where
  weights s := .ok s.weights
  setWeights s weights := .ok { s with weights := weights }
  optimizerState s := .ok s.state
  setOptimizerState s state := .ok { s with state := state }

instance {α ρ β : Type} [Scalar α] : Holder (Learner α ρ β) α where
  weights learner := .ok learner.weights
  setWeights := Learner.setWeights
  optimizerState learner := .ok learner.optimizerState
  setOptimizerState := Learner.setOptimizerState

namespace Copy

variable {κ κ' α : Type} [Holder κ α] [Holder κ' α]

/-- The destination's weights with the layers from `start` to `stop` taken from the source, and
likewise its optimizer state. -/
def prepare (start stop : Nat) (slots : Bool) (source : κ) (destination : κ') :
    Outcome (ModelWeights α × Option (OptimizerState α)) := do
  if stop < start then
    failWith (.layerRange start stop (← Holder.weights destination).length)
  else
    let given ← Holder.weights source
    let own ← Holder.weights destination
    let weights ← own.replaceRange start (← given.range start stop)
    if slots then
      let blocks ←
        (← Holder.optimizerState source).slotRange OptimizerState.modelGroup start stop
      let state ← (← Holder.optimizerState destination).withSlotRange
        OptimizerState.modelGroup start blocks
      return (weights, some state)
    else
      return (weights, none)

/-- Copy the layers from `start` to `stop` into the holder that is the state. -/
def write (start stop : Nat) (slots : Bool) (source : κ) : Action κ' Unit := do
  let (weights, state) ← Action.lift (prepare start stop slots source (← get))
  set (← Action.lift (Holder.setWeights (← get) weights))
  match state with
  | none => return ()
  | some state => set (← Action.lift (Holder.setOptimizerState (← get) state))

/-- Copy a range of layers and log it. -/
def layers {ρ : Type} (start stop : Nat) (slots : Bool) (source : κ) :
    Action (κ' × Journal α ρ) Unit := do
  Action.on Prod.fst (fun holder s => (holder, s.2)) (write start stop slots source)
  modify fun s => (s.1, s.2.log [.copied start stop slots])

end Copy

end PolicyGradient
