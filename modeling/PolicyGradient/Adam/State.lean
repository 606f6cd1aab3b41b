import PolicyGradient.Adam.Basic
import PolicyGradient.Weights.OptimizerState

/-!
The state of an Adam optimizer, read and written layer by layer.

The slots of a layer with parameters `p₀ … pₖ` are `m₀ … mₖ v₀ … vₖ`, first moments before second
ones, each with its parameter's shape.  A state fits a model when it has the slots of every layer;
only then it is written, and every parameter takes over the state's step as its own time.
-/

namespace PolicyGradient.Adam

variable {α : Type}

/-- The values of one of a parameter's means; zeros as long as there is no record. -/
def slotValues [Zero α] (part : Moments α → ParamBlock α) (records : Records α)
    (param : Param α) : Array α :=
  match records.find? param.id with
  | some moments => (part moments).values
  | none => Array.replicate param.block.values.size 0

/-- A slot of a parameter, which has the parameter's shape. -/
def slot [Zero α] (part : Moments α → ParamBlock α) (records : Records α) (param : Param α) :
    ParamBlock α :=
  ⟨param.block.shape, slotValues part records param⟩

/-- The slots of a layer. -/
def slotsOf [Zero α] (records : Records α) (params : List (Param α)) : LayerWeights α :=
  ⟨params.map (slot Moments.first records) ++ params.map (slot Moments.second records)⟩

/-- The state of an optimizer for the layers of a model. -/
def state [Zero α] (adam : Adam α) (model : Model α) : OptimizerState α :=
  ⟨model.layers.map (slotsOf adam.records) :: adam.otherGroups, adam.step⟩

/-- All blocks have as many values as positions. -/
def allFilled : List (ParamBlock α) → Outcome Bool
  | [] => .ok true
  | block :: blocks => do
      let count ← Size.product block.shape
      if block.values.size = count then allFilled blocks else return false

/-- The slots of all layers have the shapes of the parameters, twice, and are filled. -/
def checkSlots : (first : Nat) → List (List (List Nat)) → List (LayerWeights α) → Outcome Unit
  | first, shapes :: layout, slots :: group => do
      let expected := shapes ++ shapes
      let filled ← allFilled slots.params
      if expected = slots.layout ∧ filled then
        checkSlots (first + 1) layout group
      else
        failWith (.shapeMismatch (.layerSlots first) expected.flatten slots.layout.flatten)
  | _, _, _ => .ok ()

/-- The state fits the layers of the model. -/
def checkState (model : Model α) (state : OptimizerState α) : Outcome Unit := do
  let group ← state.group OptimizerState.modelGroup
  ensureShape .slotLayers [group.length] [model.depth]
  checkSlots 0 model.layout group

/-- The records that the slots of a layer stand for. -/
def recordsOf (params : List (Param α)) (slots : LayerWeights α) (time : Nat) : Records α :=
  let half := slots.params.length / 2
  let moments := List.zipWith (fun m v => (⟨m, v, time⟩ : Moments α))
    (slots.params.take half) (slots.params.drop half)
  List.zipWith (fun param moments => (param.id, moments)) params moments

/-- The optimizer with its state replaced. -/
def setState (adam : Adam α) (model : Model α) (state : OptimizerState α) :
    Outcome (Adam α) := do
  checkState model state
  let group ← state.group OptimizerState.modelGroup
  let entries := (model.layers.zip group).flatMap fun (params, slots) =>
    recordsOf params slots state.step
  return { adam with
    records := entries.foldl (fun records (id, moments) => records.insert id moments) adam.records
    step := state.step
    otherGroups := state.slots.drop 1 }

end PolicyGradient.Adam
