import PolicyGradient.Model.Basic

/-!
The Adam update.

For each parameter the optimizer keeps running means of the gradient and of its square, with the
number of updates they stand for.  A parameter without a gradient keeps its values and its means.
Records are kept by the parameter's identity.
-/

namespace PolicyGradient

namespace Adam

/-- Hyperparameters. -/
structure Settings (α : Type) where
  /-- Decay of the mean gradient. -/
  beta1 : α
  /-- Decay of the mean squared gradient. -/
  beta2 : α
  epsilon : α
  /-- Weight decay, added to the gradient when positive. -/
  decay : α
  /-- Largest norm of the gradient of a parameter. -/
  maxNorm : Option α
  deriving DecidableEq, Repr

/-- The settings of a learner without settings of its own. -/
def Settings.standard {α : Type} [Scalar α] : Settings α where
  beta1 := ((9 : Nat) : α) / ((10 : Nat) : α)
  beta2 := ((999 : Nat) : α) / ((1000 : Nat) : α)
  epsilon := 1 / ((100000 : Nat) : α)
  decay := 1 / ((100000 : Nat) : α)
  maxNorm := none

/-- Running means of a parameter's gradient and squared gradient after `time` updates.  They have
the shape of the gradients, which may be stretched to that of the parameter. -/
structure Moments (α : Type) where
  first : ParamBlock α
  second : ParamBlock α
  time : Nat
  deriving Repr

/-- Moments by the identity of the parameter. -/
abbrev Records (α : Type) : Type :=
  List (Nat × Moments α)

namespace Records

variable {α : Type}

/-- The moments of a parameter, if it has been updated or restored before. -/
def find? (records : Records α) (id : Nat) : Option (Moments α) :=
  (List.find? (fun record => record.1 == id) records).map (·.2)

/-- The records with those of one parameter replaced. -/
def insert (records : Records α) (id : Nat) (moments : Moments α) : Records α :=
  (id, moments) :: List.filter (fun record => record.1 != id) records

@[simp] theorem find?_insert (records : Records α) (id other : Nat) (moments : Moments α) :
    (insert records id moments).find? other =
      if id = other then some moments else find? records other := by
  by_cases h : id = other
  · simp [find?, insert, h]
  · have hne : (id == other) = false := by simpa using h
    simp only [find?, insert, List.find?_cons, hne, if_neg h]
    congr 1
    induction records with
    | nil => rfl
    | cons record records ih =>
        by_cases hid : record.1 = id
        · simp [hid, hne, ih]
        · simp [List.find?_cons, hid, ih]

end Records

end Adam

/-- An optimizer: its settings, the moments it keeps, the number of updates it has made, and slot
groups of parameters outside the model, which it carries along. -/
structure Adam (α : Type) where
  settings : Adam.Settings α
  records : Adam.Records α
  step : Nat
  otherGroups : List (List (LayerWeights α))

namespace Adam

variable {α : Type}

/-- An optimizer that has made no update. -/
def ofSettings (settings : Settings α) : Adam α :=
  ⟨settings, [], 0, []⟩

variable [Scalar α]

/-- The Euclidean norm of one parameter's gradient. -/
def norm (gradient : ParamBlock α) : α :=
  Scalar.sqrt ((gradient.values.map fun g => g * g).foldl (· + ·) 0)

/-- The factor that takes a gradient down to the largest norm, at most 1. -/
def clipFactor (limit : α) (gradient : ParamBlock α) : α :=
  let ratio := limit / (norm gradient + 1 / ((1000000 : Nat) : α))
  if Scalar.lt 1 ratio then 1 else ratio

/-- The gradient cut to the largest norm, if there is one. -/
def clip (settings : Settings α) (gradient : ParamBlock α) : ParamBlock α :=
  match settings.maxNorm with
  | none => gradient
  | some limit => let factor := clipFactor limit gradient; gradient.map (· * factor)

/-- The gradient that an update uses: clipped, then with the weight decay added. -/
def effective (settings : Settings α) (param : Param α) (gradient : ParamBlock α) :
    Outcome (ParamBlock α) :=
  let clipped := clip settings gradient
  if Scalar.lt 0 settings.decay then
    clipped.zipWith (fun g p => g + settings.decay * p) param.block
  else
    .ok clipped

/-- The moments after one more gradient, which is the first one where there are none yet. -/
def advance (settings : Settings α) (gradient : ParamBlock α) :
    Option (Moments α) → Outcome (Moments α)
  | none => .ok
      { first := gradient.map fun g => (1 - settings.beta1) * g
        second := gradient.map fun g => (1 - settings.beta2) * (g * g)
        time := 1 }
  | some moments => do
      return {
        first := ← moments.first.zipWith
          (fun m g => settings.beta1 * m + (1 - settings.beta1) * g) gradient
        second := ← moments.second.zipWith
          (fun v g => settings.beta2 * v + (1 - settings.beta2) * (g * g)) gradient
        time := moments.time + 1 }

/-- What a decaying mean that started at zero has to be divided by after `time` updates. -/
def correction (beta : α) (time : Nat) : α :=
  1 - Scalar.zpower beta (Size.toSigned32 time)

/-- The direction of an update: the mean gradient over the root of the mean square. -/
def direction (settings : Settings α) (moments : Moments α) : Outcome (ParamBlock α) :=
  let c := correction settings.beta1 moments.time
  let d := correction settings.beta2 moments.time
  (moments.first.map (· / c)).zipWith (fun m s => m / (s + settings.epsilon))
    (moments.second.map fun v => Scalar.sqrt (v / d))

/-- A parameter moved along its moments. -/
def move (settings : Settings α) (lr : α) (moments : Moments α) (param : Param α) :
    Outcome (Param α) := do
  let direction ← direction settings moments
  param.replace (← param.block.zipWith (fun x d => x - lr * d) direction)

/-- One parameter's update. -/
def updateParam (settings : Settings α) (lr : α) (records : Records α) (param : Param α) :
    Option (ParamBlock α) → Outcome (Param α × Records α)
  | none => .ok (param, records)
  | some gradient => do
      let moments ←
        advance settings (← effective settings param gradient) (records.find? param.id)
      return (← move settings lr moments param, records.insert param.id moments)

/-- The update of the parameters of a layer. -/
def updateParams (settings : Settings α) (lr : α) :
    Records α → List (Param α) → List (Option (ParamBlock α)) →
      Outcome (List (Param α) × Records α)
  | records, [], _ => .ok ([], records)
  | records, param :: params, gradients => do
      let (param, records) ← updateParam settings lr records param gradients.head?.join
      let (params, records) ← updateParams settings lr records params gradients.tail
      return (param :: params, records)

/-- The update of all layers. -/
def updateLayers (settings : Settings α) (lr : α) :
    Records α → List (List (Param α)) → Gradients α →
      Outcome (List (List (Param α)) × Records α)
  | records, [], _ => .ok ([], records)
  | records, params :: layers, gradients => do
      let (params, records) ← updateParams settings lr records params (gradients.head?.getD [])
      let (layers, records) ← updateLayers settings lr records layers gradients.tail
      return (params :: layers, records)

/-- One update of a model with learning rate `lr`. -/
def update (adam : Adam α) (lr : α) (model : Model α) (gradients : Gradients α) :
    Outcome (Adam α × Model α) := do
  let step ← Size.add adam.step 1
  let (layers, records) ←
    updateLayers adam.settings lr adam.records model.layers gradients
  return ({ adam with records := records, step := step }, { model with layers := layers })

end Adam

end PolicyGradient
