/-!
How a computation of the library ends when it has no result.

`Error` holds the causes a caller can handle, each with the data of its message.  `Fault` holds
broken preconditions of the arithmetic and of tensor operations, which end the whole computation.
-/

namespace PolicyGradient

/-- A per-timestep field of a batch. -/
inductive Field
  | observations
  | actions
  | rewards
  | returns
  | values
  | advantages
  | logProbs
  | oldLogProbs
  | mask
  deriving DecidableEq, Repr

/-- The field's name in messages. -/
def Field.label : Field → String
  | observations => "observations"
  | actions => "actions"
  | rewards => "rewards"
  | returns => "returns"
  | values => "values"
  | advantages => "advantages"
  | logProbs => "log_probs"
  | oldLogProbs => "old_log_probs"
  | mask => "mask"

/-- What a shape check was about. -/
inductive Subject
  | tensorBuffer
  | parameterBlock
  | layerCount
  | layerLayout (layer : Nat)
  | slotLayers
  | layerSlots (layer : Nat)
  | advantage (field : Field)
  | trajectory (field : Field)
  | policy (field : Field)
  | valueOutput
  | valueMask
  | policyOutput
  | valueEstimate
  | named (text : String)
  deriving DecidableEq, Repr

/-- The subject's name in messages. -/
def Subject.label : Subject → String
  | tensorBuffer => "tensor buffer"
  | parameterBlock => "parameter block"
  | layerCount => "number of layers"
  | layerLayout layer => s!"layer {layer} parameter layout"
  | slotLayers => "optimizer slot layers"
  | layerSlots layer => s!"optimizer slots of layer {layer}"
  | advantage field => "advantage " ++ field.label
  | trajectory field => "trajectory " ++ field.label
  | policy field => "policy " ++ field.label
  | valueOutput => "value model output"
  | valueMask => "value mask"
  | policyOutput => "policy model output"
  | valueEstimate => "value estimate"
  | named text => text

/-- Why a setting, or a combination of settings, is unusable. -/
inductive ConfigFault
  | missingSliceLength
  | zeroSliceLength
  | emptyBatches (value policy : Nat)
  | horizon (lookAhead length : Nat)
  | noSlotGroup (groups group : Nat)
  | tooManySharedLayers (shared valueLayers policyLayers : Nat)
  deriving DecidableEq, Repr

/-- The reason in words. -/
def ConfigFault.message : ConfigFault → String
  | missingSliceLength => "max_slice_length is required"
  | zeroSliceLength => "max_slice_length must be > 0"
  | emptyBatches value policy =>
      s!"batch sizes must be > 0, got value {value} and policy {policy}"
  | horizon lookAhead length =>
      s!"td horizon {lookAhead} leaves no timesteps in slices of length {length}"
  | noSlotGroup groups group =>
      s!"optimizer state has {groups} slot groups, no group {group}"
  | tooManySharedLayers shared valueLayers policyLayers =>
      s!"n_shared_layers = {shared} but the value model has {valueLayers} layers " ++
        s!"and the policy model {policyLayers}"

/-- Causes of failure that a caller can handle. -/
inductive Error
  | notImplemented (operation : String)
  | shapeMismatch (what : Subject) (expected actual : List Nat)
  | config (fault : ConfigFault)
  | layerRange (start stop count : Nat)
  | exhausted (stream : String)
  | task (reason : String)
  | files
  deriving DecidableEq, Repr

/-- A list of sizes in brackets. -/
def listSizes (sizes : List Nat) : String :=
  "[" ++ ", ".intercalate (sizes.map toString) ++ "]"

/-- The message of an error. -/
def Error.message : Error → String
  | notImplemented operation =>
      "operation `" ++ operation ++ "` is not implemented for this algorithm"
  | shapeMismatch what expected actual =>
      "shape mismatch for " ++ what.label ++ ": expected " ++ listSizes expected ++
        ", got " ++ listSizes actual
  | config fault => "configuration error: " ++ fault.message
  | layerRange start stop count =>
      s!"layer range {start}..{stop} out of bounds for {count} layers"
  | exhausted stream => "input stream `" ++ stream ++ "` is exhausted"
  | task reason => "task error: " ++ reason
  | files => "io error"

/-- Broken preconditions: they end the computation and are no answer to a caller. -/
inductive Fault
  /-- A size leaves the range of sizes. -/
  | overflow
  /-- An index lies outside its tensor, or a slice of a tensor is empty. -/
  | outOfBounds
  /-- Shapes that an operation cannot combine. -/
  | incompatibleShapes
  /-- Lists that have to be equally long are not. -/
  | unequalLengths
  /-- Bounds in the wrong order, or a bound that is not a number. -/
  | badBounds
  /-- A mean over nothing, or a remainder by zero. -/
  | emptyDivision
  /-- A schedule refused its parameters, with the words of the refusal. -/
  | schedule (message : String)
  deriving DecidableEq, Repr

/-- How a computation fails. -/
inductive Failure
  | error (cause : Error)
  | fault (cause : Fault)
  deriving DecidableEq, Repr

/-- A result or a failure. -/
abbrev Outcome (α : Type) : Type := Except Failure α

/-- Fail with an error of the caller's making. -/
def failWith {α : Type} (cause : Error) : Outcome α :=
  .error (.error cause)

/-- Fail with a broken precondition. -/
def faultWith {α : Type} (cause : Fault) : Outcome α :=
  .error (.fault cause)

/-- Fail with a shape mismatch unless the actual sizes are the expected ones. -/
def ensureShape (what : Subject) (actual expected : List Nat) : Outcome Unit :=
  if actual = expected then .ok () else failWith (.shapeMismatch what expected actual)

end PolicyGradient
