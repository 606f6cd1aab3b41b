import PolicyGradient.Config.Basic

/-!
Settings as documents.

A document is laid over the standard settings: fields that are missing keep their standard value,
also inside the settings of an optimizer.  A schedule is replaced as a whole.  Writing puts down
every field and takes the form of numbers from its caller.
-/

namespace PolicyGradient

open Document (fields? withDefault? optional? nat? float32? text?)

/-- The names of an optimizer's settings, in order. -/
def Adam.Settings.fieldNames : List String :=
  ["beta_1", "beta_2", "epsilon", "weight_decay_rate", "max_grad_norm"]

def Adam.Settings.ofDocument? (document : Document) : Option (Adam.Settings Float32) := do
  let base : Adam.Settings Float32 := .standard
  let [beta1, beta2, epsilon, decay, maxNorm] ← fields? fieldNames document | none
  return {
    beta1 := ← withDefault? base.beta1 float32? beta1
    beta2 := ← withDefault? base.beta2 float32? beta2
    epsilon := ← withDefault? base.epsilon float32? epsilon
    decay := ← withDefault? base.decay float32? decay
    maxNorm := ← withDefault? base.maxNorm (optional? float32?) maxNorm }

/-- The names of an agent's settings, in order. -/
def Config.fieldNames : List String :=
  ["value_batch_size", "value_train_steps_per_epoch", "policy_batch_size",
    "policy_train_steps_per_epoch", "n_shared_layers", "added_policy_slice_length",
    "max_slice_length", "output_dir", "value_optimizer", "value_lr_schedule",
    "policy_optimizer", "policy_lr_schedule"]

def Config.ofDocument? (document : Document) : Option (Config Float32 Float) := do
  let base : Config Float32 Float := .standard
  let readPlan := Schedule.Plan.ofDocument? (Document.deepest - 1)
  let [valueBatchSize, valueSteps, policyBatchSize, policySteps, sharedLayers, lookAhead,
    sliceLength, outputDir, valueOptimizer, valueSchedule, policyOptimizer, policySchedule] ←
    fields? fieldNames document | none
  return {
    valueBatchSize := ← withDefault? base.valueBatchSize nat? valueBatchSize
    valueSteps := ← withDefault? base.valueSteps nat? valueSteps
    policyBatchSize := ← withDefault? base.policyBatchSize nat? policyBatchSize
    policySteps := ← withDefault? base.policySteps nat? policySteps
    sharedLayers := ← withDefault? base.sharedLayers nat? sharedLayers
    lookAhead := ← withDefault? base.lookAhead nat? lookAhead
    sliceLength := ← withDefault? base.sliceLength (optional? nat?) sliceLength
    outputDir := ← withDefault? base.outputDir (optional? text?) outputDir
    valueOptimizer :=
      ← withDefault? base.valueOptimizer Adam.Settings.ofDocument? valueOptimizer
    valueSchedule := ← withDefault? base.valueSchedule readPlan valueSchedule
    policyOptimizer :=
      ← withDefault? base.policyOptimizer Adam.Settings.ofDocument? policyOptimizer
    policySchedule :=
      ← withDefault? base.policySchedule readPlan policySchedule }

/-- The name of the setting of the clipped surrogate. -/
def Clipping.fieldNames : List String := ["epsilon"]

def Clipping.ofDocument? (document : Document) : Option (Clipping Float32) := do
  let [epsilon] ← fields? fieldNames document | none
  return ⟨← withDefault? Clipping.standard.epsilon float32? epsilon⟩

/-- The names of the settings of advantage weighting, in order. -/
def Weighting.fieldNames : List String := ["beta", "w_max"]

def Weighting.ofDocument? (document : Document) : Option (Weighting Float32) := do
  let [beta, cap] ← fields? fieldNames document | none
  return ⟨← withDefault? Weighting.standard.beta float32? beta,
    ← withDefault? Weighting.standard.cap float32? cap⟩

variable {α ρ : Type}

def Adam.Settings.toDocument (number : α → Document) (settings : Adam.Settings α) : Document :=
  .record [("beta_1", number settings.beta1), ("beta_2", number settings.beta2),
    ("epsilon", number settings.epsilon), ("weight_decay_rate", number settings.decay),
    ("max_grad_norm", .ofOption number settings.maxNorm)]

def Schedule.Plan.toDocument (number : ρ → Document) : Schedule.Plan ρ → Document
  | .constant lr => .record [("type", .text "constant"), ("lr", number lr)]
  | .linearDecay start stop total =>
      .record [("type", .text "linear_decay"), ("start_lr", number start),
        ("end_lr", number stop), ("total_steps", .ofNat total)]
  | .warmupConstant lr steps =>
      .record [("type", .text "warmup_constant"), ("lr", number lr),
        ("warmup_steps", .ofNat steps)]
  | .multifactor factor steps =>
      .record [("type", .text "multifactor"), ("constant", number factor),
        ("warmup_steps", .ofNat steps)]

def Config.toDocument (number : α → Document) (rate : ρ → Document) (config : Config α ρ) :
    Document :=
  .record [("value_batch_size", .ofNat config.valueBatchSize),
    ("value_train_steps_per_epoch", .ofNat config.valueSteps),
    ("policy_batch_size", .ofNat config.policyBatchSize),
    ("policy_train_steps_per_epoch", .ofNat config.policySteps),
    ("n_shared_layers", .ofNat config.sharedLayers),
    ("added_policy_slice_length", .ofNat config.lookAhead),
    ("max_slice_length", .ofOption Document.ofNat config.sliceLength),
    ("output_dir", .ofOption Document.text config.outputDir),
    ("value_optimizer", config.valueOptimizer.toDocument number),
    ("value_lr_schedule", config.valueSchedule.toDocument rate),
    ("policy_optimizer", config.policyOptimizer.toDocument number),
    ("policy_lr_schedule", config.policySchedule.toDocument rate)]

def Clipping.toDocument (number : α → Document) (clipping : Clipping α) : Document :=
  .record [("epsilon", number clipping.epsilon)]

def Weighting.toDocument (number : α → Document) (weighting : Weighting α) : Document :=
  .record [("beta", number weighting.beta), ("w_max", number weighting.cap)]

end PolicyGradient
