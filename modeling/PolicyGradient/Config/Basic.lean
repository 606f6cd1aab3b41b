import PolicyGradient.Adam.Basic
import PolicyGradient.Schedule.Plan

/-!
Settings of an agent and of its algorithms.
-/

namespace PolicyGradient

/-- Settings of an actor-critic agent and its two learners. -/
structure Config (α ρ : Type) where
  /-- Slices in a value batch. -/
  valueBatchSize : Nat
  /-- Value steps in an epoch. -/
  valueSteps : Nat
  /-- Slices in a policy batch. -/
  policyBatchSize : Nat
  /-- Policy steps in an epoch. -/
  policySteps : Nat
  /-- Leading layers that the two models share. -/
  sharedLayers : Nat
  /-- Extra timesteps of policy slices. -/
  lookAhead : Nat
  /-- Length of value slices; it has no default. -/
  sliceLength : Option Nat
  /-- Where metrics are written, if anywhere. -/
  outputDir : Option String
  valueOptimizer : Adam.Settings α
  valueSchedule : Schedule.Plan ρ
  policyOptimizer : Adam.Settings α
  policySchedule : Schedule.Plan ρ
  deriving DecidableEq, Repr

namespace Config

variable {α ρ : Type}

/-- The settings that hold where nothing else is said. -/
def standard [Scalar α] [Scalar ρ] : Config α ρ where
  valueBatchSize := 64
  valueSteps := 500
  policyBatchSize := 64
  policySteps := 500
  sharedLayers := 0
  lookAhead := 0
  sliceLength := none
  outputDir := none
  valueOptimizer := .standard
  valueSchedule := .standard
  policyOptimizer := .standard
  policySchedule := .standard

/-- The length of value slices. -/
def requireSliceLength (config : Config α ρ) : Outcome Nat :=
  match config.sliceLength with
  | some length => .ok length
  | none => failWith (.config .missingSliceLength)

/-- The length of policy slices. -/
def policySliceLength (config : Config α ρ) : Outcome Nat := do
  Size.add (← config.requireSliceLength) config.lookAhead

/-- The settings are usable whatever the models are. -/
def validate (config : Config α ρ) : Outcome Unit := do
  let length ← config.requireSliceLength
  if length = 0 then
    failWith (.config .zeroSliceLength)
  else if config.valueBatchSize = 0 ∨ config.policyBatchSize = 0 then
    failWith (.config (.emptyBatches config.valueBatchSize config.policyBatchSize))
  else
    return ()

end Config

/-- Settings of the clipped surrogate. -/
structure Clipping (α : Type) where
  /-- How far the probability ratio may move from 1. -/
  epsilon : α
  deriving DecidableEq, Repr

def Clipping.standard {α : Type} [Scalar α] : Clipping α :=
  ⟨1 / ((5 : Nat) : α)⟩

/-- Settings of advantage weighting. -/
structure Weighting (α : Type) where
  /-- Temperature of the exponential weights. -/
  beta : α
  /-- The largest weight. -/
  cap : α
  deriving DecidableEq, Repr

def Weighting.standard {α : Type} [Scalar α] : Weighting α :=
  ⟨1, ((20 : Nat) : α)⟩

end PolicyGradient
