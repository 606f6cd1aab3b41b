import PolicyGradient.Advantage
import PolicyGradient.Config.Basic
import PolicyGradient.Loss.Policy

/-!
Actor-critic algorithms: how trajectories become policy inputs, and with which loss the policy is
trained on them.
-/

namespace PolicyGradient

/-- An algorithm. -/
structure Algorithm (α : Type) where
  name : String
  /-- Whether the policy may learn only from the latest epoch of data. -/
  onPolicy : Bool
  /-- Policy inputs from a trajectory, value estimates, the discount and the look-ahead. -/
  policyInputs : Trajectory α → Tensor α 2 → α → Nat → Outcome (PolicyBatch α)
  loss : PolicyLoss α

namespace Algorithm

variable {α : Type}

/-- The policy inputs of an algorithm that provides none. -/
def noPolicyInputs : Trajectory α → Tensor α 2 → α → Nat → Outcome (PolicyBatch α) :=
  fun _ _ _ _ => failWith (.notImplemented "policy_inputs")

variable [Scalar α]

/-- Advantage actor-critic. -/
def a2c (distribution : Distribution α) : Algorithm α where
  name := "A2C"
  onPolicy := true
  policyInputs := Advantage.policyBatch
  loss := .a2c distribution

/-- Proximal policy optimization. -/
def ppo (distribution : Distribution α) (clipping : Clipping α) : Algorithm α where
  name := "PPO"
  onPolicy := true
  policyInputs := Advantage.policyBatch
  loss := .ppo distribution clipping.epsilon

/-- Advantage-weighted regression, which learns from all recorded epochs. -/
def awr (distribution : Distribution α) (weighting : Weighting α) : Algorithm α where
  name := "AWR"
  onPolicy := false
  policyInputs := Advantage.policyBatch
  loss := .awr distribution weighting.beta weighting.cap

end Algorithm

end PolicyGradient
