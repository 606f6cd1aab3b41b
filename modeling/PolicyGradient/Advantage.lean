import PolicyGradient.Batch

/-!
Advantages of recorded actions over value estimates.

With a look-ahead of `n` timesteps the advantage at `t` is the return minus the estimate when
`n = 0`, and otherwise `n` discounted rewards plus the discounted estimate at `t + n`, minus the
estimate at `t`.  The last `n` timesteps of a slice have no advantage of their own.
-/

namespace PolicyGradient.Advantage

variable {α : Type} [Scalar α]

/-- A slice has to be longer than the look-ahead. -/
def checkHorizon (lookAhead length : Nat) : Outcome Unit :=
  if length ≤ lookAhead then failWith (.config (.horizon lookAhead length)) else .ok ()

/-- Discounted sum of rewards: each reward is weighted with the next power of the discount. -/
def discounted (gamma : α) (rewards : List α) : α :=
  (rewards.foldl (fun (total, weight) r => (total + weight * r, weight * gamma)) (0, 1)).1

/-- The discount of the estimate that stands in for all later rewards.  The exponent is a 32-bit
signed number. -/
def bootstrap (gamma : α) (lookAhead : Nat) : α :=
  Scalar.zpower gamma (Size.toSigned32 lookAhead)

/-- The advantage at one timestep with a look-ahead of at least one. -/
def ahead (rewards values : List α) (gamma : α) (lookAhead t : Nat) : α :=
  discounted gamma ((rewards.drop t).take lookAhead)
    + bootstrap gamma lookAhead * values.getD (t + lookAhead) 0
    - values.getD t 0

/-- The advantages of one slice. -/
def ofSlice (rewards returns values : List α) (gamma : α) (lookAhead : Nat) :
    Outcome (List α) := do
  ensureShape (.advantage .returns) [returns.length] [rewards.length]
  ensureShape (.advantage .values) [values.length] [rewards.length]
  checkHorizon lookAhead rewards.length
  if lookAhead = 0 then
    return List.zipWith (· - ·) returns values
  else
    return (List.range (rewards.length - lookAhead)).map (ahead rewards values gamma lookAhead)

/-- One slice of a batch. -/
def slice (t : Tensor α 2) (b : Nat) : List α :=
  (List.range (t.axis 1)).map fun i => t.entry [b, i]

/-- The advantages of a batch, slice by slice. -/
def ofBatch (rewards returns values : Tensor α 2) (gamma : α) (lookAhead : Nat) :
    Outcome (Tensor α 2) := do
  ensureShape (.advantage .returns) returns.shape rewards.shape
  ensureShape (.advantage .values) values.shape rewards.shape
  checkHorizon lookAhead (rewards.axis 1)
  let rows ← (List.range (rewards.axis 0)).mapM fun b =>
    ofSlice (slice rewards b) (slice returns b) (slice values b) gamma lookAhead
  return Tensor.tabulate #v[rewards.axis 0, rewards.axis 1 - lookAhead] fun p =>
    ((rows.getD (p.getD 0 0) []).getD (p.getD 1 0) 0)

/-- The inputs of a policy update: advantages, and the other fields cut to the timesteps that
have one. -/
def policyBatch (trajectory : Trajectory α) (values : Tensor α 2) (gamma : α) (lookAhead : Nat) :
    Outcome (PolicyBatch α) := do
  let advantages ← ofBatch trajectory.rewards trajectory.returns values gamma lookAhead
  let b := advantages.axis 0
  let keep := advantages.axis 1
  let batch : PolicyBatch α :=
    { observations := ← trajectory.observations.leading #v[b, keep, trajectory.observations.axis 2]
      actions := ← trajectory.actions.leading #v[b, keep, trajectory.actions.axis 2]
      advantages := advantages
      oldLogProbs := ← trajectory.logProbs.leading #v[b, keep] }
  batch.validate
  return batch

end PolicyGradient.Advantage
