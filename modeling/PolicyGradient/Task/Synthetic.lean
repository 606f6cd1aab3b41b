import PolicyGradient.Action
import PolicyGradient.Noise
import PolicyGradient.Task.Basic

/-!
A task that draws its trajectories from a generator.

Its settings can make single calls fail or answer with a field of the wrong length, which shows how
an agent deals with a task that does not keep its promises.
-/

namespace PolicyGradient.Synthetic

/-- Settings of a synthetic task. -/
structure Settings (α : Type) where
  seed : Nat
  observationDepth : Nat
  gamma : α
  /-- The number of actions to choose from; without it actions are numbers. -/
  actionCount : Option Nat
  actionDepth : Nat
  /-- Whether there is no padding. -/
  allReal : Bool
  /-- Sizes that replace those of every request. -/
  fixedBatchSize : Option Nat
  fixedLength : Option Nat
  /-- The call that fails. -/
  failCall : Option Nat
  /-- The epoch at whose end the task fails. -/
  failEndEpoch : Option Nat
  /-- The call, and the field, whose length is off by one. -/
  breakCall : Option Nat
  breakField : Option Field

/-- The state: the generator, the calls so far and the epochs that have ended. -/
structure State where
  noise : Noise
  calls : Nat
  ended : List Nat
  deriving Repr

namespace Settings

variable {α : Type}

/-- The state before the first call. -/
def start (settings : Settings α) : State :=
  ⟨.ofSeed settings.seed, 0, []⟩

variable [Scalar α]

/-- Draws of one number. -/
abbrev Draw (α : Type) : Type :=
  Noise → Outcome α × Noise

/-- A draw that cannot fail. -/
def steady (draw : Noise → α × Noise) : Draw α := fun noise =>
  let (x, noise) := draw noise
  (.ok x, noise)

/-- An action: a choice among the actions, or a number. -/
def action (settings : Settings α) : Draw α :=
  match settings.actionCount with
  | none => steady Noise.value
  | some 0 => fun noise => (faultWith .emptyDivision, noise)
  | some count => fun noise =>
      let (n, noise) := noise.next
      (.ok ((n % count : Nat) : α), noise)

/-- A return. -/
def target : Draw α := steady fun noise =>
  let (x, noise) : α × Noise := noise.value
  (((4 : Nat) : α) * x, noise)

/-- A log-probability: a negative multiple of 1/16, at least -2. -/
def logProb : Draw α := steady fun noise =>
  let (n, noise) := noise.next
  (-Noise.sixteenth (n % 32 + 1), noise)

/-- A mask entry: one in four is padding. -/
def maskEntry (settings : Settings α) : Draw α := steady fun noise =>
  let (n, noise) := noise.next
  (if n % 4 = 0 && ! settings.allReal then 0 else 1, noise)

/-- Draw the entries of a tensor in row-major order. -/
def tensor {rank : Nat} (dims : Vector Nat rank) (draw : Draw α) (noise : Noise) :
    Outcome (Tensor α rank) × Noise :=
  match (do Size.allocate (← Size.product dims.toList) 4) with
  | .error e => (.error e, noise)
  | .ok () =>
      let (draws, noise) := Noise.draws draw (Size.volume dims.toList) noise
      match draws.mapM id with
      | .error e => (.error e, noise)
      | .ok entries => (Tensor.ofData? dims entries.toArray, noise)

/-- The length of a field in the current call. -/
def lengthOf (settings : Settings α) (state : State) (length : Nat) (field : Field) : Nat :=
  if settings.breakCall = some state.calls ∧ settings.breakField = some field then length + 1
  else length

/-- Draw the fields of a trajectory one after the other. -/
def trajectory (settings : Settings α) (request : BatchRequest) (state : State) :
    Action Noise (Trajectory α) := do
  let b := settings.fixedBatchSize.getD request.batchSize
  let length := settings.lengthOf state (settings.fixedLength.getD request.sliceLength)
  let deep (field : Field) (depth : Nat) (draw : Draw α) : Action Noise (Tensor α 3) :=
    .of (tensor #v[b, length field, depth] draw)
  let flat (field : Field) (draw : Draw α) : Action Noise (Tensor α 2) :=
    .of (tensor #v[b, length field] draw)
  return {
    observations := ← deep .observations settings.observationDepth (steady Noise.value)
    actions := ← deep .actions settings.actionDepth settings.action
    rewards := ← flat .rewards (steady Noise.value)
    returns := ← flat .returns target
    logProbs := ← flat .logProbs logProb
    mask := ← flat .mask settings.maskEntry }

/-- The task of the settings. -/
def task (settings : Settings α) : Task α State where
  sample request state :=
    let next := { state with calls := state.calls + 1 }
    if settings.failCall = some state.calls then
      (failWith (.task "no data"), next)
    else
      let (outcome, noise) := (settings.trajectory request state).run state.noise
      (outcome, { next with noise := noise })
  gamma _ := settings.gamma
  endEpoch epoch state :=
    if settings.failEndEpoch = some epoch then
      (failWith (.task s!"epoch {epoch} refused"), state)
    else
      (.ok (), { state with ended := state.ended ++ [epoch] })

end Settings

end PolicyGradient.Synthetic
