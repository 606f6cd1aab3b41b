import PolicyGradient.Proofs.PolicyBatches
import PolicyGradient.Proofs.Refusals

/-!
The length of policy slices.

A configuration that is valid names the length of value slices, and policy slices are longer by the
look-ahead.  They are usable if that sum is a size (`Config.sliceable_iff`): then the horizon always
fits into them and a policy batch can be asked for.  Validation does not look at the sum, and where
it is no size, whatever needs it overflows, the construction of an agent included
(`Config.usable_slices`).
-/

namespace PolicyGradient

open Outcome
open Decimal (Shown)

variable {α ρ τ : Type}

/-- Where the one action succeeds, the other one overflows. -/
def Action.OverflowsWhere {σ β γ : Type} (act : Action σ β) (act' : Action σ γ) : Prop :=
  ∀ s b t, act.run s = (.ok b, t) → (act'.run s).1 = faultWith .overflow

/-- What comes first may be the same for both. -/
theorem Action.OverflowsWhere.bind {σ β γ δ : Type} {act : Action σ β} {next : β → Action σ γ}
    {next' : β → Action σ δ} (h : ∀ b, (next b).OverflowsWhere (next' b)) :
    (act >>= next).OverflowsWhere (act >>= next') := by
  intro s c u hrun
  obtain ⟨b, t, hact, hnext⟩ := run_bind_eq_ok.mp hrun
  rw [run_bind, hact]
  exact h b t c u hnext

namespace Config

/-- Policy slices of `length` timesteps and the look-ahead can be used. -/
structure Sliceable (config : Config α ρ) (length : Nat) : Prop where
  /-- Their length is the sum. -/
  sum : config.policySliceLength = .ok (length + config.lookAhead)
  /-- It is longer than the look-ahead. -/
  longer : config.lookAhead < length + config.lookAhead
  /-- So the horizon fits into every slice of that length. -/
  horizon : Advantage.checkHorizon config.lookAhead (length + config.lookAhead) = .ok ()
  /-- A policy batch is asked for with this length. -/
  request : ∀ onPolicy, Source.policyRequest config onPolicy =
    .ok ⟨config.policyBatchSize, .ofOnPolicy onPolicy, length + config.lookAhead,
      decide (1 < length + config.lookAhead)⟩

/-- The length of policy slices overflows, and so does all that needs it. -/
structure Overflows [Scalar α] [Scalar ρ] [Shown ρ] (config : Config α ρ) : Prop where
  sum : config.policySliceLength = faultWith .overflow
  request : ∀ onPolicy, Source.policyRequest config onPolicy = faultWith .overflow
  /-- A construction that would succeed without a look-ahead overflows. -/
  construct : ∀ {τ : Type} {task : Task α τ} {valueModel evaluationModel : Outcome (Model α)}
    {policyModel : Model α} {algorithm : Algorithm α} {site site' : Site α ρ τ}
    {agent : Agent α ρ τ},
    (Agent.construct task valueModel evaluationModel policyModel algorithm
      { config with lookAhead := 0 }).run site = (.ok agent, site') →
    ((Agent.construct task valueModel evaluationModel policyModel algorithm config).run site).1 =
      faultWith .overflow
  /-- No construction succeeds. -/
  unbuilt : ∀ {τ : Type} {task : Task α τ} {valueModel evaluationModel : Outcome (Model α)}
    {policyModel : Model α} {algorithm : Algorithm α} {site site' : Site α ρ τ}
    {agent : Agent α ρ τ},
    (Agent.construct task valueModel evaluationModel policyModel algorithm config).run site ≠
      (.ok agent, site')

variable {config : Config α ρ} {length : Nat}

theorem policySliceLength_eq (hlength : config.sliceLength = some length) :
    config.policySliceLength = Size.add length config.lookAhead := by
  rw [policySliceLength, requireSliceLength, hlength]
  rfl

theorem policyRequest_eq (hlength : config.sliceLength = some length) (onPolicy : Bool) :
    Source.policyRequest config onPolicy = do
      let sum ← Size.add length config.lookAhead
      return ⟨config.policyBatchSize, .ofOnPolicy onPolicy, sum, decide (1 < sum)⟩ := by
  rw [Source.policyRequest, policySliceLength_eq hlength]

/-- Policy slices can be used exactly if their length is a size. -/
theorem sliceable_iff (hlength : config.sliceLength = some length) (hpositive : 0 < length) :
    config.Sliceable length ↔ length + config.lookAhead < Size.limit := by
  constructor
  · intro h
    have hsum := h.sum
    rw [policySliceLength_eq hlength] at hsum
    exact (Size.add_eq_ok.mp hsum).1
  · intro hlimit
    have hadd : Size.add length config.lookAhead = .ok (length + config.lookAhead) :=
      Size.add_eq_ok.mpr ⟨hlimit, rfl⟩
    have hlonger : config.lookAhead < length + config.lookAhead := Nat.lt_add_of_pos_left hpositive
    refine ⟨?_, hlonger, Advantage.checkHorizon_eq_ok.mpr hlonger, fun onPolicy => ?_⟩
    · rw [policySliceLength_eq hlength, hadd]
    · rw [policyRequest_eq hlength, hadd]
      rfl

variable [Scalar α] [Scalar ρ] [Shown ρ]

theorem overflowsWhere_complete {task : Task α τ} {value : Learner α ρ (ValueBatch α)}
    {evaluationModel : Outcome (Model α)} {policyModel : Model α} {algorithm : Algorithm α}
    (hrequest : Source.policyRequest config algorithm.onPolicy = faultWith .overflow) :
    (Agent.complete task value length evaluationModel policyModel algorithm
      { config with lookAhead := 0 }).OverflowsWhere
      (Agent.complete task value length evaluationModel policyModel algorithm config) := by
  refine .bind fun _ => .bind fun _ => .bind fun _ => fun here agent after _ => ?_
  rw [Action.run_lift_bind, hrequest]
  rfl

/-- The look-ahead does not matter to anything that a construction does before it asks for policy
batches. -/
theorem overflowsWhere_construct {task : Task α τ} {valueModel evaluationModel : Outcome (Model α)}
    {policyModel : Model α} {algorithm : Algorithm α}
    (hrequest : Source.policyRequest config algorithm.onPolicy = faultWith .overflow) :
    (Agent.construct task valueModel evaluationModel policyModel algorithm
      { config with lookAhead := 0 }).OverflowsWhere
      (Agent.construct task valueModel evaluationModel policyModel algorithm config) := by
  rw [Agent.construct_eq, Agent.construct_eq]
  refine .bind fun _ => .bind fun length => .bind fun trained => .bind fun _ => ?_
  refine .bind fun _ => .bind fun plain => .bind fun value => fun here agent after hbuilt => ?_
  rw [(Agent.taskState_of_closingOnFailure value _ here).1]
  exact overflowsWhere_complete hrequest here agent after
    (Agent.run_closingOnFailure_eq_ok.mp hbuilt)

theorem overflows_of_limit (hlength : config.sliceLength = some length)
    (hlimit : ¬ length + config.lookAhead < Size.limit) : config.Overflows := by
  have hadd : Size.add length config.lookAhead = faultWith .overflow := if_neg hlimit
  have hrequest : ∀ onPolicy, Source.policyRequest config onPolicy = faultWith .overflow := by
    intro onPolicy
    rw [policyRequest_eq hlength, hadd]
    rfl
  refine ⟨by rw [policySliceLength_eq hlength, hadd], hrequest, ?_, ?_⟩
  · exact overflowsWhere_construct (hrequest _) _ _ _
  · intro τ task valueModel evaluationModel policyModel algorithm site site' agent hbuilt
    have hown := (Agent.built_of_construct hbuilt).policyRequest
    rw [hrequest] at hown
    cases hown

/-- A valid configuration has usable policy slices exactly if their length is a size, and otherwise
it cannot be used at all. -/
theorem usable_slices (hvalid : config.validate = .ok ()) :
    ∃ length, config.sliceLength = some length ∧
      (config.Sliceable length ↔ length + config.lookAhead < Size.limit) ∧
      (¬ config.Sliceable length → config.Overflows) := by
  obtain ⟨length, hlength, hpositive, _⟩ := validate_eq_ok.mp hvalid
  have hiff := sliceable_iff hlength hpositive
  exact ⟨length, hlength, hiff, fun h => overflows_of_limit hlength (mt hiff.mpr h)⟩

end Config

namespace Agent.Line

/-- A look-ahead of three timesteps. -/
def looking : Config Float32 Float :=
  { config with lookAhead := 3 }

/-- The largest look-ahead. -/
def farthest : Config Float32 Float :=
  { config with lookAhead := Size.limit - 1 }

/-- Slices of one timestep with a look-ahead of three have four timesteps. -/
theorem usable_slices_line : looking.validate = .ok () ∧ looking.Sliceable 1 ∧
    looking.policySliceLength = .ok 4 := by
  have hvalid : looking.validate = .ok () := rfl
  obtain ⟨length, hlength, hiff, _⟩ := Config.usable_slices hvalid
  cases hlength
  have hsliceable : looking.Sliceable 1 := hiff.mpr (by decide)
  exact ⟨hvalid, hsliceable, hsliceable.sum⟩

/-- The configuration is valid, and slices of one timestep longer than the look-ahead are not
usable. -/
theorem not_sliceable_farthest : farthest.validate = .ok () ∧
    farthest.sliceLength = some 1 ∧ ¬ farthest.Sliceable 1 ∧
    ((construct numbers (.ok (bent 0.5 1)) (.ok (bent 0.5 1)) (bent 0.25 2)
      (.a2c (.gaussian 1 0.5)) farthest).run site).1 = faultWith .overflow := by
  have hlimit : ¬ 1 + farthest.lookAhead < Size.limit := by decide
  refine ⟨rfl, rfl, fun h => hlimit ((Config.sliceable_iff rfl Nat.one_pos).mp h), ?_⟩
  have hbuilt : (build.run site).1.isOk = true := by decide +kernel
  obtain ⟨agent, hagent⟩ := exists_of_isOk hbuilt
  exact (Config.overflows_of_limit rfl hlimit).construct (Prod.ext hagent rfl)

end Agent.Line

end PolicyGradient
