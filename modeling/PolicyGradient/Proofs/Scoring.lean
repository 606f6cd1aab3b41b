import PolicyGradient.Agent.Source
import PolicyGradient.Proofs.Load
import PolicyGradient.Proofs.PolicyInputs

/-!
How policy batches are scored.

A draw reaches the algorithm with a trajectory and with estimates by a model that carries exactly
the given weights (`run_scored_eq_ok`).  What comes out has the requested sizes whatever the task
has answered, and an answer of the requested sizes is not refused.
-/

namespace PolicyGradient

open Outcome

variable {α τ : Type}

/-- What an algorithm makes policy inputs from. -/
structure Scored (α : Type) where
  trajectory : Trajectory α
  values : Tensor α 2
  gamma : α

/-- At all weights of its form the model has one output for each of the timesteps, whose
observations have this depth. -/
def Model.Estimates (model : Model α) (depth : Nat) : Prop :=
  ∀ (other : Model α) (observations : Tensor α 3) (b length : Nat), other.SameForm model →
    0 < b → 0 < length → observations.shape = [b, length, depth] →
      ∃ values, other.output observations = .ok values ∧ values.shape = [b, length, 1]

theorem Model.Estimates.of_sameForm {model other : Model α} {depth : Nat}
    (h : model.Estimates depth) (hform : other.SameForm model) : other.Estimates depth :=
  fun third observations b length hthird => h third observations b length (hthird.trans hform)

namespace Source

variable {task : Task α τ} {algorithm : Algorithm α} {request : BatchRequest} {lookAhead : Nat}
variable {weights : ModelWeights α} {s t : PolicyState α τ}

/-- A draw as far as the algorithm. -/
def scored (task : Task α τ) (request : BatchRequest) (weights : ModelWeights α) :
    Action (PolicyState α τ) (Scored α) := do
  let drawn ← Action.on PolicyState.task (fun t s => { s with task := t })
    (Action.of (task.sample request))
  let gamma := task.gamma (← get).task
  Action.lift drawn.validate
  let values ← estimate weights drawn.observations
  let values ← Action.lift (sized request values)
  return ⟨drawn, values, gamma⟩

/-- A draw ends where it does not reach the algorithm, and else as the algorithm does. -/
theorem policyBatch_eq :
    policyBatch task algorithm request lookAhead weights = (do
      let x ← scored task request weights
      Action.lift (algorithm.policyInputs x.trajectory x.values x.gamma lookAhead)) := by
  have hlift : ∀ {β γ : Type} (x : Outcome β) (f : β → Outcome γ),
      (Action.lift (x >>= f) : Action (PolicyState α τ) γ) =
        Action.lift x >>= fun b => Action.lift (f b) := by
    intro β γ x f
    cases x with
    | error e => rfl
    | ok b => rfl
  simp only [policyBatch, scored, bind_assoc, pure_bind, hlift]

theorem run_policyBatch_eq_ok {batch : PolicyBatch α} :
    (policyBatch task algorithm request lookAhead weights).run s = (.ok batch, t) ↔
      ∃ x, (scored task request weights).run s = (.ok x, t) ∧
        algorithm.policyInputs x.trajectory x.values x.gamma lookAhead = .ok batch := by
  rw [policyBatch_eq, Action.run_bind_eq_ok]
  constructor
  · rintro ⟨x, u, hscored, hlift⟩
    obtain ⟨hinputs, rfl⟩ := Prod.ext_iff.mp hlift
    exact ⟨x, hscored, hinputs⟩
  · rintro ⟨x, hscored, hinputs⟩
    exact ⟨x, t, hscored, Prod.ext hinputs rfl⟩

theorem run_estimate_eq_ok {observations values : Tensor α 3} :
    (estimate weights observations).run s = (.ok values, t) ↔
      ∃ model, s.evaluation.load weights = .ok model ∧ model.output observations = .ok values ∧
        t = { s with evaluation := model } := by
  unfold estimate
  constructor
  · intro h
    obtain ⟨_, _, hget, h⟩ := Action.run_bind_eq_ok.mp h
    cases hget
    obtain ⟨model, hmodel, h⟩ := Action.run_lift_bind_eq_ok.mp h
    obtain ⟨values', hvalues, h⟩ := Action.run_lift_bind_eq_ok.mp h
    cases h
    exact ⟨model, hmodel, hvalues, rfl⟩
  · rintro ⟨model, hmodel, hvalues, rfl⟩
    refine Action.run_bind_eq_ok.mpr ⟨s, s, rfl, Action.run_lift_bind_eq_ok.mpr ⟨model, hmodel, ?_⟩⟩
    exact Action.run_lift_bind_eq_ok.mpr ⟨values, hvalues, rfl⟩

/-- A draw that reaches the algorithm: its trajectory is the task's answer, and its estimates come
from a model that carries the given weights and is the evaluation copy from then on. -/
theorem run_scored_eq_ok {x : Scored α} :
    (scored task request weights).run s = (.ok x, t) ↔
      task.sample request s.task = (.ok x.trajectory, t.task) ∧
      x.trajectory.validate = .ok () ∧ x.gamma = task.gamma t.task ∧
      s.evaluation.load weights = .ok t.evaluation ∧
      ∃ values, t.evaluation.output x.trajectory.observations = .ok values ∧
        sized request values = .ok x.values := by
  unfold scored
  constructor
  · intro h
    obtain ⟨drawn, u, hdrawn, h⟩ := Action.run_bind_eq_ok.mp h
    obtain ⟨u', hsample, rfl⟩ := Action.run_on_eq_ok.mp hdrawn
    obtain ⟨_, _, hget, h⟩ := Action.run_bind_eq_ok.mp h
    cases hget
    obtain ⟨_, hvalid, h⟩ := Action.run_lift_bind_eq_ok.mp h
    obtain ⟨values, v, hvalues, h⟩ := Action.run_bind_eq_ok.mp h
    obtain ⟨model, hmodel, houtput, rfl⟩ := run_estimate_eq_ok.mp hvalues
    obtain ⟨values', hsized, h⟩ := Action.run_lift_bind_eq_ok.mp h
    cases h
    exact ⟨hsample, hvalid, rfl, hmodel, values, houtput, hsized⟩
  · obtain ⟨trajectory, values', gamma⟩ := x
    obtain ⟨u', model⟩ := t
    rintro ⟨hsample, hvalid, rfl, hmodel, values, houtput, hsized⟩
    refine Action.run_bind_eq_ok.mpr ⟨trajectory, { s with task := u' }, ?_, ?_⟩
    · exact Action.run_on_eq_ok.mpr ⟨u', hsample, rfl⟩
    · refine Action.run_bind_eq_ok.mpr ⟨_, _, rfl, Action.run_lift_bind_eq_ok.mpr ⟨(), hvalid, ?_⟩⟩
      refine Action.run_bind_eq_ok.mpr ⟨values, ⟨u', model⟩, ?_, ?_⟩
      · exact run_estimate_eq_ok.mpr ⟨model, hmodel, houtput, rfl⟩
      · exact Action.run_lift_bind_eq_ok.mpr ⟨values', hsized, rfl⟩

theorem sized_eq_ok {values : Tensor α 3} {flat : Tensor α 2}
    (h : sized request values = .ok flat) :
    flat.shape = [request.batchSize, request.sliceLength] := by
  simp only [sized, bind_eq_ok] at h
  obtain ⟨_, _, hreshape⟩ := h
  unfold Tensor.reshape at hreshape
  split at hreshape
  · cases hreshape
    rfl
  · cases hreshape

theorem exists_sized {values : Tensor α 3}
    (h : values.shape = [request.batchSize, request.sliceLength, 1]) :
    ∃ flat, sized request values = .ok flat := by
  have hvolume : Size.volume values.shape =
      Size.volume #v[request.batchSize, request.sliceLength].toList := by
    rw [h]
    simp [Size.volume]
  obtain ⟨flat, hflat, _⟩ := Tensor.exists_reshape hvolume
  exact ⟨flat, bind_eq_ok.mpr ⟨(), ensureShape_eq_ok.mpr h, hflat⟩⟩

/-- However a draw ends, the evaluation copy keeps its form. -/
theorem preserves_sameForm (model : Model α) :
    Action.Preserves (fun s : PolicyState α τ => s.evaluation.SameForm model)
      (policyBatch task algorithm request lookAhead weights) := by
  have hestimate : ∀ observations,
      Action.Preserves (fun s : PolicyState α τ => s.evaluation.SameForm model)
        (estimate weights observations) := by
    intro observations s hs
    simp only [estimate, Action.run_bind, Action.run_get, Action.run_lift]
    cases hload : s.evaluation.load weights with
    | error e => exact hs
    | ok loaded =>
        cases houtput : loaded.output observations with
        | error e => simpa only [Action.run_lift, houtput] using hs
        | ok values =>
            simp only [houtput]
            exact (Model.load_spec hload).2.2.trans hs
  refine Action.Preserves.bind (Action.preserves_on _ fun _ _ h => h) fun drawn => ?_
  exact Action.preserves_get.bind fun _ => (Action.preserves_lift _).bind fun _ =>
    (hestimate _).bind fun _ => Action.preserves_lift _

section

variable [Scalar α]

/-- Whatever the task answers, a batch that comes out has the requested sizes without the
look-ahead. -/
theorem hasSizes_of_policyBatch (halgorithm : algorithm.Standard) {batch : PolicyBatch α}
    (h : (policyBatch task algorithm request lookAhead weights).run s = (.ok batch, t)) :
    batch.HasSizes request.batchSize (request.sliceLength - lookAhead) := by
  obtain ⟨x, hscored, hinputs⟩ := run_policyBatch_eq_ok.mp h
  rw [halgorithm.policyInputs_eq] at hinputs
  obtain ⟨_, _, _, _, _, _, hsized⟩ := run_scored_eq_ok.mp hscored
  obtain ⟨hb, hlength⟩ := Tensor.axes_of_shape (sized_eq_ok hsized)
  have hsizes := Advantage.hasSizes_of_policyBatch hinputs
  rwa [hb, hlength] at hsizes

/-- An answer of the requested sizes gives a batch. -/
theorem exists_policyBatch (halgorithm : algorithm.Standard) {drawn : Trajectory α}
    (hbatch : 0 < request.batchSize) (hahead : lookAhead < request.sliceLength)
    (hsample : (task.sample request s.task).1 = .ok drawn)
    (hsizes : drawn.HasSizes request.batchSize request.sliceLength)
    (hobservations : 0 < drawn.observations.axis 2) (hactions : 0 < drawn.actions.axis 2)
    (hload : ∃ loaded, s.evaluation.load weights = .ok loaded)
    (hestimates : s.evaluation.Estimates (drawn.observations.axis 2)) :
    ∃ batch t, (policyBatch task algorithm request lookAhead weights).run s = (.ok batch, t) := by
  obtain ⟨loaded, hload⟩ := hload
  obtain ⟨hrows, hlength⟩ := Tensor.axes_of_leadingSizes hsizes.observations
  have hshape := drawn.observations.shape_eq_three
  rw [hrows, hlength] at hshape
  obtain ⟨values, houtput, hvalues⟩ := hestimates loaded drawn.observations _ _
    (Model.load_spec hload).2.2 hbatch (Nat.zero_lt_of_lt hahead) hshape
  obtain ⟨flat, hflat⟩ := exists_sized hvalues
  have hexists : ∃ batch, Advantage.policyBatch drawn flat
      (task.gamma (task.sample request s.task).2) lookAhead = .ok batch :=
    Advantage.exists_policyBatch hsizes (sized_eq_ok hflat) hbatch hahead hobservations hactions
  obtain ⟨batch, hinputs⟩ := hexists
  have hscored : (scored task request weights).run s =
      (.ok ⟨drawn, flat, task.gamma (task.sample request s.task).2⟩,
        ⟨(task.sample request s.task).2, loaded⟩) :=
    run_scored_eq_ok.mpr ⟨Prod.ext hsample rfl, Trajectory.validate_of_hasSizes hsizes, rfl, hload,
      values, houtput, hflat⟩
  refine ⟨batch, _, run_policyBatch_eq_ok.mpr ⟨_, hscored, ?_⟩⟩
  rw [halgorithm.policyInputs_eq]
  exact hinputs

end

end Source

end PolicyGradient
