import PolicyGradient.Proofs.Setup
import PolicyGradient.Proofs.Sharing

/-!
The sizes of policy batches.

Every policy batch of an agent holds the configured number of slices of the configured length,
whatever its task has answered, and a task that answers what it is asked for is never refused
(`Agent.sized_policy_batches`).
-/

namespace PolicyGradient

open Outcome
open Decimal (Shown)

variable {α ρ τ : Type}

theorem Config.validate_eq_ok {config : Config α ρ} {u : Unit} : config.validate = .ok u ↔
    ∃ length, config.sliceLength = some length ∧ 0 < length ∧ 0 < config.valueBatchSize ∧
      0 < config.policyBatchSize := by
  unfold validate requireSliceLength
  cases config.sliceLength with
  | none => simp [bind_eq_ok]
  | some length =>
      simp only [bind_eq_ok, Except.ok.injEq, exists_eq_left', Option.some.injEq]
      by_cases hlength : length = 0
      · simp [hlength]
      · by_cases hbatches : config.valueBatchSize = 0 ∨ config.policyBatchSize = 0
        · rw [if_neg hlength, if_pos hbatches]
          simp only [failWith_ne_ok, false_iff]
          omega
        · rw [if_neg hlength, if_neg hbatches]
          simp only [true_iff, pure, Except.pure]
          omega

theorem Source.policyRequest_eq_ok {config : Config α ρ} {onPolicy : Bool}
    {request : BatchRequest} : policyRequest config onPolicy = .ok request ↔
      ∃ length, config.sliceLength = some length ∧ length + config.lookAhead < Size.limit ∧
        request = ⟨config.policyBatchSize, .ofOnPolicy onPolicy, length + config.lookAhead,
          decide (1 < length + config.lookAhead)⟩ := by
  unfold policyRequest Config.policySliceLength Config.requireSliceLength
  cases config.sliceLength with
  | none => simp [bind_eq_ok]
  | some length =>
      simp only [bind_eq_ok, Except.ok.injEq, exists_eq_left', Option.some.injEq, Size.add_eq_ok]
      constructor
      · rintro ⟨_, ⟨hlimit, rfl⟩, hrequest⟩
        cases hrequest
        exact ⟨hlimit, rfl⟩
      · rintro ⟨hlimit, rfl⟩
        exact ⟨_, ⟨hlimit, rfl⟩, rfl⟩

namespace Perceptron

/-- The layers take observations of depth `m` to outputs of depth `n`; each has a weight and may
have a bias. -/
inductive Joined : Nat → List (List (List Nat)) → Nat → Prop
  | nil (m : Nat) : Joined m [] m
  | cons {m k n : Nat} {shapes : List (List Nat)} {layout : List (List (List Nat))}
      (hshapes : shapes = [[m, k]] ∨ ∃ bias, shapes = [[m, k], bias]) (hm : 0 < m) (hk : 0 < k)
      (h : Joined k layout n) : Joined m (shapes :: layout) n

theorem exists_ofWeights {layer : LayerWeights α} {m k : Nat}
    (h : layer.layout = [[m, k]] ∨ ∃ bias, layer.layout = [[m, k], bias]) :
    ∃ f, Affine.ofWeights layer = .ok f ∧ f.width = m ∧ f.out = k := by
  obtain ⟨params⟩ := layer
  rcases h with h | ⟨bias, h⟩
  · obtain ⟨⟨_, w⟩, rfl, rfl⟩ := List.map_eq_singleton_iff.mp h
    exact ⟨_, rfl, rfl, rfl⟩
  · obtain ⟨⟨_, w⟩, rest, rfl, rfl, hrest⟩ := List.map_eq_cons_iff.mp h
    obtain ⟨⟨_, c⟩, rfl, rfl⟩ := List.map_eq_singleton_iff.mp hrest
    exact ⟨_, rfl, rfl, rfl⟩

variable [Scalar α]

theorem exists_apply {f : Affine α} {x : Tensor α 3} {b l : Nat} (hx : x.shape = [b, l, f.width])
    (hl : 0 < l) (hwidth : 0 < f.width) (hout : 0 < f.out) :
    ∃ y, f.apply x = .ok y ∧ y.shape = [b, l, f.out] := by
  have haxes : x.axis 0 = b ∧ x.axis 1 = l ∧ x.axis 2 = f.width := by simp [Tensor.axis, hx]
  obtain ⟨hb, hl', hdepth⟩ := haxes
  refine ⟨_, if_pos ⟨hdepth, by rwa [hl'], hwidth, hout⟩, ?_⟩
  rw [Tensor.shape_tabulate, hb, hl']
  rfl

/-- Layers that fit together have an output for every timestep. -/
theorem exists_output {layers : List (LayerWeights α)} {x : Tensor α 3} {b l m n : Nat}
    (h : Joined m (layers.map LayerWeights.layout) n) (hx : x.shape = [b, l, m]) (hl : 0 < l) :
    ∃ y, output layers x = .ok y ∧ y.shape = [b, l, n] := by
  induction layers generalizing x m with
  | nil =>
      cases h
      exact ⟨x, rfl, hx⟩
  | cons layer layers ih =>
      cases h with
      | cons hshapes hm hk hrest =>
          obtain ⟨f, hf, rfl, rfl⟩ := exists_ofWeights hshapes
          obtain ⟨y, hy, hshape⟩ := exists_apply hx hl hm hk
          cases layers with
          | nil =>
              cases hrest
              exact ⟨y, by simp only [output, hf, hy, bind, Except.bind], hshape⟩
          | cons next layers =>
              obtain ⟨z, hz, hshape'⟩ := ih (x := y.map Scalar.tanh) hrest hshape
              exact ⟨z, by simp only [output, hf, hy, hz, bind, Except.bind], hshape'⟩

/-- A perceptron whose layers fit together has one output for every timestep. -/
theorem estimates {model : Model α} {depth : Nat}
    (harchitecture : model.architecture = architecture) (h : Joined depth model.layout 1) :
    model.Estimates depth := by
  intro other observations b length hform _ hlength hshape
  rw [← hform.layout_eq] at h
  obtain ⟨values, hvalues, hsizes⟩ := exists_output h hshape hlength
  refine ⟨values, ?_, hsizes⟩
  rw [Model.output, hform.1, harchitecture]
  exact hvalues

end Perceptron

namespace Agent

theorem run_drawPolicy_eq_ok {agent after : Agent α ρ τ} {batch : PolicyBatch α} :
    drawPolicy.run agent = (.ok batch, after) ↔
      ∃ s, (Source.policyBatch agent.task agent.algorithm agent.policyRequest
          agent.config.lookAhead agent.value.weights).run ⟨agent.taskState, agent.evaluation⟩ =
            (.ok batch, s) ∧
        after = { agent with taskState := s.task, evaluation := s.evaluation } := by
  have hrun : drawPolicy.run agent = (Action.on
      (fun agent : Agent α ρ τ => (⟨agent.taskState, agent.evaluation⟩ : Source.PolicyState α τ))
      (fun s agent => { agent with taskState := s.task, evaluation := s.evaluation })
      (Source.policyBatch agent.task agent.algorithm agent.policyRequest agent.config.lookAhead
        agent.value.weights)).run agent := rfl
  rw [hrun, Action.run_on_eq_ok]

variable [Scalar α] [Scalar ρ] [Shown α] [Shown ρ] [Narrows ρ α]

/-- A policy batch that an agent draws has the configured sizes, whatever the task has answered.
If the task answers with the sizes that it is asked for, and the models made for training and for
evaluation have one layout and an output for each timestep, then a batch is drawn. -/
theorem sized_policy_batches {task : Task α τ} {trained evaluation : Model α}
    {policyModel : Model α} {algorithm : Algorithm α} {config : Config α ρ}
    {site site' : Site α ρ τ} {first agent : Agent α ρ τ} {length : Nat}
    (hbuilt : (construct task (.ok trained) (.ok evaluation) policyModel algorithm config).run
      site = (.ok first, site'))
    (halgorithm : algorithm.Standard) (hlength : config.sliceLength = some length)
    (hasked : first.Asked agent) :
    (∀ batch after, drawPolicy.run agent = (.ok batch, after) →
      batch.HasSizes config.policyBatchSize length) ∧
    (trained.layout = evaluation.layout → (∃ shapes, trained.Shaped shapes) →
      ∀ drawn, (task.sample agent.policyRequest agent.taskState).1 = .ok drawn →
        drawn.HasSizes config.policyBatchSize (length + config.lookAhead) →
        0 < drawn.observations.axis 2 → 0 < drawn.actions.axis 2 →
        evaluation.Estimates (drawn.observations.axis 2) →
        ∃ batch after, drawPolicy.run agent = (.ok batch, after)) := by
  have hfirst := built_of_construct hbuilt
  have hsetup := hasked.sameSetup
  have htask : agent.task = task := hsetup.task.trans hfirst.task_eq
  have halgorithm' : agent.algorithm = algorithm := hsetup.algorithm.trans hfirst.algorithm_eq
  have hahead : agent.config.lookAhead = config.lookAhead := by
    rw [hsetup.config, hfirst.config_eq]
  have hrequest : agent.policyRequest.batchSize = config.policyBatchSize ∧
      agent.policyRequest.sliceLength = length + config.lookAhead := by
    obtain ⟨own, hown, _, hrequest⟩ := Source.policyRequest_eq_ok.mp hfirst.policyRequest
    rw [hlength] at hown
    cases hown
    rw [hsetup.policyRequest, hrequest]
    exact ⟨rfl, rfl⟩
  constructor
  · intro batch after hdraw
    obtain ⟨_, hrun, _⟩ := run_drawPolicy_eq_ok.mp hdraw
    have hsizes := Source.hasSizes_of_policyBatch (halgorithm' ▸ halgorithm) hrun
    rwa [hrequest.1, hrequest.2, hahead, Nat.add_sub_cancel] at hsizes
  · intro hlayout hshapes drawn hsample hsizes hobservations hactions hestimates
    obtain ⟨shapes, hshaped⟩ := hshapes
    obtain ⟨own, hown, hpositive, _, hbatch⟩ := Config.validate_eq_ok.mp hfirst.valid
    rw [hlength] at hown
    cases hown
    have hmodel : first.value.model = trained := (Except.ok.inj hfirst.value_model).symm
    have hevaluation : first.evaluation = evaluation := (Except.ok.inj hfirst.evaluation).symm
    have hvalue : first.value.Shaped shapes := by
      refine ⟨?_, ?_, ?_⟩
      · rw [hfirst.value_objective]
        exact Objective.value_ofModel
      · rw [hmodel]
        exact hshaped
      · rw [hfirst.value.unused.1]
        exact fun _ _ hfound => by cases hfound
    -- The current value weights go into the evaluation copy, since both models keep their forms.
    have hform := hsetup.evaluation
    rw [hevaluation] at hform
    have hload : ∃ loaded, agent.evaluation.load agent.value.weights = .ok loaded := by
      refine Model.exists_load_iff.mpr ⟨?_, agent.value.model.isFilled_weights⟩
      have hlayout' := (hasked.value hvalue).layout_eq
      rw [hmodel, hlayout, ← hform.layout_eq] at hlayout'
      exact hlayout'
    have hbatch' : 0 < agent.policyRequest.batchSize := by rwa [hrequest.1]
    have hhorizon : agent.config.lookAhead < agent.policyRequest.sliceLength := by
      rw [hrequest.2, hahead]
      omega
    rw [← hrequest.1, ← hrequest.2] at hsizes
    rw [← htask] at hsample
    rw [← halgorithm'] at halgorithm
    obtain ⟨batch, s, hrun⟩ := Source.exists_policyBatch (s := ⟨agent.taskState, agent.evaluation⟩)
      halgorithm hbatch' hhorizon hsample hsizes hobservations hactions hload
      (hestimates.of_sameForm hform)
    exact ⟨batch, _, run_drawPolicy_eq_ok.mpr ⟨s, hrun, rfl⟩⟩

namespace Line

theorem bent_estimates (v w : Float32) : (bent v w).Estimates 1 :=
  Perceptron.estimates rfl (.cons (.inl rfl) (by decide) (by decide)
    (.cons (.inl rfl) (by decide) (by decide) (.nil 1)))

/-- The sizes of what the task answers when a policy batch is drawn after a first epoch. -/
def answered : Action (Site Float32 Float Synthetic.State) (List (List Nat)) := do
  let first ← build
  let agent := ((perform .trainEpoch).run first).2
  let drawn ← Action.lift (numbers.sample agent.policyRequest agent.taskState).1
  return [drawn.observations.shape, drawn.actions.shape, drawn.rewards.shape, drawn.returns.shape,
    drawn.logProbs.shape, drawn.mask.shape]

/-- After an epoch that has failed at a policy batch, the agent of two perceptrons can draw one. -/
theorem sized_policy_batches_bent : ∃ first agent batch after,
    (build.run site).1 = .ok first ∧ agent = ((perform .trainEpoch).run first).2 ∧
      drawPolicy.run agent = (.ok batch, after) ∧ batch.HasSizes 1 1 := by
  have hanswered : (answered.run site).1 =
      .ok [[1, 1, 1], [1, 1, 1], [1, 1], [1, 1], [1, 1], [1, 1]] := by decide +kernel
  obtain ⟨first, here, hbuilt, hrest⟩ := Action.run_bind_eq_ok.mp (Prod.ext hanswered rfl)
  obtain ⟨drawn, hsample, hlast⟩ := Action.run_lift_bind_eq_ok.mp hrest
  have hshapes := Except.ok.inj (congrArg Prod.fst hlast)
  simp only [List.cons.injEq, and_true] at hshapes
  obtain ⟨hobs, hact, hrewards, hreturns, hlogProbs, hmask⟩ := hshapes
  obtain ⟨hsized, hdraws⟩ := sized_policy_batches hbuilt (.a2c _) rfl
    (.between (.call .trainEpoch .refl))
  have hdepth : drawn.observations.axis 2 = 1 := by simp [Tensor.axis, hobs]
  obtain ⟨batch, after, hdraw⟩ := hdraws rfl (bent_distinctIds 0.5 1).exists_shaped drawn hsample
    ⟨by simp [leadingSizes, Tensor.axis, hobs, config],
      by simp [leadingSizes, Tensor.axis, hact, config],
      hrewards, hreturns, hlogProbs, hmask⟩
    (by simp [Tensor.axis, hobs]) (by simp [Tensor.axis, hact])
    (hdepth ▸ bent_estimates 0.5 1)
  exact ⟨first, _, batch, after, congrArg Prod.fst hbuilt, rfl, hdraw, hsized batch after hdraw⟩

end Line

end Agent

end PolicyGradient
