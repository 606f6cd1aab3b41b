import PolicyGradient.Proofs.Resume

/-!
Weights and optimizer states as snapshots of a learner.

Each of the two can be shown and set.  What has been set is shown again and leaves the other one
alone, what is shown can be set, and since setting an optimizer state looks at the identities and
the layout of the model only (`Adam.setState_congr`), it does not matter which of the two is set
first.
`Training.lawful_of_reached` says so of every learner that training can lead to.
-/

namespace PolicyGradient

open Outcome
open Decimal (Shown)

variable {α ρ β σ : Type}

namespace Adam

/-- The records of a layer depend on the identities of its parameters. -/
theorem recordsOf_congr {params others : List (Param α)} (slots : LayerWeights α) (time : Nat)
    (h : others.map Param.id = params.map Param.id) :
    recordsOf others slots time = recordsOf params slots time := by
  have hzip : ∀ (row : List (Param α)) (moments : List (Moments α)),
      List.zipWith (fun param moments => (param.id, moments)) row moments =
        (row.map Param.id).zip moments := by
    intro row moments
    rw [List.zip, List.zipWith_map_left]
  rw [recordsOf, recordsOf]
  simp only [hzip, h]

theorem entriesOf_congr {layers others : List (List (Param α))} (group : List (LayerWeights α))
    (time : Nat) (h : others.map (List.map Param.id) = layers.map (List.map Param.id)) :
    entriesOf others group time = entriesOf layers group time := by
  induction group generalizing layers others with
  | nil => simp [entriesOf]
  | cons slots group ih =>
      cases others with
      | nil => rw [List.map_eq_nil_iff.mp h.symm]
      | cons row others =>
          obtain ⟨row', layers, rfl, hrow, hlayers⟩ := List.map_eq_cons_iff.mp h.symm
          rw [entriesOf_cons, entriesOf_cons, ih hlayers.symm,
            recordsOf_congr slots time hrow.symm]

/-- Setting a state looks at nothing of the model but its identities and its layout. -/
theorem setState_congr (adam : Adam α) {model other : Model α} (state : OptimizerState α)
    (hids : other.identities = model.identities) (hlayout : other.layout = model.layout) :
    adam.setState other state = adam.setState model state := by
  have hdepth : other.depth = model.depth := by
    rw [← Model.length_layout, hlayout, Model.length_layout]
  have hcheck : checkState other state = checkState model state := by
    rw [checkState, checkState, hdepth, hlayout]
  rw [setState, setState, hcheck]
  apply bind_congr
  intro _
  apply bind_congr
  intro group
  have hentries := entriesOf_congr group state.step hids
  rw [entriesOf, entriesOf] at hentries
  rw [hentries]

end Adam

namespace Learner

variable {learner : Learner α ρ β}

theorem weights_of_setWeights {weights : ModelWeights α} {learner' : Learner α ρ β}
    (h : learner.setWeights weights = .ok learner') : learner'.weights = weights := by
  obtain ⟨model, hmodel, rfl⟩ := of_setWeights h
  exact (Model.load_spec hmodel).1

/-- Other weights change nothing of what the optimizer shows. -/
theorem optimizerState_of_setWeights [Zero α] {weights : ModelWeights α}
    {learner' : Learner α ρ β} (h : learner.setWeights weights = .ok learner') :
    learner'.optimizerState = learner.optimizerState := by
  obtain ⟨model, hmodel, rfl⟩ := of_setWeights h
  obtain ⟨_, hids, hform⟩ := Model.load_spec hmodel
  exact Adam.state_congr learner.optimizer hids hform.2

theorem optimizerState_of_setOptimizerState [Zero α] {state : OptimizerState α}
    {learner' : Learner α ρ β} (hids : learner.model.DistinctIds)
    (h : learner.setOptimizerState state = .ok learner') : learner'.optimizerState = state := by
  obtain ⟨optimizer, hoptimizer, rfl⟩ := of_setOptimizerState h
  exact Adam.state_of_setState hids hoptimizer

/-- A learner takes its own weights. -/
theorem exists_setWeights_own (learner : Learner α ρ β) :
    ∃ learner', learner.setWeights learner.weights = .ok learner' := by
  obtain ⟨model, hmodel⟩ : ∃ model, learner.model.load learner.weights = .ok model := by
    apply Model.exists_load_iff.mpr
    exact ⟨rfl, learner.model.isFilled_weights⟩
  refine ⟨{ learner with model := model }, ?_⟩
  rw [setWeights, hmodel]
  rfl

/-- A learner whose moments fit its model takes the state that its optimizer shows. -/
theorem exists_setOptimizerState_own [Zero α] (h : learner.optimizer.Fits learner.model) :
    ∃ learner', learner.setOptimizerState learner.optimizerState = .ok learner' := by
  obtain ⟨optimizer, hoptimizer⟩ : ∃ optimizer,
      learner.optimizer.setState learner.model learner.optimizerState = .ok optimizer := by
    apply Adam.exists_setState_iff.mpr
    exact Adam.fits_state h
  refine ⟨{ learner with optimizer := optimizer }, ?_⟩
  rw [setOptimizerState, hoptimizer]
  rfl

/-- Weights and states that are taken are taken in either order, with the same effect. -/
theorem exists_set_both {weights : ModelWeights α} {state : OptimizerState α}
    {loaded restored : Learner α ρ β} (hweights : learner.setWeights weights = .ok loaded)
    (hstate : learner.setOptimizerState state = .ok restored) :
    ∃ both, loaded.setOptimizerState state = .ok both ∧ restored.setWeights weights = .ok both := by
  obtain ⟨model, hmodel, rfl⟩ := of_setWeights hweights
  obtain ⟨optimizer, hoptimizer, rfl⟩ := of_setOptimizerState hstate
  obtain ⟨_, hids, hform⟩ := Model.load_spec hmodel
  refine ⟨{ learner with model := model, optimizer := optimizer }, ?_, ?_⟩
  · rw [setOptimizerState, Adam.setState_congr _ state hids hform.layout_eq, hoptimizer]
    rfl
  · rw [setWeights, hmodel]
    rfl

/-- What is taken after the other kind has been set is taken before it, too. -/
theorem setOptimizerState_of_setWeights {weights : ModelWeights α} {state : OptimizerState α}
    {loaded both : Learner α ρ β} (hweights : learner.setWeights weights = .ok loaded)
    (hstate : loaded.setOptimizerState state = .ok both) :
    ∃ restored, learner.setOptimizerState state = .ok restored := by
  obtain ⟨model, hmodel, rfl⟩ := of_setWeights hweights
  obtain ⟨optimizer, hoptimizer, _⟩ := of_setOptimizerState hstate
  obtain ⟨_, hids, hform⟩ := Model.load_spec hmodel
  rw [Adam.setState_congr _ state hids hform.layout_eq] at hoptimizer
  refine ⟨{ learner with optimizer := optimizer }, ?_⟩
  rw [setOptimizerState, hoptimizer]
  rfl

theorem setWeights_of_setOptimizerState {weights : ModelWeights α} {state : OptimizerState α}
    {restored both : Learner α ρ β} (hstate : learner.setOptimizerState state = .ok restored)
    (hweights : restored.setWeights weights = .ok both) :
    ∃ loaded, learner.setWeights weights = .ok loaded := by
  obtain ⟨optimizer, _, rfl⟩ := of_setOptimizerState hstate
  obtain ⟨model, hmodel, _⟩ := of_setWeights hweights
  refine ⟨{ learner with model := model }, ?_⟩
  rw [setWeights, hmodel]
  rfl

end Learner

namespace Training

variable [Scalar α] [Scalar ρ] [Shown α] [Shown ρ] [Narrows ρ α]

/-- Set the weights of the learner. -/
abbrev setWeights (feed : Feed σ β) (weights : ModelWeights α) : Action (Training α ρ β σ) Unit :=
  perform feed (.setWeights weights)

/-- Set the state of the learner's optimizer. -/
abbrev setOptimizerState (feed : Feed σ β) (state : OptimizerState α) :
    Action (Training α ρ β σ) Unit :=
  perform feed (.setOptimizerState state)

section

variable {feed : Feed σ β} {t : Training α ρ β σ}

theorem run_setWeights (feed : Feed σ β) (weights : ModelWeights α) (t : Training α ρ β σ) :
    (setWeights feed weights).run t =
      match t.learner.setWeights weights with
      | .ok learner => (.ok (), { t with learner := learner })
      | .error e => (.error e, t) := by
  rw [setWeights, perform, Action.run_bind, Action.run_get]
  dsimp only
  rw [Action.run_lift_bind]
  cases t.learner.setWeights weights with
  | error e => rfl
  | ok learner => rfl

theorem run_setOptimizerState (feed : Feed σ β) (state : OptimizerState α)
    (t : Training α ρ β σ) :
    (setOptimizerState feed state).run t =
      match t.learner.setOptimizerState state with
      | .ok learner => (.ok (), { t with learner := learner })
      | .error e => (.error e, t) := by
  rw [setOptimizerState, perform, Action.run_bind, Action.run_get]
  dsimp only
  rw [Action.run_lift_bind]
  cases t.learner.setOptimizerState state with
  | error e => rfl
  | ok learner => rfl

theorem run_setWeights_eq_ok {weights : ModelWeights α} {after : Training α ρ β σ} :
    (setWeights feed weights).run t = (.ok (), after) ↔
      ∃ learner, t.learner.setWeights weights = .ok learner ∧
        after = { t with learner := learner } := by
  rw [run_setWeights]
  cases t.learner.setWeights weights with
  | error e => simp
  | ok learner => simp [eq_comm]

theorem run_setOptimizerState_eq_ok {state : OptimizerState α} {after : Training α ρ β σ} :
    (setOptimizerState feed state).run t = (.ok (), after) ↔
      ∃ learner, t.learner.setOptimizerState state = .ok learner ∧
        after = { t with learner := learner } := by
  rw [run_setOptimizerState]
  cases t.learner.setOptimizerState state with
  | error e => simp
  | ok learner => simp [eq_comm]

end

/-- Weights and optimizer state are snapshots of the learner that can be set independently of each
other. -/
structure Lawful (feed : Feed σ β) (t : Training α ρ β σ) : Prop where
  /-- Weights that are set are shown, and nothing else is changed. -/
  weights : ∀ weights after, (setWeights feed weights).run t = (.ok (), after) →
    after.learner.weights = weights ∧ after.learner.optimizerState = t.learner.optimizerState ∧
      after.learner.step = t.learner.step ∧ after.learner.epoch = t.learner.epoch
  /-- So is an optimizer state, with its step and all its groups. -/
  state : ∀ state after, (setOptimizerState feed state).run t = (.ok (), after) →
    after.learner.optimizerState = state ∧ after.learner.step = state.step ∧
      after.learner.weights = t.learner.weights ∧ after.learner.epoch = t.learner.epoch
  /-- The weights shown can be set, and then the same is shown. -/
  ownWeights : ∃ after, (setWeights feed t.learner.weights).run t = (.ok (), after) ∧
    after.learner.weights = t.learner.weights ∧
      after.learner.optimizerState = t.learner.optimizerState
  ownState : ∃ after, (setOptimizerState feed t.learner.optimizerState).run t = (.ok (), after) ∧
    after.learner.weights = t.learner.weights ∧
      after.learner.optimizerState = t.learner.optimizerState
  /-- What can be set can be set in a row, in either order and to the same effect. -/
  both : ∀ weights state, ((setWeights feed weights).run t).1 = .ok () →
    ((setOptimizerState feed state).run t).1 = .ok () →
      ∃ after, (do setWeights feed weights; setOptimizerState feed state : Action _ _).run t =
        (.ok (), after)
  commute : ∀ weights state after,
    (do setWeights feed weights; setOptimizerState feed state : Action _ _).run t =
        (.ok (), after) ↔
      (do setOptimizerState feed state; setWeights feed weights : Action _ _).run t =
        (.ok (), after)
  /-- What is refused changes nothing. -/
  refusedWeights : ∀ weights e after, (setWeights feed weights).run t = (.error e, after) →
    after = t
  refusedState : ∀ state e after, (setOptimizerState feed state).run t = (.error e, after) →
    after = t

/-- Setting one after the other, in either order. -/
theorem set_comm (feed : Feed σ β) (t : Training α ρ β σ) (weights : ModelWeights α)
    (state : OptimizerState α) (after : Training α ρ β σ) :
    (do setWeights feed weights; setOptimizerState feed state : Action _ _).run t =
        (.ok (), after) ↔
      (do setOptimizerState feed state; setWeights feed weights : Action _ _).run t =
        (.ok (), after) := by
  constructor
  · intro h
    obtain ⟨_, _, hweights, hstate⟩ := Action.run_bind_eq_ok.mp h
    obtain ⟨loaded, hloaded, rfl⟩ := run_setWeights_eq_ok.mp hweights
    obtain ⟨both, hboth, rfl⟩ := run_setOptimizerState_eq_ok.mp hstate
    obtain ⟨restored, hrestored⟩ := Learner.setOptimizerState_of_setWeights hloaded hboth
    obtain ⟨both', hboth', hlast⟩ := Learner.exists_set_both hloaded hrestored
    rw [hboth] at hboth'
    cases hboth'
    apply Action.run_bind_eq_ok.mpr
    exact ⟨(), _, run_setOptimizerState_eq_ok.mpr ⟨restored, hrestored, rfl⟩,
      run_setWeights_eq_ok.mpr ⟨both, hlast, rfl⟩⟩
  · intro h
    obtain ⟨_, _, hstate, hweights⟩ := Action.run_bind_eq_ok.mp h
    obtain ⟨restored, hrestored, rfl⟩ := run_setOptimizerState_eq_ok.mp hstate
    obtain ⟨both, hboth, rfl⟩ := run_setWeights_eq_ok.mp hweights
    obtain ⟨loaded, hloaded⟩ := Learner.setWeights_of_setOptimizerState hrestored hboth
    obtain ⟨both', hlast, hboth'⟩ := Learner.exists_set_both hloaded hrestored
    rw [hboth] at hboth'
    cases hboth'
    apply Action.run_bind_eq_ok.mpr
    exact ⟨(), _, run_setWeights_eq_ok.mpr ⟨loaded, hloaded, rfl⟩,
      run_setOptimizerState_eq_ok.mpr ⟨both, hlast, rfl⟩⟩

/-- What can be set can be set in a row. -/
theorem exists_set_in_row {feed : Feed σ β} {t : Training α ρ β σ} {weights : ModelWeights α}
    {state : OptimizerState α} (hweights : ((setWeights feed weights).run t).1 = .ok ())
    (hstate : ((setOptimizerState feed state).run t).1 = .ok ()) :
    ∃ after, (do setWeights feed weights; setOptimizerState feed state : Action _ _).run t =
      (.ok (), after) := by
  obtain ⟨loaded, hloaded, _⟩ := run_setWeights_eq_ok.mp (Prod.ext hweights rfl)
  obtain ⟨restored, hrestored, _⟩ := run_setOptimizerState_eq_ok.mp (Prod.ext hstate rfl)
  obtain ⟨both, hboth, _⟩ := Learner.exists_set_both hloaded hrestored
  refine ⟨{ t with learner := both }, Action.run_bind_eq_ok.mpr ?_⟩
  exact ⟨(), _, run_setWeights_eq_ok.mpr ⟨loaded, hloaded, rfl⟩,
    run_setOptimizerState_eq_ok.mpr ⟨both, hboth, rfl⟩⟩

/-- The weights and the optimizer state of any learner that training can lead to are snapshots that
can be set independently of each other. -/
theorem lawful_of_reached {feed : Feed σ β} {bound : Nat} {t : Training α ρ β σ}
    (h : t.Reached feed bound) : t.Lawful feed where
  weights := by
    intro weights after hset
    obtain ⟨learner, hlearner, rfl⟩ := run_setWeights_eq_ok.mp hset
    have hshown := Learner.weights_of_setWeights hlearner
    have hkept := Learner.optimizerState_of_setWeights hlearner
    obtain ⟨model, _, rfl⟩ := Learner.of_setWeights hlearner
    exact ⟨hshown, hkept, rfl, rfl⟩
  state := by
    intro state after hset
    obtain ⟨learner, hlearner, rfl⟩ := run_setOptimizerState_eq_ok.mp hset
    have hshown := Learner.optimizerState_of_setOptimizerState h.sound.ids hlearner
    obtain ⟨optimizer, _, rfl⟩ := Learner.of_setOptimizerState hlearner
    exact ⟨hshown, congrArg OptimizerState.step hshown, rfl, rfl⟩
  ownWeights := by
    obtain ⟨learner, hlearner⟩ := t.learner.exists_setWeights_own
    refine ⟨_, run_setWeights_eq_ok.mpr ⟨learner, hlearner, rfl⟩, ?_, ?_⟩
    · exact Learner.weights_of_setWeights hlearner
    · exact Learner.optimizerState_of_setWeights hlearner
  ownState := by
    obtain ⟨learner, hlearner⟩ := Learner.exists_setOptimizerState_own h.sound.moments
    have hshown := Learner.optimizerState_of_setOptimizerState h.sound.ids hlearner
    refine ⟨_, run_setOptimizerState_eq_ok.mpr ⟨learner, hlearner, rfl⟩, ?_, hshown⟩
    obtain ⟨optimizer, _, rfl⟩ := Learner.of_setOptimizerState hlearner
    rfl
  both _ _ hweights hstate := exists_set_in_row hweights hstate
  commute := set_comm feed t
  refusedWeights := by
    intro weights e after hset
    rw [run_setWeights] at hset
    split at hset
    · cases hset
    · exact (congrArg Prod.snd hset).symm
  refusedState := by
    intro state e after hset
    rw [run_setOptimizerState] at hset
    split at hset
    · cases hset
    · exact (congrArg Prod.snd hset).symm

namespace Line

/-- A trained learner of a line takes another weight and shows it, and stays as it is when it
refuses weights without layers. -/
theorem lawful_trained :
    (∃ after, (setWeights points ⟨[⟨[⟨[1, 1], #[2]⟩]⟩]⟩).run trained = (.ok (), after) ∧
      after.learner.weights = ⟨[⟨[⟨[1, 1], #[2]⟩]⟩]⟩ ∧
      after.learner.optimizerState = trained.learner.optimizerState) ∧
    ((setWeights points ⟨[]⟩).run trained).1.isOk = false ∧
    ((setWeights points ⟨[]⟩).run trained).2 = trained := by
  have hlawful := lawful_of_reached reached_trained
  have htaken : ((setWeights points ⟨[⟨[⟨[1, 1], #[2]⟩]⟩]⟩).run trained).1.isOk = true := by
    decide +kernel
  have hrefused : ((setWeights points ⟨[]⟩).run trained).1.isOk = false := by decide +kernel
  obtain ⟨_, hok⟩ := exists_of_isOk htaken
  obtain ⟨hshown, hkept, _⟩ := hlawful.weights _ _ (Prod.ext hok rfl)
  refine ⟨⟨_, Prod.ext hok rfl, hshown, hkept⟩, hrefused, ?_⟩
  cases hrun : ((setWeights points ⟨[]⟩).run trained).1 with
  | error e => exact hlawful.refusedWeights _ e _ (Prod.ext hrun rfl)
  | ok _ => simp [hrun, Except.isOk, Except.toBool] at hrefused

end Line

end Training

end PolicyGradient
