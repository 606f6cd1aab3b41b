import PolicyGradient.Proofs.Copy

/-!
Copies that fail.

All layouts are checked before anything is written, but not whether the blocks of a source are
filled.  `Atomic` holds of a copy that ends with an answer and, where it fails, leaves the
destination as it was: all copies between learners are atomic (`atomic_of_learners`), and others
depend on what is filled of the source.
-/

namespace PolicyGradient.Copy

open Outcome
open Decimal (Shown)

variable {α ρ ρ' β σ κ : Type} [Holder κ α] [Scalar α]

section

variable {start stop : Nat} {slots : Bool} {source : κ} {destination : Learner α ρ β}

theorem exists_weights_of_prepare {prepared : ModelWeights α × Option (OptimizerState α)}
    (h : prepare start stop slots source destination = .ok prepared) :
    ∃ given, Holder.weights source = .ok given := by
  unfold prepare at h
  split at h
  · cases h
  · obtain ⟨given, hgiven, _⟩ := bind_eq_ok.mp h
    exact ⟨given, hgiven⟩

/-- What is filled of a prepared copy is what the source has filled in the range. -/
theorem filled_of_prepare {given weights : ModelWeights α} {state : Option (OptimizerState α)}
    (hlimit : stop < Size.limit) (hsound : destination.Sound)
    (hgiven : Holder.weights source = .ok given)
    (h : prepare start stop slots source destination = .ok (weights, state)) :
    (weights.IsFilled ↔ Layers.FilledRange start stop given.layers) ∧
      (slots = false → state = none) ∧
      (slots = true → ∃ shown new, Holder.optimizerState source = .ok shown ∧ state = some new ∧
        ((∀ slots ∈ new.modelSlots, slots.IsFilled) ↔
          Layers.FilledRange start stop shown.modelSlots)) := by
  obtain ⟨⟨_, _, _, _, hweights⟩, hstate⟩ := (prepare_eq_ok hlimit hgiven rfl).mp h
  refine ⟨?_, ?_, ?_⟩
  · rw [hweights]
    exact Layers.filled_overlay_iff (Model.isFilled_weights destination.model)
  · rintro rfl
    exact (Except.ok.inj hstate).symm
  · rintro rfl
    obtain ⟨shown, hshown, _, hslots, _, _, _, _, hnew⟩ :=
      (prepareState_eq_ok hlimit rfl).mp hstate
    obtain ⟨_, _, hfilled⟩ := Adam.fits_iff.mp (Adam.fits_state hsound.moments)
    refine ⟨shown, _, hshown, hnew, ?_⟩
    rw [(OptimizerState.modelSlots_overlay start stop shown hslots).2]
    exact Layers.filled_overlay_iff hfilled

end

/-- A copy ends with an answer, and where it fails the destination shows the weights, the optimizer
state and the step that it showed before. -/
def Atomic (start stop : Nat) (slots : Bool) (source : κ) (destination : Learner α ρ β)
    (journal : Journal α ρ') : Prop :=
  let copied := (layers start stop slots source).run (destination, journal)
  copied.1.Answers ∧ (copied.1 ≠ .ok () →
    copied.2.1.weights = destination.weights ∧
      copied.2.1.optimizerState = destination.optimizerState ∧
      copied.2.1.step = destination.step)

section

variable {start stop : Nat} {slots : Bool} {source : κ} {destination : Learner α ρ β}
variable {journal : Journal α ρ'}

theorem atomic_iff_of_run {outcome : Outcome Unit} {last : Learner α ρ β}
    (h : (write start stop slots source).run destination = (outcome, last)) :
    Atomic start stop slots source destination journal ↔ outcome.Answers ∧ (outcome ≠ .ok () →
      last.weights = destination.weights ∧ last.optimizerState = destination.optimizerState ∧
        last.step = destination.step) := by
  obtain ⟨houtcome, hlast⟩ := run_layers start stop slots source destination journal
  rw [h] at houtcome hlast
  simp only [Atomic, houtcome, hlast]

/-- A prepared copy is atomic if what has been prepared is filled, or refused without a trace. -/
theorem atomic_iff_of_prepare {given weights : ModelWeights α} {state : Option (OptimizerState α)}
    (hlimit : stop < Size.limit) (hsound : destination.Sound)
    (hgiven : Holder.weights source = .ok given)
    (h : prepare start stop slots source destination = .ok (weights, state)) :
    Atomic start stop slots source destination journal ↔
      weights.IsFilled ∧ ∀ new, state = some new →
        (∀ slots ∈ new.modelSlots, slots.IsFilled) ∨ weights = destination.weights := by
  rcases write_cases hlimit hsound hgiven h with
    ⟨hunfilled, hrun⟩ | ⟨hfilled, model, hmodel, hids, hform, hrest⟩
  · -- The weights break a precondition.
    rw [atomic_iff_of_run hrun]
    exact iff_of_false (fun hatomic => hatomic.1 _ rfl) fun hall => hunfilled hall.1
  · rcases hrest with ⟨new, rfl, hunfilled, cause, hrun⟩ | ⟨hslots, _, _, hrun⟩
    · -- The weights have been written when the slots are refused.
      rw [atomic_iff_of_run hrun]
      have hstate : destination.optimizer.state model = destination.optimizerState :=
        Adam.state_congr destination.optimizer hids hform.2
      constructor
      · rintro ⟨_, hsame⟩
        refine ⟨hfilled, fun _ _ => Or.inr ?_⟩
        exact hmodel.symm.trans (hsame fun hok => nomatch hok).1
      · rintro ⟨_, hall⟩
        have hwritten : weights = destination.weights :=
          (hall new rfl).resolve_left hunfilled
        exact ⟨answers_failWith cause, fun _ => ⟨hmodel.trans hwritten, hstate, rfl⟩⟩
    · rw [atomic_iff_of_run hrun]
      exact iff_of_true ⟨answers_ok (), fun hfails => absurd rfl hfails⟩
        ⟨hfilled, fun new hnew => Or.inl (hslots new hnew)⟩

theorem atomic_iff_of_sound (hlimit : stop < Size.limit) (hsound : destination.Sound)
    (hweights : (Holder.weights source).Answers)
    (hstate : (Holder.optimizerState source).Answers) :
    Atomic start stop slots source destination journal ↔
      ∀ given weights state, Holder.weights source = .ok given →
        prepare start stop slots source destination = .ok (weights, state) →
        Layers.FilledRange start stop given.layers ∧
          ∀ shown, slots = true → Holder.optimizerState source = .ok shown →
            Layers.FilledRange start stop shown.modelSlots ∨ weights = destination.weights := by
  cases h : prepare start stop slots source destination with
  | error e =>
      have hanswers : (prepare start stop slots source destination).Answers :=
        answers_prepare hlimit hweights hstate rfl rfl
      have hfails : Answers (.error e : Outcome Unit) := by
        intro fault hfault
        cases hfault
        exact hanswers fault h
      rw [atomic_iff_of_run (run_write_of_error h)]
      exact iff_of_true ⟨hfails, fun _ => ⟨rfl, rfl, rfl⟩⟩ fun _ _ _ _ hok => nomatch hok
  | ok prepared =>
      obtain ⟨weights, state⟩ := prepared
      obtain ⟨given, hgiven⟩ := exists_weights_of_prepare h
      obtain ⟨hfilled, hnone, hsome⟩ := filled_of_prepare hlimit hsound hgiven h
      rw [atomic_iff_of_prepare hlimit hsound hgiven h, hfilled]
      constructor
      · rintro ⟨hrange, hall⟩ _ _ _ hgiven' hok
        cases hok
        rw [hgiven] at hgiven'
        cases hgiven'
        refine ⟨hrange, fun shown hslots hshown => ?_⟩
        obtain ⟨shown', new, hshown', hnew, hiff⟩ := hsome hslots
        rw [hshown] at hshown'
        cases hshown'
        rw [← hiff]
        exact hall new hnew
      · intro hall
        obtain ⟨hrange, hslotsRange⟩ := hall given weights state hgiven rfl
        refine ⟨hrange, fun new hnew => ?_⟩
        cases slots with
        | false =>
            rw [hnone rfl] at hnew
            cases hnew
        | true =>
            obtain ⟨shown, new', hshown, hnew', hiff⟩ := hsome rfl
            rw [hnew] at hnew'
            cases hnew'
            rw [hiff]
            exact hslotsRange shown rfl hshown

/-- Copies between learners are atomic. -/
theorem atomic_of_learners {β' ρ'' : Type} {source : Learner α ρ'' β'} (hlimit : stop < Size.limit)
    (hsource : source.Sound) (hdestination : destination.Sound) :
    Atomic start stop slots source destination journal := by
  rw [atomic_iff_of_sound hlimit hdestination (answers_ok _) (answers_ok _)]
  rintro given weights state hgiven _
  cases hgiven
  refine ⟨Layers.filledRange_of_filled (Model.isFilled_weights source.model), ?_⟩
  rintro shown _ hshown
  cases hshown
  obtain ⟨_, _, _, hfilled⟩ := slots_of_learner hsource
  exact Or.inl (Layers.filledRange_of_filled hfilled)

end

section

variable [Scalar ρ] [Shown α] [Shown ρ] [Narrows ρ α]

/-- A copy ends with an answer and leaves the destination as it was where it fails, unless all
checks made in advance pass on weights that are not filled, or on slots that are not filled while
the weights differ from the destination's. -/
theorem atomic_iff {feed : Feed σ β} {bound : Nat} {source : κ} {destination : Training α ρ β σ}
    (hdestination : destination.Reached feed bound)
    (hweights : (Holder.weights source).Answers)
    (hstate : (Holder.optimizerState source).Answers) (start stop : Nat)
    (hlimit : stop < Size.limit) (slots : Bool) (journal : Journal α ρ') :
    Atomic start stop slots source destination.learner journal ↔
      ∀ given weights state, Holder.weights source = .ok given →
        prepare start stop slots source destination.learner = .ok (weights, state) →
        Layers.FilledRange start stop given.layers ∧
          ∀ shown, slots = true → Holder.optimizerState source = .ok shown →
            Layers.FilledRange start stop shown.modelSlots ∨
              weights = destination.learner.weights :=
  atomic_iff_of_sound hlimit hdestination.sound hweights hstate

end

namespace Line

/-- Weights and slots of a line with the given values. -/
def holding (values slotValues : Array Float32) : Snapshot Float32 where
  weights := ⟨[⟨[⟨[1, 1], values⟩]⟩]⟩
  state := ⟨[[⟨[⟨[1, 1], slotValues⟩, ⟨[1, 1], slotValues⟩]⟩]], 3⟩

/-- The journal of a run that has put out nothing yet. -/
def journal : Journal Float32 Float := .start .empty

/-- Slots that are not filled do no harm where the weights are the destination's own. -/
theorem atomic_iff_holding :
    Atomic 0 1 true (holding #[1] #[]) (fresh 0 1).learner journal := by
  refine (atomic_iff (Training.reached_ofLine 0 1 0.5 (.ofList [] false) 0) (answers_ok _)
    (answers_ok _) 0 1 (by decide) true journal).mpr ?_
  rintro given weights state hgiven hprepare
  cases hgiven
  refine ⟨Layers.filledRange_of_filled ?_, fun _ _ _ => Or.inr ?_⟩
  · intro layer hlayer
    cases List.mem_singleton.mp hlayer
    intro block hblock
    cases List.mem_singleton.mp hblock
    rfl
  · obtain ⟨⟨_, _, _, _, hweights⟩, _⟩ := (prepare_eq_ok (by decide) rfl rfl).mp hprepare
    exact hweights

/-- A copy of weights that are not filled breaks a precondition, and one of slots that are not
filled fails with the weights already written. -/
theorem not_atomic_holding :
    ¬ Atomic 0 1 false (holding #[] #[]) (fresh 0 1).learner journal ∧
      ¬ Atomic 0 1 true (holding #[2] #[]) (fresh 0 1).learner journal := by
  constructor
  · rintro ⟨hanswers, _⟩
    exact hanswers .incompatibleShapes rfl
  · rintro ⟨_, hsame⟩
    obtain ⟨hweights, _⟩ := hsame fun hok => nomatch hok
    have hvalues := congrArg (fun weights => weights.layers.map fun layer =>
      layer.params.map ParamBlock.values) hweights
    exact absurd hvalues (by decide +kernel)

end Line

end PolicyGradient.Copy
