import PolicyGradient.Learner.Copy
import PolicyGradient.Proofs.Gradients
import PolicyGradient.Proofs.Sound

/-!
Copies of a range of layers.

A copy reads and checks all that it is going to write before it writes anything (`prepare_eq_ok`).
Between learners it succeeds exactly for a range of layers that both have in the same layout, and it
replaces exactly that range.
-/

namespace PolicyGradient

open Outcome
open Decimal (Shown)

variable {α ρ : Type}

namespace Layers

theorem sameLayouts_of_map_eq {start stop : Nat} {given own : List (LayerWeights α)} :
    SameLayouts start stop given own ↔ ∀ i, start ≤ i → i < stop →
      (given.map LayerWeights.layout)[i]? = (own.map LayerWeights.layout)[i]? := by
  simp only [SameLayouts, List.getElem?_map]

theorem layout_overlay {start stop : Nat} {given own : List (LayerWeights α)}
    (hrange : start ≤ stop) (hgiven : stop ≤ given.length) (hown : stop ≤ own.length)
    (hlayouts : SameLayouts start stop given own) :
    (overlay start stop given own).map LayerWeights.layout = own.map LayerWeights.layout := by
  rw [map_overlay]
  apply overlay_of_getElem?_eq hrange
  · rwa [List.length_map]
  · rwa [List.length_map]
  · exact sameLayouts_of_map_eq.mp hlayouts

/-- The layers from `start` to `stop` are filled. -/
def FilledRange (start stop : Nat) (layers : List (LayerWeights α)) : Prop :=
  ∀ layer ∈ layers.extract start stop, layer.IsFilled

theorem filledRange_of_filled {start stop : Nat} {layers : List (LayerWeights α)}
    (h : ∀ layer ∈ layers, layer.IsFilled) : FilledRange start stop layers := by
  intro layer hlayer
  rw [List.extract_eq_take_drop] at hlayer
  exact h layer (List.mem_of_mem_drop (List.mem_of_mem_take hlayer))

/-- Filled layers stay filled under exactly the ranges that are filled. -/
theorem filled_overlay_iff {start stop : Nat} {given own : List (LayerWeights α)}
    (hown : ∀ layer ∈ own, layer.IsFilled) :
    (∀ layer ∈ overlay start stop given own, layer.IsFilled) ↔ FilledRange start stop given := by
  constructor
  · intro h layer hlayer
    apply h layer
    exact List.mem_append_left _ (List.mem_append_right _ hlayer)
  · intro h layer hlayer
    rcases mem_overlay hlayer with hgiven | hmem
    · exact h layer hgiven
    · exact hown layer hmem

end Layers

namespace OptimizerState

theorem modelSlots_overlay (start stop : Nat) (given : OptimizerState α) {own : OptimizerState α}
    (hown : own.slots ≠ []) :
    (overlay start stop given own).slots ≠ [] ∧
      (overlay start stop given own).modelSlots =
        Layers.overlay start stop given.modelSlots own.modelSlots := by
  obtain ⟨slots, step⟩ := own
  cases slots with
  | nil => exact absurd rfl hown
  | cons group others => exact ⟨List.cons_ne_nil _ _, rfl⟩

end OptimizerState

namespace Learner

variable {β : Type} {learner : Learner α ρ β}

/-- Weights of the learner's layout go in, or they are not filled and break a precondition. -/
theorem setWeights_cases {weights : ModelWeights α}
    (hlayout : weights.layout = learner.model.layout) :
    (¬ weights.IsFilled ∧ learner.setWeights weights = .error (.fault .incompatibleShapes)) ∨
      weights.IsFilled ∧ ∃ model, learner.setWeights weights = .ok { learner with model := model } ∧
        model.weights = weights ∧ model.identities = learner.model.identities ∧
        model.SameForm learner.model := by
  unfold setWeights
  cases hload : learner.model.load weights with
  | error e =>
      refine Or.inl ⟨?_, ?_⟩
      · intro hfilled
        obtain ⟨loaded, hloaded⟩ := Model.exists_load_iff.mpr ⟨hlayout, hfilled⟩
        rw [hload] at hloaded
        cases hloaded
      · rw [Model.error_of_load hlayout hload]
        rfl
  | ok model =>
      refine Or.inr ⟨(Model.exists_load_iff.mp ⟨model, hload⟩).2, model, rfl, ?_⟩
      exact Model.load_spec hload

/-- A state with slots of the right shapes goes in, or it is not filled and is refused. -/
theorem setOptimizerState_cases [Scalar α] (learner : Learner α ρ β) {state : OptimizerState α}
    (hids : learner.model.DistinctIds) (hslots : state.slots ≠ [])
    (hlayout : state.modelSlots.map LayerWeights.layout =
      learner.model.layout.map (fun shapes => shapes ++ shapes)) :
    ((¬ ∀ slots ∈ state.modelSlots, slots.IsFilled) ∧
        ∃ cause, learner.setOptimizerState state = .error (.error cause)) ∨
      (∀ slots ∈ state.modelSlots, slots.IsFilled) ∧
        ∃ optimizer, learner.setOptimizerState state = .ok { learner with optimizer := optimizer } ∧
          optimizer.state learner.model = state := by
  unfold setOptimizerState
  cases hset : learner.optimizer.setState learner.model state with
  | error e =>
      refine Or.inl ⟨?_, ?_⟩
      · intro hfilled
        obtain ⟨optimizer, hok⟩ := Adam.exists_setState_iff.mpr
          (Adam.fits_iff.mpr ⟨hslots, hlayout, hfilled⟩)
        rw [hset] at hok
        cases hok
      · cases e with
        | error cause => exact ⟨cause, rfl⟩
        | fault fault => exact absurd hset (Adam.answers_setState hlayout fault)
  | ok optimizer =>
      have hfits := Adam.fits_iff.mp (Adam.exists_setState_iff.mp ⟨optimizer, hset⟩)
      exact Or.inr ⟨hfits.2.2, optimizer, rfl, Adam.state_of_setState hids hset⟩

end Learner

namespace ModelWeights

theorem copyRange_eq_ok {given own result : ModelWeights α} {start stop : Nat}
    (hlimit : stop < Size.limit) :
    (given.range start stop >>= own.replaceRange start) = .ok result ↔
      start ≤ stop ∧ stop ≤ given.length ∧ stop ≤ own.length ∧
        Layers.SameLayouts start stop given.layers own.layers ∧
        result = ⟨Layers.overlay start stop given.layers own.layers⟩ := by
  have hlayers : (given.range start stop >>= own.replaceRange start) =
      (Layers.range given.layers start stop >>= Layers.replaceRange own.layers start) >>=
        fun layers => pure ⟨layers⟩ := by
    rw [bind_assoc]
    rfl
  rw [hlayers, bind_eq_ok]
  constructor
  · rintro ⟨layers, hcopy, hresult⟩
    obtain ⟨hfirst, hgiven, hown, hlayouts, rfl⟩ := (Layers.copyRange_eq_ok hlimit).mp hcopy
    exact ⟨hfirst, hgiven, hown, hlayouts, (Except.ok.inj hresult).symm⟩
  · rintro ⟨hfirst, hgiven, hown, hlayouts, rfl⟩
    exact ⟨_, (Layers.copyRange_eq_ok hlimit).mpr ⟨hfirst, hgiven, hown, hlayouts, rfl⟩, rfl⟩

theorem answers_copyRange {given own : ModelWeights α} {start stop : Nat}
    (hlimit : stop < Size.limit) :
    (given.range start stop >>= own.replaceRange start).Answers :=
  (Layers.answers_range _ _ _).bind fun _ hblocks =>
    (Layers.answers_replaceRange (Layers.range_below hlimit hblocks)).bind fun _ _ => answers_ok _

end ModelWeights

namespace Copy

variable {κ κ' : Type} [Holder κ α] [Holder κ' α]

section

variable {start stop : Nat} {slots : Bool} {source : κ} {destination : κ'}

/-- The destination's optimizer state with the slots of the range taken over, if they are asked
for. -/
def prepareState (start stop : Nat) (slots : Bool) (source : κ) (destination : κ') :
    Outcome (Option (OptimizerState α)) :=
  if slots then do
    let shown ← Holder.optimizerState source
    let blocks ← shown.slotRange OptimizerState.modelGroup start stop
    let kept ← Holder.optimizerState destination
    return some (← kept.withSlotRange OptimizerState.modelGroup start blocks)
  else
    .ok none

theorem prepare_eq {given own : ModelWeights α} (hrange : start ≤ stop)
    (hgiven : Holder.weights source = .ok given) (hown : Holder.weights destination = .ok own) :
    prepare start stop slots source destination = do
      let weights ← given.range start stop >>= own.replaceRange start
      let state ← prepareState start stop slots source destination
      return (weights, state) := by
  rw [prepare, if_neg (Nat.not_lt.mpr hrange), hgiven, hown]
  cases slots with
  | true =>
      simp only [prepareState, if_true, bind_assoc, pure_bind]
      rfl
  | false =>
      simp only [prepareState, bind_assoc]
      rfl

theorem prepare_eq_ok {given own weights : ModelWeights α} {state : Option (OptimizerState α)}
    (hlimit : stop < Size.limit) (hgiven : Holder.weights source = .ok given)
    (hown : Holder.weights destination = .ok own) :
    prepare start stop slots source destination = .ok (weights, state) ↔
      (start ≤ stop ∧ stop ≤ given.length ∧ stop ≤ own.length ∧
        Layers.SameLayouts start stop given.layers own.layers ∧
        weights = ⟨Layers.overlay start stop given.layers own.layers⟩) ∧
      prepareState start stop slots source destination = .ok state := by
  by_cases hrange : start ≤ stop
  · rw [prepare_eq hrange hgiven hown, bind_eq_ok]
    simp only [ModelWeights.copyRange_eq_ok hlimit, bind_eq_ok]
    constructor
    · rintro ⟨_, hcopy, _, hstate, hpair⟩
      cases hpair
      exact ⟨hcopy, hstate⟩
    · rintro ⟨hcopy, hstate⟩
      exact ⟨weights, hcopy, state, hstate, rfl⟩
  · have hreversed : stop < start := Nat.lt_of_not_le hrange
    rw [prepare, if_pos hreversed, hown]
    constructor
    · intro h
      cases h
    · rintro ⟨⟨hfirst, _⟩, _⟩
      exact absurd hfirst hrange

theorem limit_of_prepare {given own : ModelWeights α}
    {prepared : ModelWeights α × Option (OptimizerState α)}
    (hgiven : Holder.weights source = .ok given) (hown : Holder.weights destination = .ok own)
    (h : prepare start stop slots source destination = .ok prepared) : stop < Size.limit := by
  by_cases hrange : start ≤ stop
  · rw [prepare_eq hrange hgiven hown] at h
    obtain ⟨_, hcopy, _⟩ := bind_eq_ok.mp h
    obtain ⟨blocks, hblocks, hreplace⟩ := bind_eq_ok.mp hcopy
    obtain ⟨layers, hlayers, _⟩ := bind_eq_ok.mp hreplace
    exact Layers.limit_of_copyRange (bind_eq_ok.mpr ⟨blocks, hblocks, hlayers⟩)
  · rw [prepare, if_pos (Nat.lt_of_not_le hrange), hown] at h
    cases h

theorem prepareState_eq_ok {kept : OptimizerState α} {state : Option (OptimizerState α)}
    (hlimit : stop < Size.limit) (hkept : Holder.optimizerState destination = .ok kept) :
    prepareState start stop true source destination = .ok state ↔
      ∃ shown, Holder.optimizerState source = .ok shown ∧
        shown.slots ≠ [] ∧ kept.slots ≠ [] ∧ start ≤ stop ∧ stop ≤ shown.modelSlots.length ∧
        stop ≤ kept.modelSlots.length ∧
        Layers.SameLayouts start stop shown.modelSlots kept.modelSlots ∧
        state = some (OptimizerState.overlay start stop shown kept) := by
  have hstate : prepareState start stop true source destination = do
      let shown ← Holder.optimizerState source
      let result ← shown.slotRange OptimizerState.modelGroup start stop >>=
        kept.withSlotRange OptimizerState.modelGroup start
      return some result := by
    rw [prepareState, if_pos rfl, hkept]
    simp only [bind_assoc]
    rfl
  rw [hstate, bind_eq_ok]
  simp only [bind_eq_ok (f := fun result => pure (some result)),
    OptimizerState.copySlots_eq_ok hlimit]
  constructor
  · rintro ⟨shown, hshown, _, ⟨hslots, hslots', hfirst, hlast, hlast', hlayouts, rfl⟩, hresult⟩
    exact ⟨shown, hshown, hslots, hslots', hfirst, hlast, hlast', hlayouts,
      (Except.ok.inj hresult).symm⟩
  · rintro ⟨shown, hshown, hslots, hslots', hfirst, hlast, hlast', hlayouts, rfl⟩
    exact ⟨shown, hshown, _, ⟨hslots, hslots', hfirst, hlast, hlast', hlayouts, rfl⟩, rfl⟩

/-- Preparing a copy ends with an answer if reading both holders does. -/
theorem answers_prepare {own : ModelWeights α} {kept : OptimizerState α}
    (hlimit : stop < Size.limit) (hweights : (Holder.weights source).Answers)
    (hstate : (Holder.optimizerState source).Answers)
    (hown : Holder.weights destination = .ok own)
    (hkept : Holder.optimizerState destination = .ok kept) :
    (prepare start stop slots source destination).Answers := by
  by_cases hrange : start ≤ stop
  · have hprepared : (prepareState start stop slots source destination).Answers := by
      unfold prepareState
      split
      · refine hstate.bind fun shown _ => ?_
        rw [hkept]
        have hslots : (shown.slotRange OptimizerState.modelGroup start stop >>=
            kept.withSlotRange OptimizerState.modelGroup start).Answers :=
          OptimizerState.answers_copySlots hlimit
        have hsome := hslots.bind fun result _ => answers_ok (some result)
        rwa [bind_assoc] at hsome
      · exact answers_ok _
    cases hgiven : Holder.weights source with
    | error e =>
        rw [prepare, if_neg (Nat.not_lt.mpr hrange), hgiven]
        rw [hgiven] at hweights
        refine hweights.bind fun _ hok => ?_
        cases hok
    | ok given =>
        rw [prepare_eq hrange hgiven hown]
        exact (ModelWeights.answers_copyRange hlimit).bind fun _ _ =>
          hprepared.bind fun _ _ => answers_ok _
  · have hreversed : stop < start := Nat.lt_of_not_le hrange
    rw [prepare, if_pos hreversed, hown]
    exact answers_failWith _

theorem run_write_of_error {e : Failure}
    (h : prepare start stop slots source destination = .error e) :
    (write start stop slots source).run destination = (.error e, destination) := by
  simp only [write, Action.run_bind, Action.run_get, Action.run_lift, h]

/-- What a copy writes once it is prepared: the weights, then the optimizer state. -/
theorem run_write {weights : ModelWeights α} {state : Option (OptimizerState α)}
    (h : prepare start stop slots source destination = .ok (weights, state)) :
    (write start stop slots source).run destination =
      match Holder.setWeights destination weights with
      | .error e => (.error e, destination)
      | .ok loaded =>
          match state with
          | none => (.ok (), loaded)
          | some state =>
              match Holder.setOptimizerState loaded state with
              | .error e => (.error e, loaded)
              | .ok restored => (.ok (), restored) := by
  simp only [write, Action.run_bind, Action.run_get, Action.run_lift, h]
  cases Holder.setWeights destination weights with
  | error e => rfl
  | ok loaded =>
      cases state with
      | none => rfl
      | some state =>
          simp only [Action.run_set, Action.run_bind, Action.run_get, Action.run_lift]
          cases Holder.setOptimizerState loaded state with
          | error e => rfl
          | ok restored => rfl

/-- Logging a copy changes neither its outcome nor its destination. -/
theorem run_layers (start stop : Nat) (slots : Bool) (source : κ) (destination : κ')
    (journal : Journal α ρ) :
    ((layers start stop slots source).run (destination, journal)).1 =
        ((write start stop slots source).run destination).1 ∧
      ((layers start stop slots source).run (destination, journal)).2.1 =
        ((write start stop slots source).run destination).2 := by
  simp only [layers, Action.run_bind, Action.run_on]
  rcases (write start stop slots source).run destination with ⟨_ | _, _⟩
  · exact ⟨rfl, rfl⟩
  · exact ⟨rfl, rfl⟩

end

section

variable {β : Type} [Scalar α] {start stop : Nat} {slots : Bool}
variable {source : κ} {destination : Learner α ρ β}

/-- The slots of a prepared state have the shapes that the destination needs. -/
theorem layout_of_prepareState {new : OptimizerState α} (hlimit : stop < Size.limit)
    (hsound : destination.Sound)
    (h : prepareState start stop slots source destination = .ok (some new)) :
    new.slots ≠ [] ∧ new.modelSlots.map LayerWeights.layout =
      destination.model.layout.map (fun shapes => shapes ++ shapes) := by
  cases slots with
  | false => cases h
  | true =>
      obtain ⟨shown, _, _, hslots, hfirst, hlast, hlast', hlayouts, hnew⟩ :=
        (prepareState_eq_ok hlimit rfl).mp h
      cases hnew
      obtain ⟨_, hkept, _⟩ := Adam.fits_iff.mp (Adam.fits_state hsound.moments)
      obtain ⟨hnonempty, hoverlay⟩ :=
        OptimizerState.modelSlots_overlay start stop shown hslots
      refine ⟨hnonempty, ?_⟩
      rw [hoverlay, Layers.layout_overlay hfirst hlast hlast' hlayouts]
      exact hkept

/-- The outcomes of a prepared copy into a learner: weights that are not filled break a
precondition, slots that are not filled are refused after the weights have been written, and
otherwise both are written. -/
theorem write_cases {given weights : ModelWeights α} {state : Option (OptimizerState α)}
    (hlimit : stop < Size.limit) (hsound : destination.Sound)
    (hgiven : Holder.weights source = .ok given)
    (h : prepare start stop slots source destination = .ok (weights, state)) :
    (¬ weights.IsFilled ∧ (write start stop slots source).run destination =
        (.error (.fault .incompatibleShapes), destination)) ∨
      weights.IsFilled ∧ ∃ model, model.weights = weights ∧
        model.identities = destination.model.identities ∧ model.SameForm destination.model ∧
        ((∃ new, state = some new ∧ (¬ ∀ slots ∈ new.modelSlots, slots.IsFilled) ∧
            ∃ cause, (write start stop slots source).run destination =
              (.error (.error cause), { destination with model := model })) ∨
          (∀ new, state = some new → ∀ slots ∈ new.modelSlots, slots.IsFilled) ∧
            ∃ optimizer, optimizer.state model = state.getD destination.optimizerState ∧
              (write start stop slots source).run destination =
                (.ok (), { destination with model := model, optimizer := optimizer })) := by
  obtain ⟨⟨hfirst, hlast, hlast', hlayouts, hweights⟩, hstate⟩ :=
    (prepare_eq_ok hlimit hgiven rfl).mp h
  have hlayout : weights.layout = destination.model.layout := by
    rw [hweights]
    exact Layers.layout_overlay hfirst hlast hlast' hlayouts
  rcases Learner.setWeights_cases hlayout with
    ⟨hunfilled, hset⟩ | ⟨hfilled, model, hset, hloaded, hids, hform⟩
  · have hset' : Holder.setWeights destination weights = .error (.fault .incompatibleShapes) :=
      hset
    refine Or.inl ⟨hunfilled, ?_⟩
    rw [run_write h, hset']
  · have hset' : Holder.setWeights destination weights =
        .ok { destination with model := model } := hset
    refine Or.inr ⟨hfilled, model, hloaded, hids, hform, ?_⟩
    rw [run_write h, hset']
    cases state with
    | none =>
        refine Or.inr ⟨(fun _ hnone => nomatch hnone), destination.optimizer, ?_, rfl⟩
        exact Adam.state_congr destination.optimizer hids hform.2
    | some new =>
        obtain ⟨hslots, hnew⟩ := layout_of_prepareState hlimit hsound hstate
        have hdistinct : model.DistinctIds := by
          rw [Model.DistinctIds, hids]
          exact hsound.ids
        have hshapes : new.modelSlots.map LayerWeights.layout =
            model.layout.map (fun shapes => shapes ++ shapes) := by
          rw [hnew, hform.layout_eq]
        rcases Learner.setOptimizerState_cases
            { destination with model := model } hdistinct hslots hshapes with
          ⟨hunfilled, cause, hstored⟩ | ⟨hslotsFilled, optimizer, hstored, hshown⟩
        · have hstored' : Holder.setOptimizerState { destination with model := model } new =
              .error (.error cause) := hstored
          refine Or.inl ⟨new, rfl, hunfilled, cause, ?_⟩
          simp only [hstored']
        · have hstored' : Holder.setOptimizerState { destination with model := model } new =
              .ok { destination with model := model, optimizer := optimizer } := hstored
          refine Or.inr ⟨?_, optimizer, hshown, ?_⟩
          · rintro _ ⟨⟩
            exact hslotsFilled
          · simp only [hstored']

end

section

variable {β β' ρ' : Type} [Scalar α] {start stop : Nat} {slots : Bool}
variable {source : Learner α ρ β} {destination : Learner α ρ' β'}

/-- A learner shows slots for each of its layers, with the layer's shapes twice, all filled. -/
theorem slots_of_learner (hsound : source.Sound) :
    source.optimizerState.slots ≠ [] ∧
      source.optimizerState.modelSlots.length = source.model.depth ∧
      source.optimizerState.modelSlots.map LayerWeights.layout =
        source.model.layout.map (fun shapes => shapes ++ shapes) ∧
      ∀ slots ∈ source.optimizerState.modelSlots, slots.IsFilled := by
  obtain ⟨hslots, hlayout, hfilled⟩ := Adam.fits_iff.mp (Adam.fits_state hsound.moments)
  have hlength := congrArg List.length hlayout
  rw [List.length_map, List.length_map, Model.length_layout] at hlength
  exact ⟨hslots, hlength, hlayout, hfilled⟩

/-- A copy with slots that succeeds has loaded the weights and set the optimizer state. -/
theorem of_run_write {weights : ModelWeights α} {new : OptimizerState α} {last : Learner α ρ' β'}
    (h : prepare start stop slots source destination = .ok (weights, some new))
    (hwrite : (write start stop slots source).run destination = (.ok (), last)) :
    ∃ model optimizer, destination.model.load weights = .ok model ∧
      destination.optimizer.setState model new = .ok optimizer ∧
      last = { destination with model := model, optimizer := optimizer } := by
  rw [run_write h] at hwrite
  cases hset : Holder.setWeights destination weights with
  | error e =>
      rw [hset] at hwrite
      cases hwrite
  | ok loaded =>
      simp only [hset] at hwrite
      obtain ⟨model, hmodel, rfl⟩ := Learner.of_setWeights hset
      cases hstore : Holder.setOptimizerState { destination with model := model } new with
      | error e =>
          rw [hstore] at hwrite
          cases hwrite
      | ok restored =>
          rw [hstore] at hwrite
          cases hwrite
          obtain ⟨optimizer, hoptimizer, rfl⟩ := Learner.of_setOptimizerState hstore
          exact ⟨model, optimizer, hmodel, hoptimizer, rfl⟩

/-- What a copy with slots that succeeds leaves in a learner. -/
theorem of_run_layers {journal journal' : Journal α ρ} {last : Learner α ρ' β'}
    (hids : destination.model.DistinctIds)
    (h : (layers start stop true source).run (destination, journal) = (.ok (), (last, journal'))) :
    last = { destination with model := last.model, optimizer := last.optimizer } ∧
      start ≤ stop ∧
      (stop ≤ source.weights.length ∧ stop ≤ destination.weights.length ∧
        last.weights.layers =
          Layers.overlay start stop source.weights.layers destination.weights.layers) ∧
      (stop ≤ source.optimizerState.modelSlots.length ∧
        stop ≤ destination.optimizerState.modelSlots.length ∧
        last.optimizerState.modelSlots = Layers.overlay start stop
          source.optimizerState.modelSlots destination.optimizerState.modelSlots) ∧
      last.step = destination.step := by
  obtain ⟨houtcome, hlast⟩ := run_layers start stop true source destination journal
  rw [h] at houtcome hlast
  have hwrite : (write start stop true source).run destination = (.ok (), last) :=
    Prod.ext houtcome.symm hlast.symm
  cases hprepare : prepare start stop true source destination with
  | error e =>
      rw [run_write_of_error hprepare] at hwrite
      cases hwrite
  | ok prepared =>
      obtain ⟨weights, state⟩ := prepared
      have hgiven : Holder.weights source = .ok source.weights := rfl
      have hown : Holder.weights destination = .ok destination.weights := rfl
      have hlimit := limit_of_prepare hgiven hown hprepare
      obtain ⟨⟨hfirst, hstop, hstop', _, hweights⟩, hstate⟩ :=
        (prepare_eq_ok hlimit hgiven hown).mp hprepare
      obtain ⟨shown, hshown, _, hslots, _, hslotStop, hslotStop', _, rfl⟩ :=
        (prepareState_eq_ok hlimit rfl).mp hstate
      cases hshown
      obtain ⟨model, optimizer, hmodel, hoptimizer, rfl⟩ := of_run_write hprepare hwrite
      obtain ⟨hloaded, hsame, _⟩ := Model.load_spec hmodel
      have hdistinct : model.DistinctIds := by
        rw [Model.DistinctIds, hsame]
        exact hids
      have hshown := Adam.state_of_setState hdistinct hoptimizer
      refine ⟨rfl, hfirst, ⟨hstop, hstop', ?_⟩, ⟨hslotStop, hslotStop', ?_⟩, ?_⟩
      · exact congrArg ModelWeights.layers (hloaded.trans hweights)
      · rw [Learner.optimizerState, hshown]
        exact (OptimizerState.modelSlots_overlay start stop _ hslots).2
      · exact congrArg OptimizerState.step hshown

/-- Between learners the slots raise no further condition. -/
theorem prepare_of_learners (start : Nat) (slots : Bool) (hlimit : stop < Size.limit)
    (hsource : source.Sound) (hdestination : destination.Sound) (weights : ModelWeights α)
    (state : Option (OptimizerState α)) :
    prepare start stop slots source destination = .ok (weights, state) ↔
      (start ≤ stop ∧ stop ≤ source.model.depth ∧ stop ≤ destination.model.depth ∧
        ∀ i, start ≤ i → i < stop → source.model.layout[i]? = destination.model.layout[i]?) ∧
      weights = ⟨Layers.overlay start stop source.weights.layers destination.weights.layers⟩ ∧
      state = if slots then some (OptimizerState.overlay start stop source.optimizerState
        destination.optimizerState) else none := by
  have hdepth : ∀ model : Model α, model.weights.length = model.depth := by
    intro model
    exact List.length_map _
  have hlayouts : Layers.SameLayouts start stop source.weights.layers
      destination.weights.layers ↔ ∀ i, start ≤ i → i < stop →
        source.model.layout[i]? = destination.model.layout[i]? :=
    Layers.sameLayouts_of_map_eq
  obtain ⟨hslots, hlength, hlayout, _⟩ := slots_of_learner hsource
  obtain ⟨hslots', hlength', hlayout', _⟩ := slots_of_learner hdestination
  have hgiven : Holder.weights source = .ok source.weights := rfl
  have hown : Holder.weights destination = .ok destination.weights := rfl
  have hkept : Holder.optimizerState destination = .ok destination.optimizerState := rfl
  rw [prepare_eq_ok hlimit hgiven hown,
    hlayouts, Learner.weights, Learner.weights, hdepth, hdepth]
  cases slots with
  | false =>
      simp only [prepareState, Bool.false_eq_true, if_false, Except.ok.injEq]
      tauto
  | true =>
      rw [prepareState_eq_ok hlimit hkept, if_pos rfl]
      have hsame : (∀ i, start ≤ i → i < stop →
          source.model.layout[i]? = destination.model.layout[i]?) →
          Layers.SameLayouts start stop source.optimizerState.modelSlots
            destination.optimizerState.modelSlots := by
        intro h
        rw [Layers.sameLayouts_of_map_eq, hlayout, hlayout']
        intro i hfirst hlast
        rw [List.getElem?_map, List.getElem?_map, h i hfirst hlast]
      constructor
      · rintro ⟨⟨hfirst, hlast, hlast', hmodel, hweights⟩, _, hshown, _, _, _, _, _, _, hstate⟩
        cases hshown
        exact ⟨⟨hfirst, hlast, hlast', hmodel⟩, hweights, hstate⟩
      · rintro ⟨⟨hfirst, hlast, hlast', hmodel⟩, hweights, hstate⟩
        exact ⟨⟨hfirst, hlast, hlast', hmodel, hweights⟩, _, rfl, hslots, hslots', hfirst,
          by rwa [hlength], by rwa [hlength'], hsame hmodel, hstate⟩

/-- What has been prepared between learners is filled. -/
theorem filled_of_learners (start stop : Nat) (hsource : source.Sound)
    (hdestination : destination.Sound) :
    ModelWeights.IsFilled
        ⟨Layers.overlay start stop source.weights.layers destination.weights.layers⟩ ∧
      ∀ slots ∈ (OptimizerState.overlay start stop source.optimizerState
        destination.optimizerState).modelSlots, slots.IsFilled := by
  obtain ⟨_, _, _, hfilled⟩ := slots_of_learner hsource
  obtain ⟨hslots', _, _, hfilled'⟩ := slots_of_learner hdestination
  constructor
  · apply (Layers.filled_overlay_iff (Model.isFilled_weights _)).mpr
    exact Layers.filledRange_of_filled (Model.isFilled_weights _)
  · rw [(OptimizerState.modelSlots_overlay _ _ _ hslots').2]
    apply (Layers.filled_overlay_iff hfilled').mpr
    exact Layers.filledRange_of_filled hfilled

/-- What has been prepared between learners is written. -/
theorem write_of_learners {weights : ModelWeights α} {state : Option (OptimizerState α)}
    (hlimit : stop < Size.limit) (hsource : source.Sound) (hdestination : destination.Sound)
    (h : prepare start stop slots source destination = .ok (weights, state)) :
    ∃ model optimizer, (write start stop slots source).run destination =
        (.ok (), { destination with model := model, optimizer := optimizer }) ∧
      model.weights = weights ∧
      optimizer.state model = state.getD destination.optimizerState := by
  obtain ⟨hfilled, hfilledSlots⟩ := filled_of_learners start stop hsource hdestination
  obtain ⟨_, hoverlay, hstate⟩ :=
    (prepare_of_learners start slots hlimit hsource hdestination weights state).mp h
  rcases write_cases hlimit hdestination rfl h with
    ⟨hunfilled, _⟩ |
      ⟨_, model, hmodel, _, _, ⟨_, hnew, hunfilled, _⟩ | ⟨_, optimizer, hshown, hrun⟩⟩
  · rw [hoverlay] at hunfilled
    exact absurd hfilled hunfilled
  · rw [hnew] at hstate
    cases slots with
    | false => cases hstate
    | true =>
        cases hstate
        exact absurd hfilledSlots hunfilled
  · exact ⟨model, optimizer, hrun, hmodel, hshown⟩

end

section

variable {β β' ρ' ρ'' σ σ' : Type} [Scalar α] [Scalar ρ] [Scalar ρ'] [Shown α] [Shown ρ]
variable [Shown ρ'] [Narrows ρ α] [Narrows ρ' α]

/-- A copy between learners in any states they can get into succeeds exactly for a range that both
models have and in which their layouts agree.  It replaces these layers of the weights and, if
asked to, of the slots of the model's layers; all else of the destination stays as it is. -/
theorem layers_of_learners {feed : Feed σ β} {feed' : Feed σ' β'} {bound bound' : Nat}
    {source : Training α ρ β σ} {destination : Training α ρ' β' σ'}
    (hsource : source.Reached feed bound) (hdestination : destination.Reached feed' bound')
    (start stop : Nat) (hlimit : stop < Size.limit) (slots : Bool) (journal : Journal α ρ'') :
    let copied := (layers start stop slots source.learner).run (destination.learner, journal)
    (copied.1 = .ok () ↔
      start ≤ stop ∧ stop ≤ source.learner.model.depth ∧
        stop ≤ destination.learner.model.depth ∧ ∀ i, start ≤ i → i < stop →
          source.learner.model.layout[i]? = destination.learner.model.layout[i]?) ∧
    (copied.1 = .ok () →
      copied.2.1.weights.layers = Layers.overlay start stop source.learner.weights.layers
        destination.learner.weights.layers ∧
      copied.2.1.optimizerState =
        (if slots then OptimizerState.overlay start stop source.learner.optimizerState
          destination.learner.optimizerState else destination.learner.optimizerState) ∧
      copied.2.1 = { destination.learner with
        model := copied.2.1.model, optimizer := copied.2.1.optimizer }) := by
  intro copied
  have hsound := hsource.sound
  have hsound' := hdestination.sound
  obtain ⟨houtcome, hlast⟩ := run_layers start stop slots source.learner destination.learner journal
  have hprepare := fun weights state =>
    prepare_of_learners start slots hlimit hsound hsound' weights state
  rw [show copied.1 = _ from houtcome, show copied.2.1 = _ from hlast]
  cases h : prepare start stop slots source.learner destination.learner with
  | error e =>
      have hfails : ¬ (start ≤ stop ∧ stop ≤ source.learner.model.depth ∧
          stop ≤ destination.learner.model.depth ∧ ∀ i, start ≤ i → i < stop →
            source.learner.model.layout[i]? = destination.learner.model.layout[i]?) := by
        intro hrange
        have hok := (hprepare _ _).mpr ⟨hrange, rfl, rfl⟩
        rw [h] at hok
        cases hok
      rw [run_write_of_error h]
      exact ⟨iff_of_false (by simp) hfails, fun hok => nomatch hok⟩
  | ok prepared =>
      obtain ⟨weights, state⟩ := prepared
      obtain ⟨hrange, hoverlay, hstate⟩ := (hprepare weights state).mp h
      obtain ⟨model, optimizer, hrun, hmodel, hshown⟩ := write_of_learners hlimit hsound hsound' h
      rw [hrun]
      refine ⟨iff_of_true rfl hrange, fun _ => ⟨?_, ?_, rfl⟩⟩
      · exact congrArg ModelWeights.layers (hmodel.trans hoverlay)
      · rw [Learner.optimizerState, hshown, hstate]
        cases slots with
        | false => rfl
        | true => rfl

end

namespace Line

/-- A learner of a line before its first call. -/
def fresh (id : Nat) (w : Float32) :
    Training Float32 Float (ValueBatch Float32) (Feed.Listed (ValueBatch Float32)) :=
  .ofLine id w 0.5

/-- A learner of two layers before its first call. -/
def untrained (id : Nat) (v w : Float32) :
    Training Float32 Float (ValueBatch Float32) (Feed.Listed (ValueBatch Float32)) :=
  .ofValueModel (Perceptron.bent id v w) 0.5

/-- A learner of two layers after one update. -/
def trained : Training Float32 Float (ValueBatch Float32) (Feed.Listed (ValueBatch Float32)) :=
  ((Training.perform Training.Line.points .trainStep).run (untrained 7 0.5 2)).2

theorem reached_untrained (id : Nat) (v w : Float32) :
    (untrained id v w).Reached Training.Line.points (Nat.pow 2 63) :=
  Training.reached_ofValueModel (Perceptron.bent_distinctIds id v w) (Perceptron.bent_fits id v w)
    0.5 _ _

theorem overlay_last {γ : Type} {given own : List γ} (hgiven : given.length = 2)
    (hown : own.length = 2) :
    Layers.overlay 1 2 given own = own.take 1 ++ given.drop 1 := by
  obtain ⟨a, b, rfl⟩ := List.length_eq_two.mp hgiven
  obtain ⟨c, d, rfl⟩ := List.length_eq_two.mp hown
  rfl

/-- What a copy of the last layer leaves of an untrained learner. -/
def copied : Outcome Unit × Learner Float32 Float (ValueBatch Float32) × Journal Float32 Float :=
  (layers 1 2 true trained.learner).run
    ((untrained 0 1 1).learner, (.start .empty : Journal Float32 Float))

/-- The last layer of a trained learner is copied to a new one with its slots.  The first layer and
the step stay those of the new one. -/
theorem layers_of_trained :
    copied.1 = .ok () ∧
      copied.2.1.weights.layers =
        ⟨[⟨[1, 1], #[1]⟩]⟩ :: trained.learner.weights.layers.drop 1 ∧
      copied.2.1.optimizerState.modelSlots =
        ⟨[⟨[1, 1], #[0]⟩, ⟨[1, 1], #[0]⟩]⟩ :: trained.learner.optimizerState.modelSlots.drop 1 ∧
      copied.2.1.step = 0 ∧ trained.learner.step = 1 := by
  have hlayout : trained.learner.model.layout = [[[1, 1]], [[1, 1]]] := by decide +kernel
  have hstep : trained.learner.step = 1 := by decide +kernel
  have hreached : trained.Reached Training.Line.points (Nat.pow 2 63) :=
    .call .trainStep (reached_untrained 7 0.5 2) (by rw [← trained, hstep]; decide)
  obtain ⟨hdomain, hframe⟩ := layers_of_learners hreached (reached_untrained 0 1 1) 1 2
    (by decide) true (.start .empty : Journal Float32 Float)
  have hdepth : trained.learner.model.depth = 2 := by
    rw [← Model.length_layout, hlayout]
    rfl
  have hok := hdomain.mpr ⟨by decide, Nat.le_of_eq hdepth.symm, by decide,
    fun i _ _ => by rw [hlayout]; rfl⟩
  obtain ⟨hweights, hstate, _⟩ := hframe hok
  have hlayers : trained.learner.weights.layers.length = 2 := by
    rw [← hdepth]
    exact List.length_map _
  have hslots : trained.learner.optimizerState.modelSlots.length = 2 := by
    rw [← hdepth]
    exact (slots_of_learner hreached.sound).2.1
  rw [overlay_last hlayers rfl] at hweights
  rw [if_pos rfl] at hstate
  refine ⟨hok, hweights, ?_, ?_, hstep⟩
  · rw [copied, hstate, (OptimizerState.modelSlots_overlay 1 2 _ (List.cons_ne_nil _ _)).2,
      overlay_last hslots rfl]
    rfl
  · exact congrArg OptimizerState.step hstate

end Line

end Copy

end PolicyGradient
