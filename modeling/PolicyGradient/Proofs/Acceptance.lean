import Mathlib.Data.List.Infix
import PolicyGradient.Model.Perceptron
import PolicyGradient.Proofs.Mismatch
import PolicyGradient.Proofs.Restore

/-!
Which optimizer states are accepted, and where their moments go.

`Restores` says how restoring a state ends, for any state whose sizes can be multiplied out: with
all moments in their places, or with an error about the first thing that does not fit.  In place
the optimizer is changed after all checks (`commitsTo_restore`), so an error leaves it as it was.
-/

namespace PolicyGradient

open Outcome

namespace Size

/-- The product of the first sizes of the shape, however many, is a size. -/
def Measurable (shape : List Nat) : Prop :=
  ∀ first ∈ shape.inits, volume first < limit

theorem foldlM_mul_of_inits {shape : List Nat} {n : Nat}
    (h : ∀ first ∈ shape.inits, n * volume first < limit) :
    shape.foldlM mul n = .ok (n * volume shape) := by
  induction shape generalizing n with
  | nil => simp [volume, pure, Except.pure]
  | cons d ds ih =>
      have hstep : mul n d = .ok (n * d) := by
        have hfirst := h [d] (by simp)
        rw [volume, volume, Nat.mul_one] at hfirst
        exact mul_eq_ok.mpr ⟨hfirst, rfl⟩
      rw [List.foldlM_cons, hstep, volume, ← Nat.mul_assoc]
      apply ih
      intro first hfirst
      have hlonger := h (d :: first) (by simpa using hfirst)
      rwa [volume, ← Nat.mul_assoc] at hlonger

theorem product_of_measurable {shape : List Nat} (h : Measurable shape) :
    product shape = .ok (volume shape) := by
  have hproduct := foldlM_mul_of_inits (n := 1) (by simpa [Measurable] using h)
  rwa [Nat.one_mul] at hproduct

end Size

/-- The sizes of all blocks of the state can be multiplied out. -/
def OptimizerState.Measurable {α : Type} (state : OptimizerState α) : Prop :=
  ∀ group ∈ state.slots, ∀ slots ∈ group, ∀ block ∈ slots.params, Size.Measurable block.shape

namespace Adam

variable {α : Type}

/-- Slots that do not fit are reported, unless the sizes of one cannot be multiplied out. -/
theorem checkSlots_of_unfit {first : Nat} {params : List (Param α)} {slots : LayerWeights α}
    {layers : List (List (Param α))} {group : List (LayerWeights α)}
    (h : ¬ SlotsFit params slots) :
    checkSlots first (layouts (params :: layers)) (slots :: group) =
      allFilled slots.params >>= fun _ => failWith (.shapeMismatch (.layerSlots first)
        ((Model.weightsOf params).layout ++ (Model.weightsOf params).layout).flatten
        slots.layout.flatten) := by
  rw [layouts, List.map_cons, checkSlots]
  refine bind_congr_of_ok fun filled hfilled => if_neg ?_
  rintro ⟨hlayout, rfl⟩
  exact h ⟨hlayout.symm, isFilled_of_allFilled hfilled⟩

/-- The first layer whose slots do not fit is reported, counted from `first`. -/
theorem checkSlots_of_first {layers : List (List (Param α))} {group : List (LayerWeights α)}
    {i : Nat} {params : List (Param α)} {slots : LayerWeights α}
    (h : FirstUnmatched SlotsFit layers group i params slots)
    (hsizes : ∀ block ∈ slots.params, Size.Measurable block.shape) (first : Nat) :
    checkSlots first (layouts layers) group =
      failWith (.shapeMismatch (.layerSlots (first + i))
        ((Model.weightsOf params).layout ++ (Model.weightsOf params).layout).flatten
        slots.layout.flatten) := by
  induction h generalizing first with
  | head hunfit =>
      obtain ⟨filled, hfilled, _⟩ :=
        allFilled_eq_ok fun block hblock => Size.product_of_measurable (hsizes block hblock)
      rw [checkSlots_of_unfit hunfit, hfilled]
      rfl
  | cons hfits _ ih => rw [checkSlots_cons hfits, ih hsizes, Nat.add_right_comm, Nat.add_assoc]

/-- The parameter at place `j` of layer `i`, and the two slots that are laid out for it. -/
def PlacedAt (layers : List (List (Param α))) (group : List (LayerWeights α)) (i j : Nat)
    (param : Param α) (first second : ParamBlock α) : Prop :=
  ∃ params slots, layers[i]? = some params ∧ group[i]? = some slots ∧ params[j]? = some param ∧
    slots.params[j]? = some first ∧ slots.params[params.length + j]? = some second

theorem mem_recordsOf_iff {params : List (Param α)} {slots : LayerWeights α} {time : Nat}
    (hfits : SlotsFit params slots) {entry : Nat × Moments α} :
    entry ∈ recordsOf params slots time ↔ ∃ j param first second, params[j]? = some param ∧
      slots.params[j]? = some first ∧ slots.params[params.length + j]? = some second ∧
      entry = (param.id, ⟨first, second, time⟩) := by
  have hhalf : slots.params.length / 2 = params.length := by
    have hlength := congrArg List.length hfits.1
    simp only [LayerWeights.layout, Model.weightsOf, List.length_append, List.length_map] at hlength
    omega
  rw [List.mem_iff_getElem?, recordsOf, hhalf]
  apply exists_congr
  intro j
  simp only [List.getElem?_zipWith_eq_some, List.getElem?_take, List.getElem?_drop,
    Option.ite_none_right_eq_some]
  constructor
  · rintro ⟨param, moments, hparam, ⟨first, second, ⟨_, hfirst⟩, hsecond, rfl⟩, rfl⟩
    exact ⟨param, first, second, hparam, hfirst, hsecond, rfl⟩
  · rintro ⟨param, first, second, hparam, hfirst, hsecond, rfl⟩
    have hj : j < params.length := (List.getElem?_eq_some_iff.mp hparam).1
    exact ⟨param, _, hparam, ⟨first, second, ⟨hj, hfirst⟩, hsecond, rfl⟩, rfl⟩

/-- Restoring inserts the two slots of every place under the identity of its parameter. -/
theorem mem_entriesOf_iff {layers : List (List (Param α))} {group : List (LayerWeights α)}
    {time : Nat} (hfits : List.Forall₂ SlotsFit layers group) {entry : Nat × Moments α} :
    entry ∈ entriesOf layers group time ↔ ∃ i j param first second,
      PlacedAt layers group i j param first second ∧
        entry = (param.id, ⟨first, second, time⟩) := by
  have hfit : ∀ {params slots}, (params, slots) ∈ layers.zip group → SlotsFit params slots :=
    (List.forall₂_iff_zip.mp hfits).2
  constructor
  · intro hentry
    obtain ⟨⟨params, slots⟩, hzip, hrecord⟩ := List.mem_flatMap.mp hentry
    obtain ⟨i, hi⟩ := List.mem_iff_getElem?.mp hzip
    obtain ⟨hparams, hslots⟩ := List.getElem?_zip_eq_some.mp hi
    obtain ⟨j, param, first, second, hparam, hfirst, hsecond, heq⟩ :=
      (mem_recordsOf_iff (hfit hzip)).mp hrecord
    exact ⟨i, j, param, first, second, ⟨params, slots, hparams, hslots, hparam, hfirst, hsecond⟩,
      heq⟩
  · rintro ⟨i, j, param, first, second, ⟨params, slots, hparams, hslots, hplace⟩, heq⟩
    have hzip : (params, slots) ∈ layers.zip group :=
      List.mem_iff_getElem?.mpr ⟨i, List.getElem?_zip_eq_some.mpr ⟨hparams, hslots⟩⟩
    apply List.mem_flatMap.mpr
    exact ⟨_, hzip, (mem_recordsOf_iff (hfit hzip)).mpr
      ⟨j, param, first, second, hplace.1, hplace.2.1, hplace.2.2, heq⟩⟩

theorem exists_block_of_layout {slots : LayerWeights α} (hfilled : slots.IsFilled) {k : Nat}
    {shape : List Nat} (h : slots.layout[k]? = some shape) :
    ∃ block, slots.params[k]? = some block ∧ block.Fits shape := by
  rw [LayerWeights.layout, List.getElem?_map, Option.map_eq_some_iff] at h
  obtain ⟨block, hblock, hshape⟩ := h
  exact ⟨block, hblock, hshape, hfilled block (List.mem_of_getElem? hblock)⟩

/-- Slots that fit have two blocks of the parameter's shape for every place. -/
theorem exists_placedAt {layers : List (List (Param α))} {group : List (LayerWeights α)}
    (hfits : List.Forall₂ SlotsFit layers group) {i j : Nat} {params : List (Param α)}
    {param : Param α} (hparams : layers[i]? = some params) (hparam : params[j]? = some param) :
    ∃ first second, PlacedAt layers group i j param first second ∧
      first.Fits param.block.shape ∧ second.Fits param.block.shape := by
  obtain ⟨slots, hslots, hlayout, hfilled⟩ := exists_getElem?_of_forall₂ hfits hparams
  have hlength : (Model.weightsOf params).layout.length = params.length := by
    simp [LayerWeights.layout, Model.weightsOf]
  have hshape : (Model.weightsOf params).layout[j]? = some param.block.shape := by
    simp [LayerWeights.layout, Model.weightsOf, hparam]
  have hj : j < (Model.weightsOf params).layout.length := (List.getElem?_eq_some_iff.mp hshape).1
  obtain ⟨first, hfirst, hfirstFits⟩ := exists_block_of_layout hfilled (k := j) (by
    rw [hlayout, List.getElem?_append_left hj, hshape])
  obtain ⟨second, hsecond, hsecondFits⟩ :=
    exists_block_of_layout hfilled (k := params.length + j) (by
      rw [hlayout, List.getElem?_append_right (by omega), hlength, Nat.add_sub_cancel_left, hshape])
  exact ⟨first, second, ⟨params, slots, hparams, hslots, hparam, hfirst, hsecond⟩, hfirstFits,
    hsecondFits⟩

/-- What has been inserted under an identity is found there, if only the last of several. -/
theorem Records.exists_find?_insertAll (records : Records α) {entries : List (Nat × Moments α)}
    {id : Nat} (h : id ∈ entries.map Prod.fst) :
    ∃ entry ∈ entries, entry.1 = id ∧
      (records.insertAll entries).find? id = some entry.2 := by
  induction entries generalizing records with
  | nil => simp at h
  | cons head entries ih =>
      by_cases hlater : id ∈ entries.map Prod.fst
      · obtain ⟨entry, hentry, hid, hfound⟩ := ih (records.insert head.1 head.2) hlater
        exact ⟨entry, List.mem_cons_of_mem head hentry, hid, hfound⟩
      · rw [List.map_cons, List.mem_cons] at h
        have hid : id = head.1 := h.resolve_right hlater
        refine ⟨head, List.mem_cons_self, hid.symm, ?_⟩
        show ((records.insert head.1 head.2).insertAll entries).find? id = some head.2
        rw [find?_insertAll_of_not_mem hlater, find?_insert, if_pos hid.symm]

/-- An optimizer that has taken a state over for a model, its slots being `group`. -/
structure Restored (adam : Adam α) (model : Model α) (group : List (LayerWeights α))
    (state : OptimizerState α) (restored : Adam α) : Prop where
  settings_eq : restored.settings = adam.settings
  step_eq : restored.step = state.step
  otherGroups_eq : restored.otherGroups = state.slots.drop 1
  /-- There are two moments of the right shape for every parameter. -/
  placed : ∀ i j params param, model.layers[i]? = some params → params[j]? = some param →
    ∃ first second, PlacedAt model.layers group i j param first second ∧
      first.Fits param.block.shape ∧ second.Fits param.block.shape
  /-- Every parameter has the moments that stand in the place of a parameter with its identity,
  timed by the state. -/
  found : ∀ i j param first second, PlacedAt model.layers group i j param first second →
    ∃ i' j' param' first' second', PlacedAt model.layers group i' j' param' first' second' ∧
      param'.id = param.id ∧
      restored.records.find? param.id = some ⟨first', second', state.step⟩
  /-- This is its own place if no other parameter has its identity. -/
  own : model.DistinctIds → ∀ i j param first second,
    PlacedAt model.layers group i j param first second →
      restored.records.find? param.id = some ⟨first, second, state.step⟩
  /-- No other parameter gets a moment. -/
  others : ∀ id ∉ model.identities.flatten,
    restored.records.find? id = adam.records.find? id

theorem restored_insertAll {model : Model α} {group : List (LayerWeights α)}
    {others : List (List (LayerWeights α))} {state : OptimizerState α}
    (hslots : state.slots = group :: others)
    (hfits : List.Forall₂ SlotsFit model.layers group) (adam : Adam α) :
    adam.Restored model group state
      { adam with
        records := adam.records.insertAll (entriesOf model.layers group state.step)
        step := state.step
        otherGroups := others } := by
  have hmem : ∀ {i j param first second}, PlacedAt model.layers group i j param first second →
      (param.id, ⟨first, second, state.step⟩) ∈ entriesOf model.layers group state.step :=
    fun hplaced => (mem_entriesOf_iff hfits).mpr ⟨_, _, _, _, _, hplaced, rfl⟩
  refine ⟨rfl, rfl, by rw [hslots]; rfl, fun i j params param => exists_placedAt hfits, ?_, ?_, ?_⟩
  · intro i j param first second hplaced
    obtain ⟨entry, hentry, hid, hfound⟩ := Records.exists_find?_insertAll adam.records
      (List.mem_map_of_mem (f := Prod.fst) (hmem hplaced))
    obtain ⟨i', j', param', first', second', hplaced', rfl⟩ := (mem_entriesOf_iff hfits).mp hentry
    exact ⟨i', j', param', first', second', hplaced', hid, hfound⟩
  · intro hids i j param first second hplaced
    exact find?_insertAll_entriesOf hids hfits _ _ _ (hmem hplaced)
  · intro id hid
    apply Records.find?_insertAll_of_not_mem
    rwa [map_fst_entriesOf hfits]

/-- Restore a state in place: check everything, and only then write. -/
def restore (model : Model α) (state : OptimizerState α) : Action (Adam α) Unit := do
  Action.lift (checkState model state)
  let group ← Action.lift (state.group OptimizerState.modelGroup)
  modify fun adam =>
    { adam with records := adam.records.insertAll (entriesOf model.layers group state.step) }
  modify fun adam => { adam with step := state.step }
  modify fun adam => { adam with otherGroups := state.slots.drop 1 }

/-- In place, a state is restored as a whole or not at all. -/
theorem commitsTo_restore (model : Model α) (state : OptimizerState α) (adam : Adam α) :
    (restore model state).CommitsTo adam (adam.setState model state) :=
  .lift_bind fun _ _ => .lift_bind fun _ _ => rfl

/-- How restoring a state ends. -/
structure Restores (adam : Adam α) (model : Model α) (state : OptimizerState α) : Prop where
  /-- States that fit are accepted, and no others. -/
  exists_iff : (∃ restored, adam.setState model state = .ok restored) ↔ state.Fits model
  restored : ∀ group restored, state.slots.head? = some group →
    adam.setState model state = .ok restored → adam.Restored model group state restored
  noGroup : state.slots.head? = none →
    adam.setState model state = failWith (.config (.noSlotGroup 0 OptimizerState.modelGroup))
  /-- Another number of layers is reported. -/
  count : ∀ group, state.slots.head? = some group → group.length ≠ model.depth →
    adam.setState model state =
      failWith (.shapeMismatch .slotLayers [model.depth] [group.length])
  /-- Otherwise the first layer whose slots do not fit is reported. -/
  layer : ∀ group, state.slots.head? = some group → group.length = model.depth →
    ¬ state.Fits model →
    ∃ i params slots, FirstUnmatched SlotsFit model.layers group i params slots ∧
      adam.setState model state = failWith (.shapeMismatch (.layerSlots i)
        ((Model.weightsOf params).layout ++ (Model.weightsOf params).layout).flatten
        slots.layout.flatten)
  /-- An error leaves the optimizer as it was. -/
  inPlace : (restore model state).CommitsTo adam (adam.setState model state)

theorem setState_of_checkState {adam : Adam α} {model : Model α} {state : OptimizerState α}
    {e : Failure} (h : checkState model state = .error e) :
    adam.setState model state = .error e := by
  rw [setState, h]
  rfl

theorem checkState_of_count {model : Model α} {group : List (LayerWeights α)}
    {others : List (List (LayerWeights α))} {step : Nat} (h : group.length ≠ model.depth) :
    checkState model ⟨group :: others, step⟩ =
      failWith (.shapeMismatch .slotLayers [model.depth] [group.length]) := by
  show (ensureShape .slotLayers [group.length] [model.depth] >>= _) = _
  rw [ensureShape, if_neg fun hcount => h (List.cons.inj hcount).1]
  rfl

theorem checkState_of_first {model : Model α} {group : List (LayerWeights α)}
    {others : List (List (LayerWeights α))} {step i : Nat} {params : List (Param α)}
    {slots : LayerWeights α} (hcount : group.length = model.depth)
    (h : FirstUnmatched SlotsFit model.layers group i params slots)
    (hsizes : ∀ block ∈ slots.params, Size.Measurable block.shape) :
    checkState model ⟨group :: others, step⟩ = failWith (.shapeMismatch (.layerSlots i)
      ((Model.weightsOf params).layout ++ (Model.weightsOf params).layout).flatten
      slots.layout.flatten) := by
  have hslots := checkSlots_of_first h hsizes 0
  rw [Nat.zero_add] at hslots
  show (ensureShape .slotLayers [group.length] [model.depth] >>= _) = _
  rw [ensureShape, if_pos (by rw [hcount]), layout_eq_layouts]
  exact hslots

/-- A state whose sizes can be multiplied out is restored if it fits, and otherwise reported. -/
theorem restores_of_measurable {state : OptimizerState α} (hsizes : state.Measurable)
    (adam : Adam α) (model : Model α) : adam.Restores model state := by
  obtain ⟨slots, step⟩ := state
  cases slots with
  | nil =>
      refine ⟨exists_setState_iff, ?_, fun _ => rfl, ?_, ?_, commitsTo_restore _ _ _⟩
      all_goals
        intro group
        nofun
  | cons group others =>
      refine ⟨exists_setState_iff, ?_, nofun, ?_, ?_, commitsTo_restore _ _ _⟩
      · rintro _ restored ⟨⟩ hrestored
        obtain ⟨_, _, hslots, hfits, rfl⟩ := setState_eq_ok.mp hrestored
        cases hslots
        exact restored_insertAll rfl hfits adam
      · rintro _ ⟨⟩ hcount
        exact setState_of_checkState (checkState_of_count hcount)
      · rintro _ ⟨⟩ hcount hunfit
        rcases forall₂_or_first hcount.symm with hall | ⟨i, params, slots, hfirst⟩
        · exact absurd ⟨group, others, rfl, hall⟩ hunfit
        · have hslots := hsizes group List.mem_cons_self slots hfirst.mem_right
          exact ⟨i, params, slots, hfirst,
            setState_of_checkState (checkState_of_first hcount hfirst hslots)⟩

namespace Shelf

/-- A model with a weight and a bias. -/
def model : Model Float32 where
  architecture := Perceptron.architecture
  layers := [[⟨0, true, ⟨[1, 2], #[0.5, 0.25]⟩, rfl, rfl⟩, ⟨1, true, ⟨[2], #[0.75, 1]⟩, rfl, rfl⟩]]

/-- Slots for its layer, after seven updates. -/
def holding (slots : List (ParamBlock Float32)) : OptimizerState Float32 :=
  ⟨[[⟨slots⟩]], 7⟩

/-- First moments before second ones, each with the weight before the bias. -/
def inOrder : OptimizerState Float32 :=
  holding [⟨[1, 2], #[1, 2]⟩, ⟨[2], #[3, 4]⟩, ⟨[1, 2], #[5, 6]⟩, ⟨[2], #[7, 8]⟩]

/-- The second moments of weight and bias have changed places. -/
def swapped : OptimizerState Float32 :=
  holding [⟨[1, 2], #[1, 2]⟩, ⟨[2], #[3, 4]⟩, ⟨[2], #[7, 8]⟩, ⟨[1, 2], #[5, 6]⟩]

/-- An optimizer that has made no update. -/
def unused : Adam Float32 := ofSettings .standard

theorem measurable_inOrder : inOrder.Measurable := by
  unfold OptimizerState.Measurable Size.Measurable
  decide

theorem measurable_swapped : swapped.Measurable := by
  unfold OptimizerState.Measurable Size.Measurable
  decide

/-- Slots in order go to their parameters, and slots that are not are refused without a change. -/
theorem restores_of_measurable_shelf : inOrder.Measurable ∧ swapped.Measurable ∧
    (∃ restored, unused.setState model inOrder = .ok restored ∧
      restored.records.find? 1 = some ⟨⟨[2], #[3, 4]⟩, ⟨[2], #[7, 8]⟩, 7⟩) ∧
    (restore model swapped).run unused =
      (failWith (.shapeMismatch (.layerSlots 0) [1, 2, 2, 1, 2, 2] [1, 2, 2, 2, 1, 2]),
        unused) := by
  have hids : model.DistinctIds := by
    have hdistinct : [0, 1].Nodup := by decide
    exact hdistinct
  have hinOrder := restores_of_measurable measurable_inOrder unused model
  have hswapped := restores_of_measurable measurable_swapped unused model
  refine ⟨measurable_inOrder, measurable_swapped, ⟨_, rfl, ?_⟩, hswapped.inPlace⟩
  exact (hinOrder.restored _ _ rfl rfl).own hids 0 1 _ _ _ ⟨_, _, rfl, rfl, rfl, rfl, rfl⟩

end Shelf

end Adam

end PolicyGradient
