import PolicyGradient.Adam.State
import PolicyGradient.Proofs.Block
import PolicyGradient.Proofs.Load

/-!
Optimizer states, read and restored.

A state is accepted exactly when it fits the model (`exists_setState_iff`), and then it is what the
optimizer shows afterwards (`state_of_setState`): the slots go by position and the records by
identity, so this rests on identities that differ.  Every parameter then has moments of its own
shape whose time is the state's step.
-/

namespace PolicyGradient

open Outcome

namespace Adam

variable {α : Type}

namespace Records

/-- The records with some entries inserted one after the other. -/
def insertAll (records : Records α) (entries : List (Nat × Moments α)) : Records α :=
  entries.foldl (fun records entry => records.insert entry.1 entry.2) records

theorem find?_insertAll_of_not_mem {records : Records α} {entries : List (Nat × Moments α)}
    {id : Nat} (h : id ∉ entries.map Prod.fst) :
    (records.insertAll entries).find? id = records.find? id := by
  induction entries generalizing records with
  | nil => rfl
  | cons entry entries ih =>
      simp only [List.map_cons, List.mem_cons, not_or] at h
      calc ((records.insert entry.1 entry.2).insertAll entries).find? id
          = (records.insert entry.1 entry.2).find? id := ih h.2
        _ = records.find? id := by rw [find?_insert, if_neg (Ne.symm h.1)]

/-- An inserted entry is found as long as no other one has its identity. -/
theorem find?_insertAll_of_mem {records : Records α} {entries : List (Nat × Moments α)}
    {entry : Nat × Moments α} (hnodup : (entries.map Prod.fst).Nodup) (h : entry ∈ entries) :
    (records.insertAll entries).find? entry.1 = some entry.2 := by
  induction entries generalizing records with
  | nil => simp at h
  | cons head entries ih =>
      simp only [List.map_cons, List.nodup_cons] at hnodup
      rcases List.mem_cons.mp h with rfl | h
      · calc ((records.insert entry.1 entry.2).insertAll entries).find? entry.1
            = (records.insert entry.1 entry.2).find? entry.1 :=
              find?_insertAll_of_not_mem hnodup.1
          _ = some entry.2 := by rw [find?_insert, if_pos rfl]
      · exact ih hnodup.2 h

end Records

/-- Both means have a shape and are filled. -/
def Moments.Fits (moments : Moments α) (shape : List Nat) : Prop :=
  moments.first.Fits shape ∧ moments.second.Fits shape

/-- The moments of every parameter of the model have the parameter's shape. -/
def Fits (adam : Adam α) (model : Model α) : Prop :=
  ∀ params ∈ model.layers, ∀ param ∈ params, ∀ moments,
    adam.records.find? param.id = some moments → moments.Fits param.block.shape

/-- The slots of a layer have the shapes of its parameters, twice, and are filled. -/
def SlotsFit (params : List (Param α)) (slots : LayerWeights α) : Prop :=
  slots.layout = (Model.weightsOf params).layout ++ (Model.weightsOf params).layout ∧
    slots.IsFilled

/-- Blocks of the parameters' shapes, in order. -/
abbrev BlocksFit (params : List (Param α)) (blocks : List (ParamBlock α)) : Prop :=
  List.Forall₂ (fun param block => block.Fits param.block.shape) params blocks

theorem blocksFit_of_map_eq {params : List (Param α)} {blocks : List (ParamBlock α)}
    (hlayout : blocks.map ParamBlock.shape = (Model.weightsOf params).layout)
    (hfilled : ∀ block ∈ blocks, block.IsFilled) : BlocksFit params blocks := by
  induction params generalizing blocks with
  | nil =>
      simp only [Model.weightsOf, LayerWeights.layout, List.map_nil,
        List.map_eq_nil_iff] at hlayout
      rw [hlayout]
      exact .nil
  | cons param params ih =>
      cases blocks with
      | nil => simp [Model.weightsOf, LayerWeights.layout] at hlayout
      | cons block blocks =>
          simp only [Model.weightsOf, LayerWeights.layout, List.map_cons,
            List.cons.injEq] at hlayout
          exact .cons ⟨hlayout.1, hfilled block List.mem_cons_self⟩
            (ih hlayout.2 fun b hb => hfilled b (List.mem_cons_of_mem block hb))

theorem SlotsFit.halves {params : List (Param α)} {slots : LayerWeights α}
    (h : SlotsFit params slots) :
    ∃ firsts seconds, slots.params = firsts ++ seconds ∧ BlocksFit params firsts ∧
      BlocksFit params seconds := by
  obtain ⟨hlayout, hfilled⟩ := h
  obtain ⟨firsts, seconds, hslots, hfirsts, hseconds⟩ := List.map_eq_append_iff.mp hlayout
  refine ⟨firsts, seconds, hslots, ?_, ?_⟩
  · apply blocksFit_of_map_eq hfirsts
    intro block hblock
    exact hfilled block (by rw [hslots]; exact List.mem_append_left _ hblock)
  · apply blocksFit_of_map_eq hseconds
    intro block hblock
    exact hfilled block (by rw [hslots]; exact List.mem_append_right _ hblock)

/-- The records of a layer from its first and second moments. -/
def pairUp (params : List (Param α)) (firsts seconds : List (ParamBlock α)) (time : Nat) :
    Records α :=
  List.zipWith (fun param moments => (param.id, moments)) params
    (List.zipWith (fun m v => (⟨m, v, time⟩ : Moments α)) firsts seconds)

theorem recordsOf_eq_pairUp {params : List (Param α)} {slots : LayerWeights α}
    {firsts seconds : List (ParamBlock α)} (hslots : slots.params = firsts ++ seconds)
    (hlength : firsts.length = seconds.length) (time : Nat) :
    recordsOf params slots time = pairUp params firsts seconds time := by
  have hhalf : (firsts ++ seconds).length / 2 = firsts.length := by
    rw [List.length_append, ← hlength]
    omega
  simp only [recordsOf, hslots, hhalf, List.take_left, List.drop_left, pairUp]

theorem map_fst_pairUp {params : List (Param α)} {firsts seconds : List (ParamBlock α)}
    (hfirsts : BlocksFit params firsts) (hseconds : BlocksFit params seconds) (time : Nat) :
    (pairUp params firsts seconds time).map Prod.fst = params.map Param.id := by
  induction hfirsts generalizing seconds with
  | nil => rfl
  | cons hm hfirsts ih =>
      cases hseconds with
      | cons hv hseconds => exact congrArg (_ :: ·) (ih hseconds)

theorem exists_mem_pairUp {params : List (Param α)} {firsts seconds : List (ParamBlock α)}
    (hfirsts : BlocksFit params firsts) (hseconds : BlocksFit params seconds) (time : Nat)
    {param : Param α} (hparam : param ∈ params) :
    ∃ moments, (param.id, moments) ∈ pairUp params firsts seconds time ∧
      moments.Fits param.block.shape ∧ moments.time = time := by
  induction hfirsts generalizing seconds with
  | nil => simp at hparam
  | cons hm hfirsts ih =>
      cases hseconds with
      | cons hv hseconds =>
          rcases List.mem_cons.mp hparam with rfl | hparam
          · exact ⟨_, List.mem_cons_self, ⟨hm, hv⟩, rfl⟩
          · obtain ⟨moments, hmem, hfits⟩ := ih hseconds hparam
            exact ⟨moments, List.mem_cons_of_mem _ hmem, hfits⟩

/-- Records that hold a layer's moments show them again, in the same order. -/
theorem slots_of_pairUp {records : Records α} {params : List (Param α)}
    {firsts seconds : List (ParamBlock α)} {time : Nat} (hfirsts : BlocksFit params firsts)
    (hseconds : BlocksFit params seconds)
    (hfound : ∀ entry ∈ pairUp params firsts seconds time,
      records.find? entry.1 = some entry.2) [Zero α] :
    params.map (slot Moments.first records) = firsts ∧
      params.map (slot Moments.second records) = seconds := by
  induction hfirsts generalizing seconds with
  | nil =>
      cases hseconds
      exact ⟨rfl, rfl⟩
  | @cons param m params firsts hm hfirsts ih =>
      cases hseconds with
      | @cons _ v _ seconds hv hseconds =>
          have hhead : records.find? param.id = some ⟨m, v, time⟩ :=
            hfound _ List.mem_cons_self
          obtain ⟨hfirst, hsecond⟩ :=
            ih hseconds fun entry hentry => hfound entry (List.mem_cons_of_mem _ hentry)
          have hmoment : slot Moments.first records param = m := by
            simp only [slot, slotValues, hhead]
            rw [← hm.1]
          have hsquare : slot Moments.second records param = v := by
            simp only [slot, slotValues, hhead]
            rw [← hv.1]
          simp [hfirst, hsecond, hmoment, hsquare]

/-- All blocks are filled, if they have shapes whose product can be taken. -/
theorem allFilled_eq_ok {blocks : List (ParamBlock α)}
    (hproduct : ∀ block ∈ blocks,
      Size.product block.shape = .ok (Size.volume block.shape)) :
    ∃ filled, allFilled blocks = .ok filled ∧
      (filled = true ↔ ∀ block ∈ blocks, block.IsFilled) := by
  induction blocks with
  | nil => exact ⟨true, rfl, by simp⟩
  | cons block blocks ih =>
      obtain ⟨filled, hfilled, hiff⟩ := ih fun b hb => hproduct b (List.mem_cons_of_mem block hb)
      unfold allFilled
      rw [hproduct block List.mem_cons_self]
      by_cases hsize : block.values.size = Size.volume block.shape
      · refine ⟨filled, ?_, ?_⟩
        · simpa [bind, Except.bind, hsize] using hfilled
        · simp [hiff, ParamBlock.IsFilled, hsize]
      · refine ⟨false, ?_, ?_⟩
        · simp [bind, Except.bind, hsize, pure, Except.pure]
        · simp [ParamBlock.IsFilled, hsize]

/-- A filled answer means that every product could be taken. -/
theorem isFilled_of_allFilled {blocks : List (ParamBlock α)} (h : allFilled blocks = .ok true) :
    ∀ block ∈ blocks, block.IsFilled := by
  induction blocks with
  | nil => simp
  | cons block blocks ih =>
      unfold allFilled at h
      rw [bind_eq_ok] at h
      obtain ⟨count, hcount, hrest⟩ := h
      split at hrest
      case isTrue hsize =>
        intro b hb
        rcases List.mem_cons.mp hb with rfl | hb
        · exact hsize.trans (Size.eq_volume_of_product hcount)
        · exact ih hrest b hb
      case isFalse => cases hrest

/-- Slots laid out like the parameters have shapes whose product can be taken. -/
theorem product_of_layout_eq {params : List (Param α)} {slots : LayerWeights α}
    (h : slots.layout = (Model.weightsOf params).layout ++ (Model.weightsOf params).layout) :
    ∀ block ∈ slots.params, Size.product block.shape = .ok (Size.volume block.shape) := by
  intro block hblock
  have hshape : block.shape ∈ slots.layout := List.mem_map_of_mem hblock
  rw [h, List.mem_append, or_self] at hshape
  simp only [Model.weightsOf, LayerWeights.layout, List.map_map, List.mem_map,
    Function.comp_apply] at hshape
  obtain ⟨param, _, hparam⟩ := hshape
  rw [← hparam]
  exact Shape.product_of_addressable param.addressable

/-- The layouts of some layers of parameters. -/
abbrev layouts (layers : List (List (Param α))) : List (List (List Nat)) :=
  layers.map fun params => (Model.weightsOf params).layout

theorem checkSlots_cons {first : Nat} {params : List (Param α)} {slots : LayerWeights α}
    {layers : List (List (Param α))} {group : List (LayerWeights α)} (hslots : SlotsFit params slots) :
    checkSlots first (layouts (params :: layers)) (slots :: group) =
      checkSlots (first + 1) (layouts layers) group := by
  obtain ⟨filled, hfilled, hiff⟩ := allFilled_eq_ok (product_of_layout_eq hslots.1)
  have htrue : filled = true := hiff.mpr hslots.2
  simp only [layouts, List.map_cons]
  rw [checkSlots, hfilled, htrue]
  exact if_pos ⟨hslots.1.symm, rfl⟩

theorem slotsFit_of_checkSlots {first : Nat} {params : List (Param α)} {slots : LayerWeights α}
    {layers : List (List (Param α))} {group : List (LayerWeights α)}
    (h : checkSlots first (layouts (params :: layers)) (slots :: group) = .ok ()) :
    SlotsFit params slots := by
  simp only [layouts, List.map_cons] at h
  rw [checkSlots, bind_eq_ok] at h
  obtain ⟨filled, hfilled, hrest⟩ := h
  split at hrest
  case isTrue hgood =>
    obtain ⟨hlayout, htrue⟩ := hgood
    rw [htrue] at hfilled
    exact ⟨hlayout.symm, isFilled_of_allFilled hfilled⟩
  case isFalse => simp at hrest

theorem checkSlots_eq_ok {first : Nat} {layers : List (List (Param α))}
    {group : List (LayerWeights α)} (hlength : layers.length = group.length) :
    checkSlots first (layouts layers) group = .ok () ↔ List.Forall₂ SlotsFit layers group := by
  induction layers generalizing first group with
  | nil =>
      rw [List.length_eq_zero_iff.mp hlength.symm]
      exact ⟨fun _ => .nil, fun _ => rfl⟩
  | cons params layers ih =>
      cases group with
      | nil => simp at hlength
      | cons slots group =>
          rw [List.forall₂_cons]
          constructor
          · intro h
            have hslots := slotsFit_of_checkSlots h
            rw [checkSlots_cons hslots] at h
            exact ⟨hslots, (ih (Nat.succ.inj hlength)).mp h⟩
          · rintro ⟨hslots, hgroup⟩
            rw [checkSlots_cons hslots]
            exact (ih (Nat.succ.inj hlength)).mpr hgroup

end Adam

namespace Adam

variable {α : Type}

/-- Slots fit some layers when they have the layers' shapes, twice, and are filled. -/
theorem forall₂_slotsFit_iff {layers : List (List (Param α))} {group : List (LayerWeights α)} :
    List.Forall₂ SlotsFit layers group ↔
      group.map LayerWeights.layout = (layouts layers).map (fun shapes => shapes ++ shapes) ∧
        ∀ slots ∈ group, slots.IsFilled := by
  induction layers generalizing group with
  | nil => simp +contextual [layouts]
  | cons params layers ih =>
      cases group with
      | nil => simp [layouts]
      | cons slots group =>
          simp only [List.forall₂_cons, ih, SlotsFit, layouts, List.map_cons, List.cons.injEq,
            List.forall_mem_cons]
          tauto

/-- A check of slots with the right shapes ends with an answer. -/
theorem answers_checkSlots {first : Nat} {layers : List (List (Param α))}
    {group : List (LayerWeights α)}
    (h : group.map LayerWeights.layout =
      (layouts layers).map (fun shapes => shapes ++ shapes)) :
    (checkSlots first (layouts layers) group).Answers := by
  induction layers generalizing first group with
  | nil => exact answers_ok _
  | cons params layers ih =>
      cases group with
      | nil => exact answers_ok _
      | cons slots group =>
          simp only [layouts, List.map_cons, List.cons.injEq] at h ⊢
          obtain ⟨filled, hfilled, _⟩ := allFilled_eq_ok (product_of_layout_eq h.1)
          rw [checkSlots, hfilled]
          simp only [bind, Except.bind]
          split
          · exact ih h.2
          · exact answers_failWith _

end Adam

/-- The state has a group with the slots of every layer of the model. -/
def OptimizerState.Fits {α : Type} (state : OptimizerState α) (model : Model α) : Prop :=
  ∃ group others, state.slots = group :: others ∧
    List.Forall₂ Adam.SlotsFit model.layers group

namespace Adam

variable {α : Type}

theorem layout_eq_layouts (model : Model α) : model.layout = layouts model.layers := by
  simp [Model.layout, Model.weights, layouts]

theorem checkState_eq_ok {model : Model α} {state : OptimizerState α} :
    checkState model state = .ok () ↔ state.Fits model := by
  obtain ⟨slots, step⟩ := state
  cases slots with
  | nil => simp [checkState, OptimizerState.group, OptimizerState.Fits, bind_eq_ok]
  | cons group others =>
      have hgroup : OptimizerState.group ⟨group :: others, step⟩ OptimizerState.modelGroup =
          .ok group := rfl
      unfold checkState
      simp only [hgroup, bind_eq_ok, Except.ok.injEq, OptimizerState.Fits, List.cons.injEq]
      constructor
      · rintro ⟨_, rfl, _, hcount, hslots⟩
        unfold ensureShape at hcount
        split at hcount
        case isTrue hlength =>
          rw [layout_eq_layouts, checkSlots_eq_ok (List.cons.inj hlength).1.symm] at hslots
          exact ⟨group, others, ⟨rfl, rfl⟩, hslots⟩
        case isFalse => simp at hcount
      · rintro ⟨_, _, ⟨rfl, rfl⟩, hslots⟩
        have hlength : model.layers.length = group.length := hslots.length_eq
        refine ⟨group, rfl, (), if_pos (by rw [Model.depth, hlength]), ?_⟩
        rw [layout_eq_layouts]
        exact (checkSlots_eq_ok hlength).mpr hslots

/-- A state fits a model when its slots have the model's shapes, twice, and are filled. -/
theorem fits_iff {state : OptimizerState α} {model : Model α} :
    state.Fits model ↔ state.slots ≠ [] ∧
      state.modelSlots.map LayerWeights.layout =
        model.layout.map (fun shapes => shapes ++ shapes) ∧
      ∀ slots ∈ state.modelSlots, slots.IsFilled := by
  obtain ⟨slots, step⟩ := state
  rw [layout_eq_layouts, ← forall₂_slotsFit_iff]
  cases slots with
  | nil => simp [OptimizerState.Fits]
  | cons group others =>
      simp only [OptimizerState.Fits, OptimizerState.modelSlots, List.headD_cons, List.cons.injEq]
      constructor
      · rintro ⟨_, _, ⟨rfl, rfl⟩, hslots⟩
        exact ⟨List.cons_ne_nil _ _, hslots⟩
      · rintro ⟨_, hslots⟩
        exact ⟨group, others, ⟨rfl, rfl⟩, hslots⟩

/-- A state with slots of the right shapes is accepted or refused with an error. -/
theorem answers_setState {adam : Adam α} {model : Model α} {state : OptimizerState α}
    (h : state.modelSlots.map LayerWeights.layout =
      model.layout.map (fun shapes => shapes ++ shapes)) :
    (adam.setState model state).Answers := by
  refine Answers.bind ?_ fun _ _ => (OptimizerState.answers_group _ _).bind fun _ _ => answers_ok _
  refine (OptimizerState.answers_group _ _).bind fun group hgroup =>
    (answers_ensureShape _ _ _).bind fun _ _ => ?_
  obtain ⟨_, rfl⟩ := OptimizerState.group_eq_ok.mp hgroup
  rw [layout_eq_layouts] at h ⊢
  exact answers_checkSlots h

/-- The entries that restoring a group of slots inserts. -/
def entriesOf (layers : List (List (Param α))) (group : List (LayerWeights α)) (time : Nat) :
    List (Nat × Moments α) :=
  (layers.zip group).flatMap fun (params, slots) => recordsOf params slots time

theorem entriesOf_cons (params : List (Param α)) (layers : List (List (Param α)))
    (slots : LayerWeights α) (group : List (LayerWeights α)) (time : Nat) :
    entriesOf (params :: layers) (slots :: group) time =
      recordsOf params slots time ++ entriesOf layers group time := rfl

theorem setState_eq_ok {adam adam' : Adam α} {model : Model α} {state : OptimizerState α} :
    adam.setState model state = .ok adam' ↔
      ∃ group others, state.slots = group :: others ∧
        List.Forall₂ SlotsFit model.layers group ∧
        adam' = { adam with
          records := adam.records.insertAll (entriesOf model.layers group state.step)
          step := state.step
          otherGroups := others } := by
  obtain ⟨slots, step⟩ := state
  unfold setState
  simp only [bind_eq_ok]
  constructor
  · rintro ⟨_, hcheck, _, hgroup, hadam⟩
    obtain ⟨group, others, rfl, hslots⟩ := checkState_eq_ok.mp hcheck
    cases hgroup
    cases hadam
    exact ⟨_, others, rfl, hslots, rfl⟩
  · rintro ⟨group, others, rfl, hslots, rfl⟩
    exact ⟨(), checkState_eq_ok.mpr ⟨group, others, rfl, hslots⟩, group, rfl, rfl⟩

/-- A state is accepted exactly when it fits the model. -/
theorem exists_setState_iff {adam : Adam α} {model : Model α} {state : OptimizerState α} :
    (∃ adam', adam.setState model state = .ok adam') ↔ state.Fits model := by
  constructor
  · rintro ⟨adam', h⟩
    obtain ⟨group, others, hslots, hfits, _⟩ := setState_eq_ok.mp h
    exact ⟨group, others, hslots, hfits⟩
  · rintro ⟨group, others, hslots, hfits⟩
    exact ⟨_, setState_eq_ok.mpr ⟨group, others, hslots, hfits, rfl⟩⟩

theorem map_fst_entriesOf {layers : List (List (Param α))} {group : List (LayerWeights α)}
    (h : List.Forall₂ SlotsFit layers group) (time : Nat) :
    (entriesOf layers group time).map Prod.fst = (layers.map (List.map Param.id)).flatten := by
  induction h with
  | nil => rfl
  | cons hslots _ ih =>
      obtain ⟨firsts, seconds, heq, hfirsts, hseconds⟩ := hslots.halves
      rw [entriesOf_cons, List.map_append, ih, List.map_cons, List.flatten_cons,
        recordsOf_eq_pairUp heq (hfirsts.length_eq.symm.trans hseconds.length_eq),
        map_fst_pairUp hfirsts hseconds]

theorem exists_mem_entriesOf {layers : List (List (Param α))} {group : List (LayerWeights α)}
    (h : List.Forall₂ SlotsFit layers group) (time : Nat) {params : List (Param α)}
    (hparams : params ∈ layers) {param : Param α} (hparam : param ∈ params) :
    ∃ moments, (param.id, moments) ∈ entriesOf layers group time ∧
      moments.Fits param.block.shape ∧ moments.time = time := by
  induction h with
  | nil => simp at hparams
  | cons hslots _ ih =>
      rw [entriesOf_cons]
      rcases List.mem_cons.mp hparams with rfl | hparams
      · obtain ⟨firsts, seconds, heq, hfirsts, hseconds⟩ := hslots.halves
        rw [recordsOf_eq_pairUp heq (hfirsts.length_eq.symm.trans hseconds.length_eq)]
        obtain ⟨moments, hmem, hmoments⟩ := exists_mem_pairUp hfirsts hseconds time hparam
        exact ⟨moments, List.mem_append_left _ hmem, hmoments⟩
      · obtain ⟨moments, hmem, hmoments⟩ := ih hparams
        exact ⟨moments, List.mem_append_right _ hmem, hmoments⟩

theorem map_slotsOf_entriesOf [Zero α] {records : Records α} {layers : List (List (Param α))}
    {group : List (LayerWeights α)} {time : Nat} (h : List.Forall₂ SlotsFit layers group)
    (hfound : ∀ entry ∈ entriesOf layers group time,
      records.find? entry.1 = some entry.2) :
    layers.map (slotsOf records) = group := by
  induction h with
  | nil => rfl
  | @cons params slots layers group hslots _ ih =>
      rw [entriesOf_cons] at hfound
      obtain ⟨firsts, seconds, heq, hfirsts, hseconds⟩ := hslots.halves
      rw [recordsOf_eq_pairUp heq (hfirsts.length_eq.symm.trans hseconds.length_eq)] at hfound
      obtain ⟨hfirst, hsecond⟩ := slots_of_pairUp hfirsts hseconds
        fun entry hentry => hfound entry (List.mem_append_left _ hentry)
      have hhead : slotsOf records params = slots := by
        rw [slotsOf, hfirst, hsecond, ← heq]
      rw [List.map_cons, hhead, ih fun entry hentry => hfound entry (List.mem_append_right _ hentry)]

/-- Identities that differ keep the entries of different parameters apart. -/
theorem find?_insertAll_entriesOf {model : Model α} {group : List (LayerWeights α)}
    (hids : model.DistinctIds) (hslots : List.Forall₂ SlotsFit model.layers group) (time : Nat)
    (records : Records α) :
    ∀ entry ∈ entriesOf model.layers group time,
      (records.insertAll (entriesOf model.layers group time)).find? entry.1 = some entry.2 := by
  intro entry hentry
  have hnodup : ((entriesOf model.layers group time).map Prod.fst).Nodup := by
    rw [map_fst_entriesOf hslots]
    exact hids
  exact Records.find?_insertAll_of_mem hnodup hentry

/-- A restored state is shown again. -/
theorem state_of_setState [Zero α] {adam adam' : Adam α} {model : Model α}
    {state : OptimizerState α} (hids : model.DistinctIds)
    (h : adam.setState model state = .ok adam') : adam'.state model = state := by
  obtain ⟨slots, step⟩ := state
  obtain ⟨group, others, rfl, hslots, rfl⟩ := setState_eq_ok.mp h
  have hgroup := map_slotsOf_entriesOf hslots
    (find?_insertAll_entriesOf hids hslots step adam.records)
  rw [Adam.state, hgroup]

/-- A restore gives every parameter moments of its shape whose time is the restored step. -/
theorem moments_of_setState {adam adam' : Adam α} {model : Model α} {state : OptimizerState α}
    (hids : model.DistinctIds) (h : adam.setState model state = .ok adam')
    {params : List (Param α)} (hparams : params ∈ model.layers) {param : Param α}
    (hparam : param ∈ params) :
    ∃ moments, adam'.records.find? param.id = some moments ∧
      moments.Fits param.block.shape ∧ moments.time = state.step := by
  obtain ⟨group, others, _, hslots, rfl⟩ := setState_eq_ok.mp h
  obtain ⟨moments, hmem, hmoments⟩ := exists_mem_entriesOf hslots state.step hparams hparam
  exact ⟨moments, find?_insertAll_entriesOf hids hslots _ _ _ hmem, hmoments⟩

theorem fits_of_setState {adam adam' : Adam α} {model : Model α} {state : OptimizerState α}
    (hids : model.DistinctIds) (h : adam.setState model state = .ok adam') :
    adam'.Fits model := by
  intro params hparams param hparam moments hmoments
  obtain ⟨found, hfound, hfits, _⟩ := moments_of_setState hids h hparams hparam
  rw [hmoments] at hfound
  cases hfound
  exact hfits

theorem slotValues_size [Zero α] {part : Moments α → ParamBlock α} {records : Records α}
    {param : Param α}
    (h : ∀ moments, records.find? param.id = some moments →
      (part moments).Fits param.block.shape) :
    (slotValues part records param).size = Size.volume param.block.shape := by
  unfold slotValues
  split
  case h_1 moments hfound =>
    obtain ⟨hshape, hfilled⟩ := h moments hfound
    rw [hfilled, hshape]
  case h_2 =>
    rw [Array.size_replicate]
    exact param.filled

theorem slotsFit_slotsOf [Zero α] {records : Records α} {params : List (Param α)}
    (h : ∀ param ∈ params, ∀ moments, records.find? param.id = some moments →
      moments.Fits param.block.shape) :
    SlotsFit params (slotsOf records params) := by
  constructor
  · simp [slotsOf, slot, LayerWeights.layout, Model.weightsOf, Function.comp_def]
  · intro block hblock
    simp only [slotsOf, List.mem_append, List.mem_map] at hblock
    rcases hblock with ⟨param, hparam, rfl⟩ | ⟨param, hparam, rfl⟩
    · exact slotValues_size fun moments hfound => (h param hparam moments hfound).1
    · exact slotValues_size fun moments hfound => (h param hparam moments hfound).2

/-- Parameters with the same identity and form have the same slots. -/
theorem slot_congr [Zero α] (part : Moments α → ParamBlock α) (records : Records α)
    (param other : Param α) (h : (param.id, param.form) = (other.id, other.form)) :
    slot part records param = slot part records other := by
  obtain ⟨hid, hform⟩ := Prod.ext_iff.mp h
  have hshape : param.block.shape = other.block.shape := congrArg Prod.snd hform
  have hsize : param.block.values.size = other.block.values.size := by
    rw [param.filled, other.filled, hshape]
  have hid' : param.id = other.id := hid
  rw [slot, slot, slotValues, slotValues, hshape, hsize, hid']

/-- What an optimizer shows for a model does not depend on the model's weights. -/
theorem state_congr [Zero α] (adam : Adam α) {model other : Model α}
    (hids : other.identities = model.identities) (hform : other.form = model.form) :
    adam.state other = adam.state model := by
  have hgroup : other.layers.map (slotsOf adam.records) =
      model.layers.map (slotsOf adam.records) := by
    refine Model.map_eq_of_map_eq ?_ (Model.map_id_form_eq hids hform)
    intro params params' hparams
    rw [slotsOf, slotsOf, Model.map_eq_of_map_eq (slot_congr Moments.first adam.records) hparams,
      Model.map_eq_of_map_eq (slot_congr Moments.second adam.records) hparams]
  rw [state, state, hgroup]

/-- What an optimizer shows fits the model when its moments do. -/
theorem fits_state [Zero α] {adam : Adam α} {model : Model α} (h : adam.Fits model) :
    (adam.state model).Fits model := by
  refine ⟨model.layers.map (slotsOf adam.records), adam.otherGroups, rfl, ?_⟩
  rw [List.forall₂_map_right_iff, List.forall₂_same]
  exact fun params hparams => slotsFit_slotsOf (h params hparams)

end Adam

end PolicyGradient
