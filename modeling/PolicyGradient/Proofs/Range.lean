import PolicyGradient.Proofs.Block
import PolicyGradient.Weights.OptimizerState

/-!
Ranges of layers taken over from other layers.

`overlay` is what a copy of a range makes of the layers it is copied into: `getElem?_overlay` says
which layer stands where.  `copyRange_eq_ok` is the exact domain of reading a range of some layers
and writing it into others.
-/

namespace PolicyGradient.Layers

open Outcome

variable {α γ δ : Type}

/-- The layers from `start` to `stop` of `given`, and all others of `own`. -/
def overlay (start stop : Nat) (given own : List γ) : List γ :=
  own.take start ++ given.extract start stop ++ own.drop stop

theorem getElem?_overlay {start stop : Nat} {given own : List γ} (hrange : start ≤ stop)
    (hgiven : stop ≤ given.length) (hown : stop ≤ own.length) (i : Nat) :
    (overlay start stop given own)[i]? =
      if start ≤ i ∧ i < stop then given[i]? else own[i]? := by
  have hfirst : (own.take start).length = start := by
    rw [List.length_take]
    omega
  have hmiddle : (given.extract start stop).length = stop - start := by
    rw [List.extract_eq_take_drop, List.length_take, List.length_drop]
    omega
  rw [overlay, List.append_assoc, List.getElem?_append, List.getElem?_append, hfirst, hmiddle]
  by_cases hbefore : i < start
  · rw [if_pos hbefore, if_neg (by omega), List.getElem?_take, if_pos hbefore]
  · by_cases hinside : i < stop
    · rw [if_neg hbefore, if_pos (by omega), if_pos ⟨by omega, hinside⟩,
        List.extract_eq_take_drop, List.getElem?_take, if_pos (by omega), List.getElem?_drop,
        Nat.add_sub_cancel' (by omega)]
    · rw [if_neg hbefore, if_neg (by omega), if_neg (by omega), List.getElem?_drop]
      congr 1
      omega

theorem map_overlay (f : γ → δ) (start stop : Nat) (given own : List γ) :
    (overlay start stop given own).map f = overlay start stop (given.map f) (own.map f) := by
  simp [overlay, List.extract_eq_take_drop]

/-- An overlay with the same layers changes nothing. -/
theorem overlay_of_getElem?_eq {start stop : Nat} {given own : List γ} (hrange : start ≤ stop)
    (hgiven : stop ≤ given.length) (hown : stop ≤ own.length)
    (h : ∀ i, start ≤ i → i < stop → given[i]? = own[i]?) :
    overlay start stop given own = own := by
  apply List.ext_getElem?
  intro i
  rw [getElem?_overlay hrange hgiven hown]
  split
  case isTrue hi => exact h i hi.1 hi.2
  case isFalse => rfl

theorem mem_overlay {start stop : Nat} {given own : List γ} {layer : γ}
    (h : layer ∈ overlay start stop given own) :
    layer ∈ given.extract start stop ∨ layer ∈ own := by
  simp only [overlay, List.mem_append] at h
  rcases h with (hfirst | hmiddle) | hlast
  · exact Or.inr (List.mem_of_mem_take hfirst)
  · exact Or.inl hmiddle
  · exact Or.inr (List.mem_of_mem_drop hlast)

/-- The layers from `start` to `stop` have the same parameter shapes on both sides. -/
def SameLayouts (start stop : Nat) (given own : List (LayerWeights α)) : Prop :=
  ∀ i, start ≤ i → i < stop →
    given[i]?.map LayerWeights.layout = own[i]?.map LayerWeights.layout

theorem sameLayouts_iff {start stop : Nat} {given own : List (LayerWeights α)} :
    SameLayouts start stop given own ↔
      (own.extract start stop).map LayerWeights.layout =
        (given.extract start stop).map LayerWeights.layout := by
  constructor
  · intro h
    apply List.ext_getElem?
    intro i
    simp only [List.extract_eq_take_drop, List.getElem?_map, List.getElem?_take,
      List.getElem?_drop]
    split
    case isTrue hi => exact (h (start + i) (by omega) (by omega)).symm
    case isFalse => rfl
  · intro h i hfirst hlast
    have hi := congrArg (fun layouts => layouts[i - start]?) h
    simp only [List.extract_eq_take_drop, List.getElem?_map, List.getElem?_take,
      List.getElem?_drop, if_pos (Nat.sub_lt_sub_right hfirst hlast),
      Nat.add_sub_cancel' hfirst] at hi
    exact hi.symm

theorem checkRange_eq_ok {start stop count : Nat} :
    checkRange start stop count = .ok () ↔ start ≤ stop ∧ stop ≤ count := by
  unfold checkRange
  split
  case isTrue h =>
    simp only [failWith_ne_ok, false_iff]
    omega
  case isFalse h =>
    simp only [true_iff]
    omega

theorem answers_checkRange (start stop count : Nat) :
    (checkRange start stop count).Answers := by
  unfold checkRange
  split
  · exact answers_failWith _
  · exact answers_ok _

theorem checkLayouts_eq_ok {first : Nat} {expected actual : List (List (List Nat))}
    (hlength : expected.length = actual.length) :
    checkLayouts first expected actual = .ok () ↔ expected = actual := by
  induction expected generalizing first actual with
  | nil => simp [checkLayouts, List.length_eq_zero_iff.mp hlength.symm]
  | cons shapes expected ih =>
      cases actual with
      | nil => simp at hlength
      | cons shapes' actual =>
          unfold checkLayouts
          by_cases hshapes : shapes = shapes'
          · rw [if_pos hshapes, ih (Nat.succ.inj hlength), hshapes]
            simp
          · rw [if_neg hshapes]
            simp [hshapes]

theorem answers_checkLayouts (first : Nat) (expected actual : List (List (List Nat))) :
    (checkLayouts first expected actual).Answers := by
  induction expected generalizing first actual with
  | nil => exact answers_ok _
  | cons shapes expected ih =>
      cases actual with
      | nil => exact answers_ok _
      | cons shapes' actual =>
          unfold checkLayouts
          split
          · exact ih _ _
          · exact answers_failWith _

theorem range_eq_ok {layers blocks : List (LayerWeights α)} {start stop : Nat} :
    range layers start stop = .ok blocks ↔
      start ≤ stop ∧ stop ≤ layers.length ∧ blocks = layers.extract start stop := by
  unfold range
  rw [bind_eq_ok]
  constructor
  · rintro ⟨_, hrange, hblocks⟩
    obtain ⟨hfirst, hlast⟩ := checkRange_eq_ok.mp hrange
    exact ⟨hfirst, hlast, (Except.ok.inj hblocks).symm⟩
  · rintro ⟨hfirst, hlast, rfl⟩
    exact ⟨(), checkRange_eq_ok.mpr ⟨hfirst, hlast⟩, rfl⟩

theorem answers_range (layers : List (LayerWeights α)) (start stop : Nat) :
    (range layers start stop).Answers :=
  (answers_checkRange _ _ _).bind fun _ _ => answers_ok _

theorem replaceRange_eq_ok {layers blocks result : List (LayerWeights α)} {start stop : Nat}
    (hstop : start + blocks.length = stop) (hlimit : stop < Size.limit) :
    replaceRange layers start blocks = .ok result ↔
      stop ≤ layers.length ∧
        (layers.extract start stop).map LayerWeights.layout = blocks.map LayerWeights.layout ∧
        result = layers.take start ++ blocks ++ layers.drop stop := by
  have hadd : Size.add start blocks.length = .ok stop := by
    rw [← hstop] at hlimit ⊢
    exact Size.add_eq_ok.mpr ⟨hlimit, rfl⟩
  have hlength : stop ≤ layers.length →
      ((layers.extract start stop).map LayerWeights.layout).length =
        (blocks.map LayerWeights.layout).length := by
    intro hlast
    simp only [List.extract_eq_take_drop, List.length_map, List.length_take, List.length_drop]
    omega
  unfold replaceRange
  simp only [bind_eq_ok, hadd, Except.ok.injEq]
  constructor
  · rintro ⟨_, rfl, _, hrange, _, hlayouts, hresult⟩
    obtain ⟨_, hlast⟩ := checkRange_eq_ok.mp hrange
    exact ⟨hlast, (checkLayouts_eq_ok (hlength hlast)).mp hlayouts,
      (Except.ok.inj hresult).symm⟩
  · rintro ⟨hlast, hlayouts, rfl⟩
    exact ⟨stop, rfl, (), checkRange_eq_ok.mpr ⟨by omega, hlast⟩, (),
      (checkLayouts_eq_ok (hlength hlast)).mpr hlayouts, rfl⟩

theorem answers_replaceRange {layers blocks : List (LayerWeights α)} {start : Nat}
    (hlimit : start + blocks.length < Size.limit) :
    (replaceRange layers start blocks).Answers := by
  unfold replaceRange
  rw [Size.add_eq_ok.mpr ⟨hlimit, rfl⟩]
  exact (answers_checkRange _ _ _).bind fun _ _ =>
    (answers_checkLayouts _ _ _).bind fun _ _ => answers_ok _

/-- Reading a range of some layers and writing it into others succeeds exactly when it lies in
both and the layouts agree there. -/
theorem copyRange_eq_ok {given own result : List (LayerWeights α)} {start stop : Nat}
    (hlimit : stop < Size.limit) :
    (range given start stop >>= replaceRange own start) = .ok result ↔
      start ≤ stop ∧ stop ≤ given.length ∧ stop ≤ own.length ∧
        SameLayouts start stop given own ∧ result = overlay start stop given own := by
  have hlength : start ≤ stop → stop ≤ given.length →
      start + (given.extract start stop).length = stop := by
    intro hfirst hgiven
    rw [List.extract_eq_take_drop, List.length_take, List.length_drop]
    omega
  simp only [bind_eq_ok, range_eq_ok]
  constructor
  · rintro ⟨_, ⟨hfirst, hgiven, rfl⟩, hreplace⟩
    obtain ⟨hown, hlayouts, hresult⟩ :=
      (replaceRange_eq_ok (hlength hfirst hgiven) hlimit).mp hreplace
    exact ⟨hfirst, hgiven, hown, sameLayouts_iff.mpr hlayouts, hresult⟩
  · rintro ⟨hfirst, hgiven, hown, hlayouts, hresult⟩
    exact ⟨_, ⟨hfirst, hgiven, rfl⟩, (replaceRange_eq_ok (hlength hfirst hgiven) hlimit).mpr
      ⟨hown, sameLayouts_iff.mp hlayouts, hresult⟩⟩

theorem range_below {layers blocks : List (LayerWeights α)} {start stop : Nat}
    (hlimit : stop < Size.limit) (h : range layers start stop = .ok blocks) :
    start + blocks.length < Size.limit := by
  obtain ⟨hfirst, hlast, rfl⟩ := range_eq_ok.mp h
  rw [List.extract_eq_take_drop, List.length_take, List.length_drop]
  omega

/-- The end of a range that has been copied is a size. -/
theorem limit_of_copyRange {given own result : List (LayerWeights α)} {start stop : Nat}
    (h : (range given start stop >>= replaceRange own start) = .ok result) :
    stop < Size.limit := by
  obtain ⟨blocks, hrange, hreplace⟩ := bind_eq_ok.mp h
  obtain ⟨hfirst, hlast, rfl⟩ := range_eq_ok.mp hrange
  obtain ⟨_, hadd, _⟩ := bind_eq_ok.mp hreplace
  have hsize := (Size.add_eq_ok.mp hadd).1
  rw [List.extract_eq_take_drop, List.length_take, List.length_drop] at hsize
  omega

end PolicyGradient.Layers

namespace PolicyGradient.OptimizerState

open Outcome

variable {α : Type}

/-- The slots of the model's layers. -/
def modelSlots (state : OptimizerState α) : List (LayerWeights α) :=
  state.slots.headD []

/-- The state `own` with the slots of the layers from `start` to `stop` taken from `given`. -/
def overlay (start stop : Nat) (given own : OptimizerState α) : OptimizerState α :=
  { own with
    slots := own.slots.set modelGroup
      (Layers.overlay start stop given.modelSlots own.modelSlots) }

theorem group_eq_ok {state : OptimizerState α} {layers : List (LayerWeights α)} :
    state.group modelGroup = .ok layers ↔ state.slots ≠ [] ∧ layers = state.modelSlots := by
  obtain ⟨slots, step⟩ := state
  cases slots with
  | nil => simp [group, modelGroup]
  | cons first others =>
      simp only [group, modelGroup, modelSlots, List.getElem?_cons_zero, List.headD_cons,
        Except.ok.injEq, ne_eq, reduceCtorEq, not_false_eq_true, true_and]
      exact eq_comm

theorem answers_group (state : OptimizerState α) (index : Nat) :
    (state.group index).Answers := by
  unfold group
  split
  · exact answers_ok _
  · exact answers_failWith _

theorem withSlotRange_eq_ok {own result : OptimizerState α} {start : Nat}
    {blocks : List (LayerWeights α)} :
    own.withSlotRange modelGroup start blocks = .ok result ↔
      ∃ layers, own.slots ≠ [] ∧ Layers.replaceRange own.modelSlots start blocks = .ok layers ∧
        result = { own with slots := own.slots.set modelGroup layers } := by
  simp only [withSlotRange, bind_eq_ok, group_eq_ok]
  constructor
  · rintro ⟨_, ⟨hown, rfl⟩, layers, hreplace, hresult⟩
    exact ⟨layers, hown, hreplace, (Except.ok.inj hresult).symm⟩
  · rintro ⟨layers, hown, hreplace, rfl⟩
    exact ⟨_, ⟨hown, rfl⟩, layers, hreplace, rfl⟩

/-- A range of slots is copied exactly where a range of layers would be, between states that have
slots for a model. -/
theorem copySlots_eq_ok {given own result : OptimizerState α} {start stop : Nat}
    (hlimit : stop < Size.limit) :
    (given.slotRange modelGroup start stop >>= own.withSlotRange modelGroup start) =
        .ok result ↔
      given.slots ≠ [] ∧ own.slots ≠ [] ∧ start ≤ stop ∧ stop ≤ given.modelSlots.length ∧
        stop ≤ own.modelSlots.length ∧
        Layers.SameLayouts start stop given.modelSlots own.modelSlots ∧
        result = overlay start stop given own := by
  simp only [bind_eq_ok, slotRange, group_eq_ok, withSlotRange_eq_ok]
  constructor
  · rintro ⟨blocks, ⟨_, ⟨hgiven, rfl⟩, hrange⟩, layers, hown, hreplace, rfl⟩
    have hcopy := (Layers.copyRange_eq_ok hlimit).mp (bind_eq_ok.mpr ⟨blocks, hrange, hreplace⟩)
    obtain ⟨hfirst, hlast, hlast', hlayouts, rfl⟩ := hcopy
    exact ⟨hgiven, hown, hfirst, hlast, hlast', hlayouts, rfl⟩
  · rintro ⟨hgiven, hown, hfirst, hlast, hlast', hlayouts, rfl⟩
    obtain ⟨blocks, hrange, hreplace⟩ := bind_eq_ok.mp
      ((Layers.copyRange_eq_ok hlimit).mpr ⟨hfirst, hlast, hlast', hlayouts, rfl⟩)
    exact ⟨blocks, ⟨_, ⟨hgiven, rfl⟩, hrange⟩, _, hown, hreplace, rfl⟩

theorem answers_copySlots {given own : OptimizerState α} {start stop : Nat}
    (hlimit : stop < Size.limit) :
    (given.slotRange modelGroup start stop >>= own.withSlotRange modelGroup start).Answers := by
  refine ((answers_group _ _).bind fun _ _ => Layers.answers_range _ _ _).bind ?_
  intro blocks hblocks
  obtain ⟨layers, _, hrange⟩ := bind_eq_ok.mp hblocks
  refine (answers_group _ _).bind fun own _ =>
    (Layers.answers_replaceRange ?_).bind fun _ _ => answers_ok _
  exact Layers.range_below hlimit hrange

end PolicyGradient.OptimizerState
