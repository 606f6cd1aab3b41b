import PolicyGradient.Proofs.Load
import PolicyGradient.Proofs.Mismatch

/-!
Replacing a range of layers.

`Layers.Replaced` says how a replacement ends, case by case: with exactly the range replaced, with
an error about the range, or with an error about the first layer of another layout.  In place the
blocks are written one after the other (`Layers.overwrite`), after all checks, so a replacement
that fails leaves everything as it was (`commitsTo_replaceInPlace`).
-/

namespace PolicyGradient

open Outcome

namespace Layers

variable {α : Type}

/-- There is a layer for each of the blocks from `start` on, and it has the block's layout. -/
def Replaceable (start : Nat) (blocks own : List (LayerWeights α)) : Prop :=
  start + blocks.length ≤ own.length ∧
    List.Forall₂ LayerWeights.SameLayout (own.extract start (start + blocks.length)) blocks

/-- How replacing the layers from `start` on by some blocks ends. -/
structure Replaced (start : Nat) (blocks own : List (LayerWeights α))
    (outcome : Outcome (List (LayerWeights α))) : Prop where
  /-- It succeeds exactly where the blocks fit, and replaces exactly the range. -/
  ok_iff : ∀ result, outcome = .ok result ↔ Replaceable start blocks own ∧
    result = own.take start ++ blocks ++ own.drop (start + blocks.length)
  /-- A range that does not lie inside is reported. -/
  outside : own.length < start + blocks.length →
    outcome = failWith (.layerRange start (start + blocks.length) own.length)
  /-- Otherwise the first layer of another layout is reported. -/
  mismatch : start + blocks.length ≤ own.length → ¬ Replaceable start blocks own →
    ∃ i layer block, FirstUnmatched LayerWeights.SameLayout
        (own.extract start (start + blocks.length)) blocks i layer block ∧
      outcome = failWith (.shapeMismatch (.layerLayout (start + i)) layer.layout.flatten
        block.layout.flatten)

theorem length_extract {start : Nat} {blocks own : List (LayerWeights α)}
    (h : start + blocks.length ≤ own.length) :
    (own.extract start (start + blocks.length)).length = blocks.length := by
  rw [List.extract_eq_take_drop, List.length_take, List.length_drop]
  omega

theorem replaceRange_eq {start : Nat} {blocks : List (LayerWeights α)}
    (hlimit : start + blocks.length < Size.limit) (own : List (LayerWeights α)) :
    replaceRange own start blocks = do
      checkRange start (start + blocks.length) own.length
      checkLayouts start ((own.extract start (start + blocks.length)).map LayerWeights.layout)
        (blocks.map LayerWeights.layout)
      return own.take start ++ blocks ++ own.drop (start + blocks.length) := by
  rw [replaceRange, Size.add_eq_ok.mpr ⟨hlimit, rfl⟩]
  rfl

theorem replaced_replaceRange {start : Nat} {blocks : List (LayerWeights α)}
    (hlimit : start + blocks.length < Size.limit) (own : List (LayerWeights α)) :
    Replaced start blocks own (replaceRange own start blocks) := by
  refine ⟨fun result => ?_, fun houtside => ?_, fun hinside hunfit => ?_⟩
  · rw [replaceRange_eq_ok rfl hlimit, Replaceable, map_eq_iff_forall₂, and_assoc]
  · rw [replaceRange_eq hlimit, checkRange, if_pos (Or.inr houtside)]
    rfl
  · rcases forall₂_or_first (length_extract hinside) with hall | ⟨i, layer, block, hfirst⟩
    · exact absurd ⟨hinside, hall⟩ hunfit
    · have hrange : checkRange start (start + blocks.length) own.length = .ok () :=
        checkRange_eq_ok.mpr ⟨Nat.le_add_right _ _, hinside⟩
      refine ⟨i, layer, block, hfirst, ?_⟩
      rw [replaceRange_eq hlimit, hrange, checkLayouts_of_first hfirst]
      rfl

/-- Filled blocks in the place of filled layers leave all layers filled. -/
theorem Replaced.filled {start : Nat} {blocks own result : List (LayerWeights α)}
    {outcome : Outcome (List (LayerWeights α))} (h : Replaced start blocks own outcome)
    (hok : outcome = .ok result) (hown : ∀ layer ∈ own, layer.IsFilled)
    (hblocks : ∀ block ∈ blocks, block.IsFilled) : ∀ layer ∈ result, layer.IsFilled := by
  obtain ⟨_, rfl⟩ := (h.ok_iff result).mp hok
  intro layer hlayer
  simp only [List.mem_append] at hlayer
  rcases hlayer with (hfirst | hmiddle) | hlast
  · exact hown layer (List.mem_of_mem_take hfirst)
  · exact hblocks layer hmiddle
  · exact hown layer (List.mem_of_mem_drop hlast)

/-- Write blocks over the layers from a place on, one after the other. -/
def overwrite : (place : Nat) → List (LayerWeights α) → Action (List (LayerWeights α)) Unit
  | _, [] => pure ()
  | place, block :: blocks => do
      modify fun layers => layers.set place block
      overwrite (place + 1) blocks

theorem run_overwrite {place : Nat} {blocks layers : List (LayerWeights α)}
    (h : place + blocks.length ≤ layers.length) :
    (overwrite place blocks).run layers =
      (.ok (), layers.take place ++ blocks ++ layers.drop (place + blocks.length)) := by
  induction blocks generalizing place layers with
  | nil => simp [overwrite]
  | cons block blocks ih =>
      rw [List.length_cons] at h ⊢
      have hplace : place < layers.length := by omega
      have hrest : place + 1 + blocks.length ≤ (layers.set place block).length := by
        rw [List.length_set]
        omega
      have hbefore : (layers.set place block).take (place + 1) = layers.take place ++ [block] := by
        rw [List.set_eq_take_append_cons_drop, if_pos hplace, List.take_append,
          List.take_of_length_le (by rw [List.length_take]; omega)]
        simp [Nat.min_eq_left (Nat.le_of_lt hplace)]
      have hafter : (layers.set place block).drop (place + 1 + blocks.length) =
          layers.drop (place + (blocks.length + 1)) := by
        rw [List.drop_set_of_lt (by omega)]
        congr 1
        omega
      rw [overwrite, Action.run_bind, Action.run_modify]
      show (overwrite (place + 1) blocks).run (layers.set place block) = _
      rw [ih hrest, hbefore, hafter]
      simp

/-- Replace layers in place: check the range, then all layouts, and only then write. -/
def replaceInPlace (start : Nat) (blocks : List (LayerWeights α)) :
    Action (List (LayerWeights α)) Unit := do
  let stop ← Action.lift (Size.add start blocks.length)
  Action.lift (checkRange start stop (← get).length)
  Action.lift (checkLayouts start (((← get).extract start stop).map LayerWeights.layout)
    (blocks.map LayerWeights.layout))
  overwrite start blocks

/-- In place, layers are replaced as a whole or not at all. -/
theorem commitsTo_replaceInPlace (start : Nat) (blocks layers : List (LayerWeights α)) :
    (replaceInPlace start blocks).CommitsTo layers (replaceRange layers start blocks) := by
  refine .lift_bind fun stop hstop => .get_bind (.lift_bind fun _ hrange => .get_bind
    (.lift_bind fun _ _ => ?_))
  obtain ⟨_, rfl⟩ := Size.add_eq_ok.mp hstop
  exact run_overwrite (checkRange_eq_ok.mp hrange).2

end Layers

namespace ModelWeights

variable {α : Type}

theorem replaceRange_eq_map (weights : ModelWeights α) (start : Nat)
    (blocks : List (LayerWeights α)) :
    weights.replaceRange start blocks =
      (Layers.replaceRange weights.layers start blocks).map ModelWeights.mk := by
  unfold replaceRange
  cases Layers.replaceRange weights.layers start blocks with
  | error e => rfl
  | ok layers => rfl

/-- Replace layers of the weights in place. -/
def replaceInPlace (start : Nat) (blocks : List (LayerWeights α)) : Action (ModelWeights α) Unit :=
  Action.on layers (fun layers _ => ⟨layers⟩) (Layers.replaceInPlace start blocks)

/-- Weights take blocks in the place of a range of their layers, as a whole or not at all. -/
structure TakesRange (start : Nat) (blocks : List (LayerWeights α)) (weights : ModelWeights α) :
    Prop where
  replaced : Layers.Replaced start blocks weights.layers
    ((weights.replaceRange start blocks).map layers)
  inPlace : (replaceInPlace start blocks).CommitsTo weights (weights.replaceRange start blocks)
  filled : ∀ result, weights.replaceRange start blocks = .ok result → weights.IsFilled →
    (∀ block ∈ blocks, block.IsFilled) → result.IsFilled

theorem takesRange {start : Nat} {blocks : List (LayerWeights α)}
    (hlimit : start + blocks.length < Size.limit) (weights : ModelWeights α) :
    weights.TakesRange start blocks := by
  have hreplaced := Layers.replaced_replaceRange hlimit weights.layers
  have hlayers : (weights.replaceRange start blocks).map layers =
      Layers.replaceRange weights.layers start blocks := by
    rw [replaceRange_eq_map]
    cases Layers.replaceRange weights.layers start blocks with
    | error e => rfl
    | ok layers => rfl
  rw [← hlayers] at hreplaced
  refine ⟨hreplaced, ?_, fun result hresult => hreplaced.filled (by rw [hresult]; rfl)⟩
  rw [replaceRange_eq_map]
  exact (Layers.commitsTo_replaceInPlace start blocks weights.layers).on rfl

end ModelWeights

namespace OptimizerState

variable {α : Type}

theorem withSlotRange_of_group {state : OptimizerState α} {index : Nat}
    {group : List (LayerWeights α)} (hgroup : state.slots[index]? = some group) (start : Nat)
    (blocks : List (LayerWeights α)) :
    state.withSlotRange index start blocks =
      (Layers.replaceRange group start blocks).map fun layers =>
        { state with slots := state.slots.set index layers } := by
  unfold withSlotRange OptimizerState.group
  rw [hgroup]
  show (Layers.replaceRange group start blocks >>= _) = _
  cases Layers.replaceRange group start blocks with
  | error e => rfl
  | ok layers => rfl

/-- A state takes blocks in the place of a range of layers of one slot group, and keeps all other
groups and the step. -/
structure TakesRange (index start : Nat) (blocks : List (LayerWeights α))
    (state : OptimizerState α) : Prop where
  noGroup : state.slots[index]? = none → state.withSlotRange index start blocks =
    failWith (.config (.noSlotGroup state.slots.length index))
  replaced : ∀ group, state.slots[index]? = some group → Layers.Replaced start blocks group
    ((state.withSlotRange index start blocks).map fun result => result.slots.getD index [])
  kept : ∀ result, state.withSlotRange index start blocks = .ok result →
    result.step = state.step ∧ result.slots.length = state.slots.length ∧
      ∀ other, other ≠ index → result.slots[other]? = state.slots[other]?
  filled : ∀ result, state.withSlotRange index start blocks = .ok result →
    (∀ layer ∈ state.slots.getD index [], layer.IsFilled) → (∀ block ∈ blocks, block.IsFilled) →
      ∀ layer ∈ result.slots.getD index [], layer.IsFilled

/-- A group that is not there cannot be replaced. -/
theorem takesRange_of_none {state : OptimizerState α} {index : Nat}
    (hgroup : state.slots[index]? = none) (start : Nat) (blocks : List (LayerWeights α)) :
    state.TakesRange index start blocks := by
  have hfails : state.withSlotRange index start blocks =
      failWith (.config (.noSlotGroup state.slots.length index)) := by
    unfold withSlotRange group
    rw [hgroup]
    rfl
  refine ⟨fun _ => hfails, fun group hsome => ?_, fun result hok => ?_, fun result hok => ?_⟩
  · rw [hgroup] at hsome
    cases hsome
  · rw [hfails] at hok
    cases hok
  · rw [hfails] at hok
    cases hok

/-- A replacement in a group keeps the other groups and the step. -/
theorem kept_of_withSlotRange {state result : OptimizerState α} {index start : Nat}
    {group blocks : List (LayerWeights α)} (hgroup : state.slots[index]? = some group)
    (h : state.withSlotRange index start blocks = .ok result) :
    result.step = state.step ∧ result.slots.length = state.slots.length ∧
      ∀ other, other ≠ index → result.slots[other]? = state.slots[other]? := by
  rw [withSlotRange_of_group hgroup] at h
  cases hlayers : Layers.replaceRange group start blocks with
  | error e =>
      rw [hlayers] at h
      cases h
  | ok layers =>
      rw [hlayers] at h
      cases h
      exact ⟨rfl, List.length_set, fun other hother => List.getElem?_set_ne hother.symm⟩

theorem takesRange_of_group {state : OptimizerState α} {index start : Nat}
    {group blocks : List (LayerWeights α)} (hlimit : start + blocks.length < Size.limit)
    (hgroup : state.slots[index]? = some group) : state.TakesRange index start blocks := by
  have hindex : index < state.slots.length := (List.getElem?_eq_some_iff.mp hgroup).1
  have hslots : (state.withSlotRange index start blocks).map
      (fun result => result.slots.getD index []) = Layers.replaceRange group start blocks := by
    rw [withSlotRange_of_group hgroup]
    cases Layers.replaceRange group start blocks with
    | error e => rfl
    | ok layers => simp [Except.map, hindex]
  have hreplaced := Layers.replaced_replaceRange hlimit group
  rw [← hslots] at hreplaced
  refine ⟨fun hnone => ?_, fun other hother => ?_, fun result => kept_of_withSlotRange hgroup,
    fun result hok => ?_⟩
  · rw [hgroup] at hnone
    cases hnone
  · rw [hgroup] at hother
    cases hother
    exact hreplaced
  · have hown : state.slots.getD index [] = group := by
      rw [List.getD_eq_getElem?_getD, hgroup]
      rfl
    rw [hown]
    exact hreplaced.filled (by rw [hok]; rfl)

theorem takesRange {start : Nat} {blocks : List (LayerWeights α)}
    (hlimit : start + blocks.length < Size.limit) (index : Nat) (state : OptimizerState α) :
    state.TakesRange index start blocks := by
  cases hgroup : state.slots[index]? with
  | none => exact takesRange_of_none hgroup start blocks
  | some group => exact takesRange_of_group hlimit hgroup

end OptimizerState

/-- Weights and optimizer states take blocks in the place of a range of layers exactly where the
range lies inside and all layouts agree. -/
theorem takes_ranges {α : Type} {start : Nat} {blocks : List (LayerWeights α)}
    (hlimit : start + blocks.length < Size.limit) :
    (∀ weights : ModelWeights α, weights.TakesRange start blocks) ∧
      ∀ (state : OptimizerState α) (index : Nat), state.TakesRange index start blocks :=
  ⟨ModelWeights.takesRange hlimit, fun state index => state.takesRange hlimit index⟩

namespace Layers.Line

/-- A layer with one parameter of some length. -/
def plain (length value : Nat) : LayerWeights Nat :=
  ⟨[⟨[length], Array.replicate length value⟩]⟩

/-- The last two layers are replaced by blocks of their layouts.  Of other blocks the second is too
long for its place, and then the first is not written either. -/
theorem takes_ranges_plain :
    1 + [plain 1 7, plain 2 8].length < Size.limit ∧
      1 + [plain 1 7, plain 3 8].length < Size.limit ∧
      (ModelWeights.replaceInPlace 1 [plain 1 7, plain 2 8]).run
          ⟨[plain 1 0, plain 1 1, plain 2 2]⟩ = (.ok (), ⟨[plain 1 0, plain 1 7, plain 2 8]⟩) ∧
      (ModelWeights.replaceInPlace 1 [plain 1 7, plain 3 8]).run
          ⟨[plain 1 0, plain 1 1, plain 2 2]⟩ =
        (failWith (.shapeMismatch (.layerLayout 2) [2] [3]),
          ⟨[plain 1 0, plain 1 1, plain 2 2]⟩) := by
  have hfits : 1 + [plain 1 7, plain 2 8].length < Size.limit := by decide
  have hlong : 1 + [plain 1 7, plain 3 8].length < Size.limit := by decide
  have htaken := ((takes_ranges hfits).1 ⟨[plain 1 0, plain 1 1, plain 2 2]⟩).inPlace
  have hkept := ((takes_ranges hlong).1 ⟨[plain 1 0, plain 1 1, plain 2 2]⟩).inPlace
  exact ⟨hfits, hlong, htaken, hkept⟩

end Layers.Line

end PolicyGradient
