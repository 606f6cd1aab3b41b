import PolicyGradient.Proofs.Acceptance
import PolicyGradient.Proofs.Loading
import PolicyGradient.Proofs.Replacement

/-!
What a mismatch of shapes shows.

A reported mismatch names the expected sizes and the actual ones.  Where these are the sizes of one
shape, they always differ.  A layer is reported with the sizes of all its parameters in a row, which
does not tell where one shape ends and the next begins, nor whether the values fill the shapes.  So
the mismatch of a layer is shown exactly if the sizes in a row differ for the first layer that does
not match (`mismatches_shown`).
-/

namespace PolicyGradient

open Outcome

variable {α β γ δ : Type}

/-- If the computation ends with a mismatch, the sizes that it names differ. -/
def Outcome.ShowsMismatch (x : Outcome β) : Prop :=
  ∀ what expected actual, x = failWith (.shapeMismatch what expected actual) → expected ≠ actual

namespace Outcome

theorem showsMismatch_ok (b : β) : ShowsMismatch (.ok b) :=
  nofun

theorem showsMismatch_faultWith (fault : Fault) : ShowsMismatch (faultWith fault : Outcome β) :=
  nofun

theorem showsMismatch_failWith_iff {what : Subject} {expected actual : List Nat} :
    ShowsMismatch (failWith (.shapeMismatch what expected actual) : Outcome β) ↔
      expected ≠ actual := by
  refine ⟨fun h => h _ _ _ rfl, fun hdiffer _ _ _ heq => ?_⟩
  cases heq
  exact hdiffer

/-- After a computation that shows its mismatches, only the next one matters. -/
theorem showsMismatch_bind_iff {x : Outcome β} (hx : x.ShowsMismatch) {f : β → Outcome γ} :
    (x >>= f).ShowsMismatch ↔ ∀ b, x = .ok b → (f b).ShowsMismatch := by
  cases x with
  | ok b =>
      constructor
      · rintro h _ ⟨⟩
        exact h
      · exact fun h => h b rfl
  | error e =>
      refine ⟨fun _ => nofun, fun _ what expected actual heq => hx what expected actual ?_⟩
      cases heq
      rfl

/-- Before computations that show their mismatches, only the first one matters. -/
theorem showsMismatch_bind_iff_left {x : Outcome β} {f : β → Outcome γ}
    (hf : ∀ b, x = .ok b → (f b).ShowsMismatch) : (x >>= f).ShowsMismatch ↔ x.ShowsMismatch := by
  cases x with
  | ok b => exact ⟨fun _ => showsMismatch_ok b, fun _ => hf b rfl⟩
  | error e =>
      constructor
      · intro h what expected actual heq
        cases heq
        exact h _ _ _ rfl
      · intro h what expected actual heq
        cases heq
        exact h _ _ _ rfl

theorem showsMismatch_map_iff {x : Outcome β} {f : β → γ} :
    ShowsMismatch (x.map f) ↔ x.ShowsMismatch := by
  have hmap : x.map f = x >>= fun b => .ok (f b) := by
    cases x with
    | ok b => rfl
    | error e => rfl
  rw [hmap]
  exact showsMismatch_bind_iff_left fun b _ => showsMismatch_ok (f b)

theorem showsMismatch_ensureShape (what : Subject) (actual expected : List Nat) :
    (ensureShape what actual expected).ShowsMismatch := by
  unfold ensureShape
  split
  · exact showsMismatch_ok ()
  case isFalse hdiffer => exact showsMismatch_failWith_iff.mpr (Ne.symm hdiffer)

end Outcome

namespace Size

theorem showsMismatch_bounded (n : Nat) : (bounded n).ShowsMismatch := by
  unfold bounded
  split
  · exact showsMismatch_ok n
  · exact showsMismatch_faultWith .overflow

theorem showsMismatch_foldlM_mul (shape : List Nat) (first : Nat) :
    (shape.foldlM mul first).ShowsMismatch := by
  induction shape generalizing first with
  | nil => exact showsMismatch_ok first
  | cons d ds ih =>
      rw [List.foldlM_cons]
      exact (showsMismatch_bind_iff (showsMismatch_bounded _)).mpr fun k _ => ih k

end Size

/-- Data of another length than the shape's is reported with both numbers. -/
theorem Tensor.showsMismatch_ofData? {rank : Nat} (dims : Vector Nat rank) (data : Array α) :
    (ofData? dims data).ShowsMismatch := by
  have hproduct := Size.showsMismatch_foldlM_mul dims.toList 1
  unfold ofData?
  split
  case h_1 e he =>
    rintro what expected actual ⟨⟩
    exact hproduct _ _ _ he
  case h_2 count hcount =>
    have hvolume : count = Size.volume dims.toList := Size.eq_volume_of_product hcount
    split
    · split
      · exact showsMismatch_ok _
      · exact showsMismatch_faultWith .overflow
    case isFalse hsize =>
      refine showsMismatch_failWith_iff.mpr fun hsame => hsize ?_
      rw [← hvolume]
      exact (List.cons.inj hsame).1.symm

/-- Values of another number than the shape's positions are reported with both numbers. -/
theorem ParamBlock.showsMismatch_make? (shape : List Nat) (values : Array α) :
    (make? shape values).ShowsMismatch := by
  refine (showsMismatch_bind_iff (Size.showsMismatch_foldlM_mul shape 1)).mpr fun count _ => ?_
  split
  · exact showsMismatch_ok _
  case isFalse hsize =>
    exact showsMismatch_failWith_iff.mpr fun hsame => hsize (List.cons.inj hsame).1

section

variable {R P : γ → δ → Prop} {x : γ} {y : δ} {xs : List γ} {ys : List δ}

/-- If two lists have a first pair that does not match, this pair has a property. -/
def AtFirstUnmatched (R P : γ → δ → Prop) (xs : List γ) (ys : List δ) : Prop :=
  ∀ i x y, FirstUnmatched R xs ys i x y → P x y

theorem atFirstUnmatched_nil_left (ys : List δ) : AtFirstUnmatched R P [] ys :=
  nofun

theorem atFirstUnmatched_nil_right (xs : List γ) : AtFirstUnmatched R P xs [] :=
  nofun

theorem atFirstUnmatched_cons_of_matched (h : R x y) :
    AtFirstUnmatched R P (x :: xs) (y :: ys) ↔ AtFirstUnmatched R P xs ys := by
  refine ⟨fun hall i a b hfirst => hall _ _ _ (.cons h hfirst), ?_⟩
  intro hall i a b hfirst
  cases hfirst with
  | head hunmatched => exact absurd h hunmatched
  | cons _ hfirst => exact hall _ _ _ hfirst

theorem atFirstUnmatched_cons_of_unmatched (h : ¬ R x y) :
    AtFirstUnmatched R P (x :: xs) (y :: ys) ↔ P x y := by
  refine ⟨fun hall => hall _ _ _ (.head h xs ys), ?_⟩
  intro hhead i a b hfirst
  cases hfirst with
  | head => exact hhead
  | cons hmatched => exact absurd hmatched h

end

namespace LayerWeights

/-- The sizes of all parameters in a row are not the same. -/
def SizesDiffer (layer other : LayerWeights α) : Prop :=
  layer.layout.flatten ≠ other.layout.flatten

end LayerWeights

namespace Layers

/-- The first layers of two lists that have other shapes differ in the sizes in a row. -/
abbrev ToldApart (own given : List (LayerWeights α)) : Prop :=
  AtFirstUnmatched LayerWeights.SameLayout LayerWeights.SizesDiffer own given

theorem showsMismatch_checkLayouts_iff (first : Nat) (own given : List (LayerWeights α)) :
    (checkLayouts first (own.map LayerWeights.layout)
      (given.map LayerWeights.layout)).ShowsMismatch ↔ ToldApart own given := by
  induction own generalizing first given with
  | nil => exact ⟨fun _ => atFirstUnmatched_nil_left given, fun _ => showsMismatch_ok ()⟩
  | cons layer own ih =>
      cases given with
      | nil => exact ⟨fun _ => atFirstUnmatched_nil_right _, fun _ => showsMismatch_ok ()⟩
      | cons other given =>
          rw [List.map_cons, List.map_cons, checkLayouts]
          by_cases hsame : layer.SameLayout other
          · rw [if_pos hsame]
            exact (ih _ _).trans (atFirstUnmatched_cons_of_matched hsame).symm
          · rw [if_neg hsame, showsMismatch_failWith_iff]
            exact (atFirstUnmatched_cons_of_unmatched (P := LayerWeights.SizesDiffer) hsame).symm

theorem showsMismatch_checkRange (start stop count : Nat) :
    (checkRange start stop count).ShowsMismatch := by
  unfold checkRange
  split
  · exact nofun
  · exact showsMismatch_ok ()

/-- Where the layers from `start` on are there, blocks for them are told apart from them. -/
def RangeToldApart (own : List (LayerWeights α)) (start : Nat) (blocks : List (LayerWeights α)) :
    Prop :=
  start + blocks.length < Size.limit → start + blocks.length ≤ own.length →
    ToldApart (own.extract start (start + blocks.length)) blocks

theorem showsMismatch_replaceRange_iff (own : List (LayerWeights α)) (start : Nat)
    (blocks : List (LayerWeights α)) :
    (replaceRange own start blocks).ShowsMismatch ↔ RangeToldApart own start blocks := by
  by_cases hlimit : start + blocks.length < Size.limit
  · rw [replaceRange_eq hlimit, showsMismatch_bind_iff (showsMismatch_checkRange _ _ _)]
    have hrange : checkRange start (start + blocks.length) own.length = .ok () ↔
        start + blocks.length ≤ own.length :=
      checkRange_eq_ok.trans (and_iff_right (Nat.le_add_right _ _))
    have hlayouts := showsMismatch_checkLayouts_iff start
      (own.extract start (start + blocks.length)) blocks
    have hrest := (showsMismatch_bind_iff_left fun _ _ => showsMismatch_ok
      (own.take start ++ blocks ++ own.drop (start + blocks.length))).trans hlayouts
    constructor
    · exact fun h _ hinside => hrest.mp (h () (hrange.mpr hinside))
    · exact fun h _ hok => hrest.mpr (h hlimit (hrange.mp hok))
  · have hadd : Size.add start blocks.length = faultWith .overflow := if_neg hlimit
    rw [replaceRange, hadd]
    exact ⟨fun _ hfits => absurd hfits hlimit, fun _ => showsMismatch_faultWith .overflow⟩

end Layers

namespace OptimizerState

/-- In an existing group the range is told apart. -/
theorem showsMismatch_withSlotRange_iff (state : OptimizerState α) (index start : Nat)
    (blocks : List (LayerWeights α)) :
    (state.withSlotRange index start blocks).ShowsMismatch ↔
      ∀ layers, state.slots[index]? = some layers →
        Layers.RangeToldApart layers start blocks := by
  cases hgroup : state.slots[index]? with
  | none =>
      refine ⟨fun _ _ hnone => absurd hnone (Option.some_ne_none _).symm, fun _ => ?_⟩
      rw [withSlotRange, group, hgroup]
      intro what expected actual hrange
      cases hrange
  | some layers =>
      rw [withSlotRange_of_group hgroup, showsMismatch_map_iff,
        Layers.showsMismatch_replaceRange_iff]
      constructor
      · intro h found hfound
        rw [← Option.some.inj hfound]
        exact h
      · intro h
        exact h layers rfl

end OptimizerState

namespace Model

theorem showsMismatch_fillLayers (layers : List (List (Param α)))
    (weights : List (LayerWeights α)) : (fillLayers layers weights).ShowsMismatch := by
  intro what expected actual hfill
  obtain ⟨⟨params, layer⟩, _, hlayer⟩ := error_of_mapM hfill
  obtain ⟨⟨param, block⟩, _, hblock⟩ := error_of_mapM hlayer
  cases Param.error_of_fill hblock

theorem showsMismatch_load_iff (model : Model α) (weights : ModelWeights α) :
    (model.load weights).ShowsMismatch ↔
      (weights.length = model.depth →
        Layers.ToldApart model.weights.layers weights.layers) := by
  by_cases hcount : weights.length = model.depth
  · have hload : model.load weights = do
        Layers.checkLayouts 0 (model.weights.layers.map LayerWeights.layout)
          (weights.layers.map LayerWeights.layout)
        return { model with layers := ← fillLayers model.layers weights.layers } := by
      rw [load, ensureShape, if_pos (by rw [hcount])]
      rfl
    rw [hload, forall_prop_of_true hcount, ← Layers.showsMismatch_checkLayouts_iff 0]
    refine showsMismatch_bind_iff_left fun _ _ => ?_
    exact (showsMismatch_bind_iff_left fun _ _ => showsMismatch_ok _).mpr
      (showsMismatch_fillLayers model.layers weights.layers)
  · rw [load_of_count hcount, showsMismatch_failWith_iff]
    refine ⟨fun _ hequal => absurd hequal hcount, fun _ hsame => hcount ?_⟩
    exact (List.cons.inj hsame).1.symm

end Model

namespace Adam

/-- The shapes that the slots of a layer should have are not those that they have, when all sizes
are written in a row, or the sizes of a slot cannot be multiplied out. -/
def SlotsShown (params : List (Param α)) (slots : LayerWeights α) : Prop :=
  ∀ filled, allFilled slots.params = .ok filled →
    ((Model.weightsOf params).layout ++ (Model.weightsOf params).layout).flatten ≠
      slots.layout.flatten

theorem showsMismatch_allFilled (blocks : List (ParamBlock α)) :
    (allFilled blocks).ShowsMismatch := by
  induction blocks with
  | nil => exact showsMismatch_ok true
  | cons block blocks ih =>
      refine (showsMismatch_bind_iff (Size.showsMismatch_foldlM_mul _ 1)).mpr fun count _ => ?_
      split
      · exact ih
      · exact showsMismatch_ok false

theorem showsMismatch_checkSlots_iff (first : Nat) (layers : List (List (Param α)))
    (group : List (LayerWeights α)) :
    (checkSlots first (layouts layers) group).ShowsMismatch ↔
      AtFirstUnmatched SlotsFit SlotsShown layers group := by
  induction layers generalizing first group with
  | nil => exact ⟨fun _ => atFirstUnmatched_nil_left group, fun _ => showsMismatch_ok ()⟩
  | cons params layers ih =>
      cases group with
      | nil => exact ⟨fun _ => atFirstUnmatched_nil_right _, fun _ => showsMismatch_ok ()⟩
      | cons slots group =>
          by_cases hfits : SlotsFit params slots
          · rw [checkSlots_cons hfits, ih, atFirstUnmatched_cons_of_matched hfits]
          · rw [checkSlots_of_unfit hfits, atFirstUnmatched_cons_of_unmatched hfits,
              showsMismatch_bind_iff (showsMismatch_allFilled _)]
            simp only [showsMismatch_failWith_iff]
            rfl

/-- The first slots of the state that do not fit a layer of the model are told apart from it. -/
def StateToldApart (model : Model α) (state : OptimizerState α) : Prop :=
  ∀ group, state.slots.head? = some group → group.length = model.depth →
    AtFirstUnmatched SlotsFit SlotsShown model.layers group

theorem showsMismatch_checkState_iff (model : Model α) (state : OptimizerState α) :
    (checkState model state).ShowsMismatch ↔ StateToldApart model state := by
  obtain ⟨slots, step⟩ := state
  cases slots with
  | nil => exact ⟨fun _ => nofun, fun _ => nofun⟩
  | cons group others =>
      have hhead : StateToldApart model ⟨group :: others, step⟩ ↔ (group.length = model.depth →
          AtFirstUnmatched SlotsFit SlotsShown model.layers group) := by
        simp [StateToldApart]
      rw [hhead]
      by_cases hcount : group.length = model.depth
      · have hensure : ensureShape .slotLayers [group.length] [model.depth] = .ok () :=
          if_pos (by rw [hcount])
        rw [forall_prop_of_true hcount, ← showsMismatch_checkSlots_iff 0, ← layout_eq_layouts]
        show (ensureShape .slotLayers [group.length] [model.depth] >>= _).ShowsMismatch ↔ _
        rw [hensure]
        rfl
      · rw [checkState_of_count hcount, showsMismatch_failWith_iff]
        refine ⟨fun _ hequal => absurd hequal hcount, fun _ hsame => hcount ?_⟩
        exact (List.cons.inj hsame).1.symm

end Adam

/-- The mismatch of a single shape always shows one.  That of a layer does exactly if the layer is
told apart by its sizes in a row. -/
theorem mismatches_shown {rank : Nat} (what : Subject) (actual expected shape : List Nat)
    (dims : Vector Nat rank) (values : Array α) (weights : ModelWeights α)
    (state : OptimizerState α) (model : Model α) (index start : Nat)
    (blocks : List (LayerWeights α)) :
    (ensureShape what actual expected).ShowsMismatch ∧
      (Tensor.ofData? dims values).ShowsMismatch ∧
      (ParamBlock.make? shape values).ShowsMismatch ∧
      ((weights.replaceRange start blocks).ShowsMismatch ↔
        Layers.RangeToldApart weights.layers start blocks) ∧
      ((state.withSlotRange index start blocks).ShowsMismatch ↔
        ∀ layers, state.slots[index]? = some layers →
          Layers.RangeToldApart layers start blocks) ∧
      ((model.load weights).ShowsMismatch ↔
        (weights.length = model.depth →
          Layers.ToldApart model.weights.layers weights.layers)) ∧
      ((Adam.checkState model state).ShowsMismatch ↔ Adam.StateToldApart model state) := by
  refine ⟨showsMismatch_ensureShape _ _ _, Tensor.showsMismatch_ofData? _ _,
    ParamBlock.showsMismatch_make? _ _, ?_, state.showsMismatch_withSlotRange_iff _ _ _,
    model.showsMismatch_load_iff _, Adam.showsMismatch_checkState_iff _ _⟩
  rw [ModelWeights.replaceRange_eq_map, showsMismatch_map_iff]
  exact Layers.showsMismatch_replaceRange_iff _ _ _

namespace Adam.Shelf

/-- As many parameters as the layer has, with the same sizes in a row. -/
def regrouped : LayerWeights Float32 :=
  ⟨[⟨[1], #[0.5]⟩, ⟨[2, 2], #[0.25, 0.75, 1, 2]⟩]⟩

/-- Slots of the right shapes, the first of which lacks a value. -/
def unfilled : OptimizerState Float32 :=
  holding [⟨[1, 2], #[1]⟩, ⟨[2], #[3, 4]⟩, ⟨[1, 2], #[5, 6]⟩, ⟨[2], #[7, 8]⟩]

/-- Layers that are refused are reported with the sizes that they should have. -/
theorem not_showsMismatch_shelf :
    ¬ (model.weights.replaceRange 0 [regrouped]).ShowsMismatch ∧
      ¬ ((⟨[model.weights.layers], 0⟩ : OptimizerState Float32).withSlotRange 0 0
        [regrouped]).ShowsMismatch ∧
      ¬ (model.load ⟨[regrouped]⟩).ShowsMismatch ∧
      ¬ (checkState model unfilled).ShowsMismatch :=
  ⟨fun h => h (.layerLayout 0) [1, 2, 2] [1, 2, 2] rfl rfl,
    fun h => h (.layerLayout 0) [1, 2, 2] [1, 2, 2] rfl rfl,
    fun h => h (.layerLayout 0) [1, 2, 2] [1, 2, 2] rfl rfl,
    fun h => h (.layerSlots 0) [1, 2, 2, 1, 2, 2] [1, 2, 2, 1, 2, 2] rfl rfl⟩

end Adam.Shelf

end PolicyGradient
