import PolicyGradient.Proofs.ListForms
import PolicyGradient.Proofs.Loading
import PolicyGradient.Proofs.Replacement

/-!
Layers that are not there.

Layers are addressed by a range or by an index.  An address that does not lie inside is reported,
with the range it stands for (`Reports`), by every operation that can tell where the range ends.
Reading a range is given its end.  Replacing a range and reading one layer have to compute it, and
an end that is no size is a fault (`addresses_reported`).
-/

namespace PolicyGradient

open Outcome

variable {α β γ : Type}

/-- The range from `start` to `stop` is reversed or does not lie inside `count` layers. -/
def Outside (start stop count : Nat) : Prop :=
  stop < start ∨ count < stop

/-- The computation ends with a result or an error, and with an error about a range exactly where
the range from `start` to `stop` lies outside. -/
structure Reports (start stop count : Nat) (x : Outcome β) : Prop where
  answers : x.Answers
  range_iff : (∃ first last total, x = failWith (.layerRange first last total)) ↔
    Outside start stop count
  /-- The error names the range. -/
  outside : Outside start stop count → x = failWith (.layerRange start stop count)

/-- The computation reports ranges under a condition, and otherwise overflows. -/
structure ReportsIf (fits : Prop) (start stop count : Nat) (x : Outcome β) : Prop where
  reports_iff : Reports start stop count x ↔ fits
  overflow : ¬ fits → x = faultWith .overflow

/-- The computation reports a slot group that is not there, and with the layers of one that is
there it does what it should. -/
structure OptimizerState.OnGroup (state : OptimizerState α) (index : Nat) (x : Outcome β)
    (holds : (count : Nat) → Prop) : Prop where
  missing : state.slots[index]? = none →
    x = failWith (.config (.noSlotGroup state.slots.length index))
  present : ∀ layers, state.slots[index]? = some layers → holds layers.length

section

variable {start stop count : Nat} {x : Outcome β}

theorem not_reports_fault (fault : Fault) :
    ¬ Reports start stop count (faultWith fault : Outcome β) :=
  fun h => h.answers fault rfl

/-- A result or a mismatch is right for a range that lies inside. -/
theorem reports_of_inside (hinside : ¬ Outside start stop count) (h : x.OnlyMismatches) :
    Reports start stop count x := by
  refine ⟨?_, ⟨?_, fun hout => absurd hout hinside⟩, fun hout => absurd hout hinside⟩
  · rcases h with ⟨b, rfl⟩ | ⟨what, expected, actual, rfl⟩
    · exact answers_ok b
    · exact answers_failWith _
  · rintro ⟨first, last, total, rfl⟩
    rcases h with ⟨b, hb⟩ | ⟨what, expected, actual, hmismatch⟩
    · cases hb
    · cases hmismatch

/-- An error that names the range is right for one that lies outside. -/
theorem reports_of_outside (houtside : Outside start stop count)
    (h : x = failWith (.layerRange start stop count)) : Reports start stop count x := by
  refine ⟨?_, ⟨fun _ => houtside, fun _ => ⟨start, stop, count, h⟩⟩, fun _ => h⟩
  rw [h]
  exact answers_failWith _

theorem reportsIf_of {fits : Prop} (hreports : fits → Reports start stop count x)
    (hoverflow : ¬ fits → x = faultWith .overflow) : ReportsIf fits start stop count x := by
  refine ⟨⟨fun h => ?_, hreports⟩, hoverflow⟩
  by_contra hfits
  rw [hoverflow hfits] at h
  exact not_reports_fault _ h

theorem Reports.map (h : Reports start stop count x) (g : β → γ) :
    Reports start stop count (x.map g) := by
  by_cases houtside : Outside start stop count
  · rw [h.outside houtside]
    exact reports_of_outside houtside rfl
  · refine ⟨?_, ⟨?_, fun hout => absurd hout houtside⟩, fun hout => absurd hout houtside⟩
    · cases x with
      | ok b => exact answers_ok (g b)
      | error e =>
          intro fault hfault
          cases hfault
          exact h.answers fault rfl
    · rintro ⟨first, last, total, hmap⟩
      cases x with
      | ok b => cases hmap
      | error e =>
          cases hmap
          exact h.range_iff.mp ⟨first, last, total, rfl⟩

theorem ReportsIf.map {fits : Prop} (h : ReportsIf fits start stop count x) (g : β → γ) :
    ReportsIf fits start stop count (x.map g) :=
  reportsIf_of (fun hfits => (h.reports_iff.mpr hfits).map g)
    fun hfits => by rw [h.overflow hfits]; rfl

end

namespace Layers

theorem onlyMismatches_checkLayouts (first : Nat) (expected actual : List (List (List Nat))) :
    (checkLayouts first expected actual).OnlyMismatches := by
  induction expected generalizing first actual with
  | nil => exact .inl ⟨(), rfl⟩
  | cons shapes expected ih =>
      cases actual with
      | nil => exact .inl ⟨(), rfl⟩
      | cons shapes' actual =>
          rw [checkLayouts]
          split
          · exact ih _ _
          · exact .inr ⟨_, _, _, rfl⟩

/-- A range that has been checked is left to what comes after. -/
theorem reports_checkRange_bind {start stop count : Nat} {f : Unit → Outcome β}
    (hf : (f ()).OnlyMismatches) :
    Reports start stop count (checkRange start stop count >>= f) := by
  by_cases h : Outside start stop count
  · have hrange : checkRange start stop count = failWith (.layerRange start stop count) := if_pos h
    rw [hrange]
    exact reports_of_outside h rfl
  · have hrange : checkRange start stop count = .ok () := if_neg h
    rw [hrange]
    exact reports_of_inside h hf

theorem reports_range (layers : List (LayerWeights α)) (start stop : Nat) :
    Reports start stop layers.length (range layers start stop) :=
  reports_checkRange_bind (.inl ⟨_, rfl⟩)

/-- A replacement reports its range if it can compute where it ends. -/
theorem reportsIf_replaceRange (layers : List (LayerWeights α)) (start : Nat)
    (blocks : List (LayerWeights α)) :
    ReportsIf (start + blocks.length < Size.limit) start (start + blocks.length) layers.length
      (replaceRange layers start blocks) := by
  refine reportsIf_of (fun hlimit => ?_) fun hlimit => ?_
  · rw [replaceRange_eq hlimit]
    exact reports_checkRange_bind
      ((onlyMismatches_checkLayouts _ _ _).bind fun _ _ => .inl ⟨_, rfl⟩)
  · have hadd : Size.add start blocks.length = faultWith .overflow := if_neg hlimit
    rw [replaceRange, hadd]
    rfl

end Layers

namespace OptimizerState

theorem onGroup_slotRange (state : OptimizerState α) (index start stop : Nat) :
    state.OnGroup index (state.slotRange index start stop) fun count =>
      Reports start stop count (state.slotRange index start stop) := by
  refine ⟨fun hmissing => ?_, fun layers hlayers => ?_⟩
  · rw [slotRange, group, hmissing]
    rfl
  · rw [slotRange, group, hlayers]
    exact Layers.reports_range layers start stop

theorem onGroup_withSlotRange (state : OptimizerState α) (index start : Nat)
    (blocks : List (LayerWeights α)) :
    state.OnGroup index (state.withSlotRange index start blocks) fun count =>
      ReportsIf (start + blocks.length < Size.limit) start (start + blocks.length) count
        (state.withSlotRange index start blocks) := by
  refine ⟨fun hmissing => ?_, fun layers hlayers => ?_⟩
  · rw [withSlotRange, group, hmissing]
    rfl
  · rw [withSlotRange_of_group hlayers]
    exact (Layers.reportsIf_replaceRange layers start blocks).map _

end OptimizerState

/-- An index reads its layer, and past the last layer it is reported if it has a next one. -/
theorem Model.reportsIf_layerAt (layers : List β) (index : Nat) :
    ReportsIf (layers.length ≤ index → index + 1 < Size.limit) index (index + 1) layers.length
      (layerAt layers index) := by
  rcases Nat.lt_or_ge index layers.length with hinside | houtside
  · have hlayer : layerAt layers index = .ok layers[index] := by
      rw [layerAt, List.getElem?_eq_getElem hinside]
    refine reportsIf_of (fun _ => reports_of_inside ?_ (.inl ⟨_, hlayer⟩)) fun hfits => ?_
    · rintro (hreversed | hlast)
      · omega
      · omega
    · exact absurd (fun houtside => absurd hinside (Nat.not_lt.mpr houtside)) hfits
  · have hlayer : layerAt layers index = (Size.add index 1 >>= fun stop =>
        failWith (.layerRange index stop layers.length)) := by
      rw [layerAt, List.getElem?_eq_none houtside]
    refine reportsIf_of (fun hfits => reports_of_outside (.inr (Nat.lt_succ_of_le houtside)) ?_)
      fun hfits => ?_
    · rw [hlayer, Size.add_eq_ok.mpr ⟨hfits houtside, rfl⟩]
      rfl
    · have hadd : Size.add index 1 = faultWith .overflow :=
        if_neg fun hlimit => hfits fun _ => hlimit
      rw [hlayer, hadd]
      rfl

/-- All addresses of layers outside are reported, and no address inside is.  What replaces a range
or reads one layer does so exactly if the end of the range is a size, and otherwise overflows. -/
theorem addresses_reported (model : Model α) (weights : ModelWeights α) (state : OptimizerState α)
    (group start stop index : Nat) (blocks : List (LayerWeights α)) :
    Reports start stop weights.length (weights.range start stop) ∧
      (state.OnGroup group (state.slotRange group start stop) fun count =>
        Reports start stop count (state.slotRange group start stop)) ∧
      ReportsIf (start + blocks.length < Size.limit) start (start + blocks.length) weights.length
        (weights.replaceRange start blocks) ∧
      (state.OnGroup group (state.withSlotRange group start blocks) fun count =>
        ReportsIf (start + blocks.length < Size.limit) start (start + blocks.length) count
          (state.withSlotRange group start blocks)) ∧
      ReportsIf (model.depth ≤ index → index + 1 < Size.limit) index (index + 1) model.depth
        (model.layerWeights index) ∧
      ReportsIf (model.depth ≤ index → index + 1 < Size.limit) index (index + 1) model.depth
        (model.layerShapes index) := by
  have hweights : model.weights.layers.length = model.depth := List.length_map _
  have hlayout : model.layout.length = model.depth := (List.length_map _).trans hweights
  refine ⟨Layers.reports_range _ _ _, state.onGroup_slotRange _ _ _, ?_,
    state.onGroup_withSlotRange _ _ _, ?_, ?_⟩
  · rw [ModelWeights.replaceRange_eq_map]
    exact (Layers.reportsIf_replaceRange weights.layers start blocks).map _
  · rw [← hweights]
    exact Model.reportsIf_layerAt _ _
  · rw [← hlayout]
    exact Model.reportsIf_layerAt _ _

namespace Model.Line

/-- The state of an optimizer with one slot group that holds these weights. -/
def singleState : OptimizerState Float32 :=
  ⟨[single.layers], 0⟩

/-- The largest index is not reported, and neither is a range that starts there. -/
theorem not_reports_largest :
    ¬ Reports (Size.limit - 1) Size.limit 1 (single.replaceRange (Size.limit - 1) single.layers) ∧
      ¬ Reports (Size.limit - 1) Size.limit 1
        (singleState.withSlotRange 0 (Size.limit - 1) single.layers) ∧
      ¬ Reports (Size.limit - 1) Size.limit 1 (double.layerWeights (Size.limit - 1)) ∧
      ¬ Reports (Size.limit - 1) Size.limit 1 (double.layerShapes (Size.limit - 1)) :=
  ⟨not_reports_fault .overflow, not_reports_fault .overflow, not_reports_fault .overflow,
    not_reports_fault .overflow⟩

end Model.Line

end PolicyGradient
