import PolicyGradient.Proofs.Block
import PolicyGradient.Proofs.PolicyInputs

/-!
Advantages slice by slice and timestep by timestep.

A batch of advantages is made of the row-major data one slice at a time, and after the checks of
shapes and horizon nothing fails.  An entry is computed from the window that it looks at and from
nothing else, neither in its slice nor in others (`Advantage.Inputs.windowed`).
-/

namespace PolicyGradient

open Outcome

variable {α : Type}

theorem Shape.addressable_of_le {b k l : Nat} (hk : 0 < k) (hkl : k ≤ l)
    (h : addressable [b, l] = true) : addressable [b, k] = true := by
  have hle : extent [b, k] ≤ extent [b, l] := by
    have hlast : extent [k] ≤ extent [l] := by
      rw [extent_cons (by omega), extent_cons (by omega)]
      exact Nat.mul_le_mul_right _ hkl
    by_cases hb : b = 0
    · simpa only [hb, extent_cons_zero] using hlast
    · simpa only [extent_cons hb] using Nat.mul_le_mul_left b hlast
  simp only [addressable, decide_eq_true_eq] at h ⊢
  exact Nat.lt_of_le_of_lt hle h

namespace Tensor

/-- The part of the row-major data that a slice lies in. -/
def span (t : Tensor α 2) (b : Nat) : List α :=
  (t.toList.drop (b * t.axis 1)).take (t.axis 1)

/-- Consecutive parts of one length make a list. -/
theorem flatMap_drop_take (xs : List α) (n k : Nat) :
    (List.range n).flatMap (fun i => (xs.drop (i * k)).take k) = xs.take (n * k) := by
  induction n with
  | zero => simp
  | succ n ih => simp [List.range_succ, ih, Nat.succ_mul, List.take_add]

theorem length_toList (t : Tensor α 2) : t.toList.length = t.axis 0 * t.axis 1 := by
  have hvolume : t.data.size = Size.volume t.shape := t.size_eq
  rw [shape_eq_two] at hvolume
  simpa [toList, Size.volume] using hvolume

/-- A slice lies within the data. -/
theorem span_le (t : Tensor α 2) {b : Nat} (hb : b < t.axis 0) :
    b * t.axis 1 + t.axis 1 ≤ t.toList.length := by
  rw [length_toList, ← Nat.succ_mul]
  exact Nat.mul_le_mul_right _ hb

theorem length_span (t : Tensor α 2) {b : Nat} (hb : b < t.axis 0) :
    (t.span b).length = t.axis 1 := by
  have hle := t.span_le hb
  simp only [span, List.length_take, List.length_drop]
  omega

/-- The data are the slices one after the other. -/
theorem flatMap_span (t : Tensor α 2) : (List.range (t.axis 0)).flatMap t.span = t.toList := by
  have hparts := flatMap_drop_take t.toList (t.axis 0) (t.axis 1)
  rwa [← length_toList, List.take_length] at hparts

theorem entry_eq_getD [Zero α] (t : Tensor α 2) (b i : Nat) :
    t.entry [b, i] = t.toList.getD (b * t.axis 1 + i) 0 := by
  rw [entry, shape_eq_two]
  simp [Shape.ravel, Size.volume, toList]

/-- The data of a tensor make that tensor. -/
theorem ofData?_toList {b l : Nat} {t : Tensor α 2} (hshape : t.shape = [b, l])
    (hroom : Shape.addressable [b, l] = true) : ofData? #v[b, l] t.toList.toArray = .ok t := by
  have hdims : t.dims = #v[b, l] := Vector.toList_inj.mp hshape
  obtain ⟨dims, data, hsize⟩ := t
  subst hdims
  have hproduct : Size.product (#v[b, l] : Vector Nat 2).toList = .ok (Size.volume [b, l]) :=
    Shape.product_of_addressable hroom
  have hroom : Shape.addressable (#v[b, l] : Vector Nat 2).toList = true := hroom
  simp only [ofData?, hproduct, toList, Array.toArray_toList, hsize, hroom, dite_true, if_true]

end Tensor

namespace Advantage

variable [Scalar α]

theorem slice_eq_span (t : Tensor α 2) {b : Nat} (hb : b < t.axis 0) : slice t b = t.span b := by
  have hle := t.span_le hb
  apply List.ext_getElem
  · rw [length_slice, t.length_span hb]
  · intro i hi _
    rw [length_slice] at hi
    have hlt : b * t.axis 1 + i < t.toList.length := by omega
    simp [slice, Tensor.span, Tensor.entry_eq_getD, hlt]

theorem getD_slice (t : Tensor α 2) (b : Nat) {i : Nat} (hi : i < t.axis 1) :
    (slice t b).getD i 0 = t.entry [b, i] := by
  simp [slice, List.getElem?_range hi]

/-- The window of a slice from a timestep on. -/
theorem take_drop_slice (t : Tensor α 2) (b : Nat) {first count : Nat}
    (h : first + count ≤ t.axis 1) :
    ((slice t b).drop first).take count =
      (List.range count).map fun k => t.entry [b, first + k] := by
  apply List.ext_getElem
  · simp only [List.length_take, List.length_drop, length_slice, List.length_map, List.length_range]
    omega
  · intro k _ _
    simp [slice]

/-- The advantage at one timestep, with any look-ahead. -/
def atTime (rewards returns values : List α) (gamma : α) (lookAhead t : Nat) : α :=
  if lookAhead = 0 then returns.getD t 0 - values.getD t 0
  else ahead rewards values gamma lookAhead t

/-- The advantages of a slice exist for lists of one length that is longer than the look-ahead, and
then there is one for each timestep that is left. -/
theorem ofSlice_eq_ok {rewards returns values row : List α} {gamma : α} {lookAhead : Nat} :
    ofSlice rewards returns values gamma lookAhead = .ok row ↔
      returns.length = rewards.length ∧ values.length = rewards.length ∧
        lookAhead < rewards.length ∧
        (List.range (rewards.length - lookAhead)).map
          (atTime rewards returns values gamma lookAhead) = row := by
  simp only [ofSlice, bind_eq_ok, ensureShape_eq_ok, checkHorizon_eq_ok, exists_const,
    List.cons.injEq, and_true]
  refine and_congr_right fun hreturns => and_congr_right fun hvalues => and_congr_right fun _ => ?_
  by_cases hzero : lookAhead = 0
  · have hdifferences : List.zipWith (· - ·) returns values =
        (List.range rewards.length).map fun t => returns.getD t 0 - values.getD t 0 := by
      apply List.ext_getElem
      · simp [hreturns, hvalues]
      · intro t ht _
        rw [List.length_zipWith] at ht
        simp [show t < returns.length by omega, show t < values.length by omega]
    have hentries : atTime rewards returns values gamma lookAhead =
        fun t => returns.getD t 0 - values.getD t 0 := by
      funext t
      rw [atTime, if_pos hzero]
    rw [if_pos hzero, hdifferences, hentries, hzero, Nat.sub_zero]
    exact iff_of_eq (Except.ok.injEq _ _)
  · have hentries : atTime rewards returns values gamma lookAhead =
        ahead rewards values gamma lookAhead := by
      funext t
      rw [atTime, if_neg hzero]
    rw [if_neg hzero, hentries]
    exact iff_of_eq (Except.ok.injEq _ _)

section

variable {rewards returns values advantages : Tensor α 2} {gamma : α} {lookAhead b t : Nat}

/-- A slice of the advantages of a batch is made of the slices of the inputs. -/
theorem slice_of_ofBatch (h : ofBatch rewards returns values gamma lookAhead = .ok advantages)
    (hb : b < rewards.axis 0) :
    ofSlice (slice rewards b) (slice returns b) (slice values b) gamma lookAhead =
      .ok (slice advantages b) := by
  have hshape := (shape_of_ofBatch h).2.2.2
  simp only [ofBatch, bind_eq_ok, mapM_eq_ok] at h
  obtain ⟨_, _, _, _, _, _, rows, hrows, hadvantages⟩ := h
  obtain ⟨hcount, hrow⟩ := List.forall₂_iff_get.mp hrows
  rw [List.length_range] at hcount
  have hb' : b < rows.length := hcount ▸ hb
  have hslice := hrow b (by simpa using hb) hb'
  simp only [List.get_eq_getElem, List.getElem_range] at hslice
  rw [hslice]
  have hlength : rows[b].length = rewards.axis 1 - lookAhead := by
    rw [← (ofSlice_eq_ok.mp hslice).2.2.2]
    simp [length_slice]
  congr 1
  apply List.ext_getElem
  · rw [length_slice, hlength, (Tensor.axes_of_shape hshape).2]
  · intro i hi _
    cases hadvantages
    have hbounds : Shape.InBounds
        (#v[rewards.axis 0, rewards.axis 1 - lookAhead] : Vector Nat 2).toList [b, i] :=
      ⟨hb, hlength ▸ hi, trivial⟩
    simp [slice, Tensor.entry_tabulate _ _ _ hbounds, hb', hi]

theorem entry_of_ofBatch (h : ofBatch rewards returns values gamma lookAhead = .ok advantages)
    (hb : b < rewards.axis 0) (ht : t < rewards.axis 1 - lookAhead) :
    advantages.entry [b, t] =
      atTime (slice rewards b) (slice returns b) (slice values b) gamma lookAhead t := by
  have hlength := (Tensor.axes_of_shape (shape_of_ofBatch h).2.2.2).2
  have hrow := (ofSlice_eq_ok.mp (slice_of_ofBatch h hb)).2.2.2
  rw [← getD_slice advantages b (hlength ▸ ht), ← hrow]
  simp [length_slice, List.getElem?_range ht]

end

/-- What the advantages of a batch are computed from. -/
structure Inputs (α : Type) where
  rewards : Tensor α 2
  returns : Tensor α 2
  values : Tensor α 2
  gamma : α

namespace Inputs

variable (x y : Inputs α) (lookAhead : Nat)

/-- The advantages of a batch. -/
def advantages : Outcome (Tensor α 2) :=
  ofBatch x.rewards x.returns x.values x.gamma lookAhead

/-- The advantages of a batch by way of the row-major data: those of each span, one after the other,
as the data of a tensor. -/
def ofSpans : Outcome (Tensor α 2) := do
  ensureShape (.advantage .returns) x.returns.shape x.rewards.shape
  ensureShape (.advantage .values) x.values.shape x.rewards.shape
  checkHorizon lookAhead (x.rewards.axis 1)
  let rows ← (List.range (x.rewards.axis 0)).mapM fun b =>
    ofSlice (x.rewards.span b) (x.returns.span b) (x.values.span b) x.gamma lookAhead
  Tensor.ofData? #v[x.rewards.axis 0, x.rewards.axis 1 - lookAhead] rows.flatten.toArray

/-- All fields have one shape. -/
def SameShapes : Prop :=
  x.returns.shape = x.rewards.shape ∧ x.values.shape = x.rewards.shape

/-- Both inputs hold the same where the advantage at a timestep looks: the return and the estimate
without a look-ahead; otherwise the discount, the rewards up to the look-ahead and the estimates at
its two ends. -/
structure SeenAlike (b t : Nat) : Prop where
  estimate : x.values.entry [b, t] = y.values.entry [b, t]
  plain : lookAhead = 0 → x.returns.entry [b, t] = y.returns.entry [b, t]
  discount : 0 < lookAhead → x.gamma = y.gamma
  rewards : ∀ k < lookAhead, x.rewards.entry [b, t + k] = y.rewards.entry [b, t + k]
  bootstrap : 0 < lookAhead →
    x.values.entry [b, t + lookAhead] = y.values.entry [b, t + lookAhead]

/-- The advantages of a batch are those of its slices, and each looks at its window only. -/
structure Windowed : Prop where
  /-- Exactly inputs of one shape, with more timesteps than the look-ahead, have advantages. -/
  made_iff : (∃ advantages, x.advantages lookAhead = .ok advantages) ↔
    ∃ b l, x.rewards.shape = [b, l] ∧ x.returns.shape = [b, l] ∧ x.values.shape = [b, l] ∧
      lookAhead < l
  mismatch : ¬ x.SameShapes → ∃ field expected actual,
    x.advantages lookAhead = failWith (.shapeMismatch (.advantage field) expected actual)
  horizon : x.SameShapes → x.rewards.axis 1 ≤ lookAhead →
    x.advantages lookAhead = failWith (.config (.horizon lookAhead (x.rewards.axis 1)))
  /-- Packing the rows of a tensor that can be addressed never fails. -/
  packed : Shape.addressable x.rewards.shape = true → x.ofSpans lookAhead = x.advantages lookAhead
  shape : ∀ advantages, x.advantages lookAhead = .ok advantages →
    advantages.shape = [x.rewards.axis 0, x.rewards.axis 1 - lookAhead]
  rows : ∀ advantages, x.advantages lookAhead = .ok advantages → ∀ b < x.rewards.axis 0,
    ofSlice (x.rewards.span b) (x.returns.span b) (x.values.span b) x.gamma lookAhead =
      .ok (advantages.span b)
  window : ∀ y advantages advantages', x.advantages lookAhead = .ok advantages →
    y.advantages lookAhead = .ok advantages' → ∀ b t, Shape.InBounds advantages.shape [b, t] →
      Shape.InBounds advantages'.shape [b, t] → x.SeenAlike y lookAhead b t →
        advantages.entry [b, t] = advantages'.entry [b, t]

variable {x y lookAhead} {b t : Nat}

theorem advantages_of_mismatch (h : ¬ x.SameShapes) : ∃ field expected actual,
    x.advantages lookAhead = failWith (.shapeMismatch (.advantage field) expected actual) := by
  by_cases hreturns : x.returns.shape = x.rewards.shape
  · have hvalues : x.values.shape ≠ x.rewards.shape := fun hvalues => h ⟨hreturns, hvalues⟩
    refine ⟨.values, x.rewards.shape, x.values.shape, ?_⟩
    simp only [advantages, ofBatch, ensureShape, if_pos hreturns, if_neg hvalues]
    rfl
  · refine ⟨.returns, x.rewards.shape, x.returns.shape, ?_⟩
    simp only [advantages, ofBatch, ensureShape, if_neg hreturns]
    rfl

theorem advantages_of_short (h : x.SameShapes) (hshort : x.rewards.axis 1 ≤ lookAhead) :
    x.advantages lookAhead = failWith (.config (.horizon lookAhead (x.rewards.axis 1))) := by
  simp only [advantages, ofBatch, ensureShape, checkHorizon, if_pos h.1, if_pos h.2, if_pos hshort]
  rfl

theorem exists_advantages_iff : (∃ advantages, x.advantages lookAhead = .ok advantages) ↔
    x.SameShapes ∧ lookAhead < x.rewards.axis 1 := by
  constructor
  · rintro ⟨advantages, hadvantages⟩
    obtain ⟨hreturns, hvalues, hahead, _⟩ := shape_of_ofBatch hadvantages
    exact ⟨⟨hreturns, hvalues⟩, hahead⟩
  · rintro ⟨⟨hreturns, hvalues⟩, hahead⟩
    exact exists_ofBatch hreturns hvalues hahead

theorem rows_of_advantages {advantages : Tensor α 2} (h : x.advantages lookAhead = .ok advantages)
    (hb : b < x.rewards.axis 0) :
    ofSlice (x.rewards.span b) (x.returns.span b) (x.values.span b) x.gamma lookAhead =
      .ok (advantages.span b) := by
  obtain ⟨hreturns, hvalues, _, hshape⟩ := shape_of_ofBatch h
  have hrow := slice_of_ofBatch h hb
  rwa [slice_eq_span _ hb, slice_eq_span _ (Tensor.axis_eq_of_shape_eq hreturns 0 ▸ hb),
    slice_eq_span _ (Tensor.axis_eq_of_shape_eq hvalues 0 ▸ hb),
    slice_eq_span _ ((Tensor.axes_of_shape hshape).1 ▸ hb)] at hrow

theorem ofSpans_of_advantages {advantages : Tensor α 2}
    (h : x.advantages lookAhead = .ok advantages)
    (hroom : Shape.addressable x.rewards.shape = true) :
    x.ofSpans lookAhead = .ok advantages := by
  obtain ⟨hreturns, hvalues, hahead, hshape⟩ := shape_of_ofBatch h
  have hrows : (List.range (x.rewards.axis 0)).mapM (fun b =>
      ofSlice (x.rewards.span b) (x.returns.span b) (x.values.span b) x.gamma lookAhead) =
        .ok ((List.range (x.rewards.axis 0)).map advantages.span) := by
    rw [mapM_eq_ok, List.forall₂_map_right_iff, List.forall₂_same]
    intro b hb
    exact rows_of_advantages h (List.mem_range.mp hb)
  have hdata : ((List.range (x.rewards.axis 0)).map advantages.span).flatten =
      advantages.toList := by
    rw [← List.flatMap_def, ← (Tensor.axes_of_shape hshape).1, advantages.flatMap_span]
  have hroom : Shape.addressable [x.rewards.axis 0, x.rewards.axis 1 - lookAhead] = true := by
    apply Shape.addressable_of_le (Nat.sub_pos_of_lt hahead) (Nat.sub_le _ _)
    rwa [← Tensor.shape_eq_two]
  rw [ofSpans, ensureShape, ensureShape, if_pos hreturns, if_pos hvalues, checkHorizon,
    if_neg (Nat.not_le_of_lt hahead), hrows]
  simp only [bind, Except.bind, hdata, Tensor.ofData?_toList hshape hroom]

theorem ofSpans_eq_advantages (hroom : Shape.addressable x.rewards.shape = true) :
    x.ofSpans lookAhead = x.advantages lookAhead := by
  by_cases hmade : x.SameShapes ∧ lookAhead < x.rewards.axis 1
  · obtain ⟨advantages, hadvantages⟩ := exists_advantages_iff.mpr hmade
    rw [hadvantages]
    exact ofSpans_of_advantages hadvantages hroom
  · -- Both make the same checks first, and one of these fails.
    refine bind_congr_of_ok fun _ hreturns => bind_congr_of_ok fun _ hvalues =>
      bind_congr_of_ok fun _ hahead => absurd ?_ hmade
    exact ⟨⟨ensureShape_eq_ok.mp hreturns, ensureShape_eq_ok.mp hvalues⟩,
      checkHorizon_eq_ok.mp hahead⟩

/-- An advantage as a formula over its window. -/
theorem entry_of_advantages {advantages : Tensor α 2} (h : x.advantages lookAhead = .ok advantages)
    (hin : Shape.InBounds advantages.shape [b, t]) : advantages.entry [b, t] =
      if lookAhead = 0 then x.returns.entry [b, t] - x.values.entry [b, t]
      else discounted x.gamma ((List.range lookAhead).map fun k => x.rewards.entry [b, t + k])
        + Advantage.bootstrap x.gamma lookAhead * x.values.entry [b, t + lookAhead]
        - x.values.entry [b, t] := by
  obtain ⟨hreturns, hvalues, hahead, hshape⟩ := shape_of_ofBatch h
  rw [hshape] at hin
  obtain ⟨hb, ht, _⟩ := hin
  have hreturns := Tensor.axis_eq_of_shape_eq hreturns 1
  have hvalues := Tensor.axis_eq_of_shape_eq hvalues 1
  have hlast : t + lookAhead < x.rewards.axis 1 := by omega
  rw [entry_of_ofBatch h hb ht, atTime, ahead, take_drop_slice _ _ (Nat.le_of_lt hlast),
    getD_slice _ _ (by omega), getD_slice _ _ (by omega), getD_slice _ _ (by omega)]

/-- An advantage is computed from its window. -/
theorem entry_eq_of_seenAlike {advantages advantages' : Tensor α 2}
    (h : x.advantages lookAhead = .ok advantages) (h' : y.advantages lookAhead = .ok advantages')
    (hin : Shape.InBounds advantages.shape [b, t]) (hin' : Shape.InBounds advantages'.shape [b, t])
    (hseen : x.SeenAlike y lookAhead b t) : advantages.entry [b, t] = advantages'.entry [b, t] := by
  rw [entry_of_advantages h hin, entry_of_advantages h' hin', hseen.estimate]
  by_cases hzero : lookAhead = 0
  · rw [if_pos hzero, if_pos hzero, hseen.plain hzero]
  · have hpos : 0 < lookAhead := Nat.pos_of_ne_zero hzero
    have hrewards : ∀ k ∈ List.range lookAhead,
        x.rewards.entry [b, t + k] = y.rewards.entry [b, t + k] := by
      intro k hk
      exact hseen.rewards k (List.mem_range.mp hk)
    rw [if_neg hzero, if_neg hzero, List.map_congr_left hrewards, hseen.discount hpos,
      hseen.bootstrap hpos]

/-- The advantages of a batch are the advantages of its slices, and each of them looks at its window
only. -/
theorem windowed (x : Inputs α) (lookAhead : Nat) : x.Windowed lookAhead where
  made_iff := by
    rw [exists_advantages_iff]
    constructor
    · rintro ⟨⟨hreturns, hvalues⟩, hahead⟩
      have hshape := x.rewards.shape_eq_two
      exact ⟨_, _, hshape, hreturns.trans hshape, hvalues.trans hshape, hahead⟩
    · rintro ⟨b, l, hrewards, hreturns, hvalues, hahead⟩
      refine ⟨⟨hreturns.trans hrewards.symm, hvalues.trans hrewards.symm⟩, ?_⟩
      rwa [(Tensor.axes_of_shape hrewards).2]
  mismatch := advantages_of_mismatch
  horizon := advantages_of_short
  packed := ofSpans_eq_advantages
  shape advantages h := (shape_of_ofBatch h).2.2.2
  rows advantages h b hb := rows_of_advantages h hb
  window y advantages advantages' h h' b t hin hin' hseen :=
    entry_eq_of_seenAlike h h' hin hin' hseen

end Inputs

end Advantage

end PolicyGradient
