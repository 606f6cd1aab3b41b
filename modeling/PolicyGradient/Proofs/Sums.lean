import Mathlib
import PolicyGradient.Loss.Diagnostic
import PolicyGradient.Proofs.Alignment
import PolicyGradient.Proofs.Block
import PolicyGradient.Proofs.Exact

/-!
Sums, means and bounds in exact arithmetic, and tensors of one shape.

Exact sums do not depend on the order of their terms, so lanes do not matter.  Tensors of one shape
are combined like the lists of their entries, with nothing stretched.
-/

namespace PolicyGradient

open Outcome

namespace Exact

variable {K : Type} [OrderedField K] [Elementary K]

theorem sum_eq (xs : List K) : Scalar.sum xs = xs.sum := by
  rw [Scalar.sum, List.sum_eq_foldl]
  congr 1
  exact neg_zero

/-- Terms that are added to lanes are not lost. -/
theorem addLanes_spec {lanes xs lanes' rest : List K} (hlanes : lanes.length = 8)
    (h : Scalar.addLanes lanes xs = (lanes', rest)) :
    lanes'.length = 8 ∧ lanes'.sum + rest.sum = lanes.sum + xs.sum := by
  fun_induction Scalar.addLanes lanes xs with
  | case1 lanes a b c d e f g i xs ih =>
      have hlength : (List.zipWith (· + ·) lanes [a, b, c, d, e, f, g, i]).length = 8 := by
        rw [List.length_zipWith, hlanes]
        rfl
      obtain ⟨hlength', hsum⟩ := ih hlength h
      refine ⟨hlength', hsum.trans ?_⟩
      have hadded :=
        List.sum_add_sum_eq_sum_zipWith_of_length_eq lanes [a, b, c, d, e, f, g, i] hlanes
      rw [← hadded, add_assoc, ← List.sum_append]
      rfl
  | case2 lanes xs =>
      cases h
      exact ⟨hlanes, rfl⟩

theorem laneSum_eq (xs : List K) : Scalar.laneSum xs = xs.sum := by
  unfold Scalar.laneSum
  rcases hlanes : Scalar.addLanes (List.replicate 8 0) xs with ⟨lanes, rest⟩
  obtain ⟨hlength, hsum⟩ := addLanes_spec List.length_replicate hlanes
  have hhalves : (lanes.take 4).length = (lanes.drop 4).length := by
    rw [List.length_take, List.length_drop, hlength]
    rfl
  simp only
  rw [← List.sum_eq_foldl, List.sum_append,
    ← List.sum_add_sum_eq_sum_zipWith_of_length_eq _ _ hhalves, List.sum_take_add_sum_drop, hsum]
  simp

theorem lesser_eq_min (x y : K) : Scalar.lesser x y = min x y := by
  simp only [Scalar.lesser, Scalar.lt, Scalar.le, decide_eq_true_eq]
  grind

theorem greater_eq_max (x y : K) : Scalar.greater x y = max x y := by
  simp only [Scalar.greater, Scalar.lt, Scalar.le, decide_eq_true_eq]
  grind

/-- Bounds in order cut to the interval between them. -/
theorem clamp?_eq {lo hi : K} (h : lo ≤ hi) (x : K) :
    Scalar.clamp? lo hi x = some (max lo (min hi x)) := by
  simp only [Scalar.clamp?, Scalar.lt, Scalar.le, decide_eq_true_eq, if_pos h, Option.some.injEq]
  grind

end Exact

theorem Shape.clip_of_inBounds {ds p : List Nat} (h : InBounds ds p) : clip ds p = p := by
  induction ds generalizing p with
  | nil =>
      cases p with
      | nil => rfl
      | cons i p => exact absurd h id
  | cons d ds ih =>
      cases p with
      | nil => exact absurd h id
      | cons i p =>
          obtain ⟨hi, hp⟩ := h
          have hrest : clip (d :: ds) (i :: p) = (if d = 1 then 0 else i) :: clip ds p := rfl
          rw [hrest, ih hp]
          split
          · rw [show i = 0 by omega]
          · rfl

namespace Tensor

variable {α β γ : Type} {rank rank' : Nat}

theorem toList_map (f : α → β) (t : Tensor α rank) : (t.map f).toList = t.toList.map f :=
  Array.toList_map

theorem length_toList_eq (t : Tensor α rank) : t.toList.length = Size.volume t.shape :=
  t.size_eq

theorem toList_tabulate (dims : Vector Nat rank) (f : List Nat → α) :
    (tabulate dims f).toList =
      (List.range (Size.volume dims.toList)).map fun i => f (Shape.unravel dims.toList i) := by
  apply List.ext_getElem
  · simp [tabulate, toList]
  · simp [tabulate, toList]

/-- The entries in row-major order, by their positions. -/
theorem toList_eq_map_entry [Zero α] (t : Tensor α rank) :
    t.toList =
      (List.range (Size.volume t.shape)).map fun i => t.entry (Shape.unravel t.shape i) := by
  have htable := toList_tabulate t.dims t.entry
  rwa [t.tabulate_entry] at htable

/-- Tensors of one shape are combined entry by entry, with nothing stretched. -/
theorem zipWith_of_shape_eq [Zero α] [Zero β] (f : α → β → γ) {s : Tensor α rank}
    {t : Tensor β rank} (h : s.shape = t.shape) :
    s.zipWith f t = .ok (tabulate s.dims fun p => f (s.entry p) (t.entry p)) := by
  have hagree : Shape.agree s.shape t.shape = true := by
    rw [← h]
    exact Shape.agree_self _
  have hjoint : jointDims s t = s.dims := by
    apply Vector.toList_inj.mp
    have hzip : (jointDims s t).toList = List.zipWith Shape.jointAxis s.shape t.shape := by
      simp [jointDims, shape]
    rw [hzip, ← h, Shape.zipWith_jointAxis_self]
    rfl
  rw [zipWith, if_pos hagree, hjoint]
  congr 1
  apply tabulate_congr
  intro p hp
  have hclip : Shape.clip s.shape p = p := Shape.clip_of_inBounds hp
  rw [stretched, stretched, ← h, hclip]

theorem exists_zipWith [Zero α] [Zero β] (f : α → β → γ) {s : Tensor α rank} {t : Tensor β rank}
    (h : s.shape = t.shape) : ∃ u, s.zipWith f t = .ok u ∧ u.shape = s.shape ∧
      u.toList = List.zipWith f s.toList t.toList := by
  refine ⟨_, zipWith_of_shape_eq f h, rfl, ?_⟩
  rw [toList_tabulate, s.toList_eq_map_entry, t.toList_eq_map_entry, ← h, List.zipWith_map,
    List.zipWith_self]
  rfl

theorem of_reshape {t : Tensor α rank} {dims : Vector Nat rank'} {u : Tensor α rank'}
    (h : t.reshape dims = .ok u) : u.shape = dims.toList ∧ u.toList = t.toList := by
  unfold reshape at h
  split at h
  · cases h
    exact ⟨rfl, rfl⟩
  · cases h

section

variable {K : Type} [OrderedField K] [Exact.Elementary K]

open scoped Exact

theorem sum_eq (t : Tensor K rank) : t.sum = t.toList.sum :=
  Exact.laneSum_eq _

theorem mean_eq_ok {t : Tensor K rank} {x : K} :
    t.mean = .ok x ↔ 0 < t.toList.length ∧ t.toList.sum / t.toList.length = x := by
  have hlength : t.toList.length = t.data.size := rfl
  rw [mean, sum_eq, hlength, Nat.pos_iff_ne_zero]
  split
  case isTrue h => simp [h]
  case isFalse h => simp [h]

end

end Tensor

namespace Diagnostic

variable {K : Type} [OrderedField K] [Exact.Elementary K]

open scoped Exact

/-- The mean of no terms is zero, as their sum is. -/
theorem mean_eq (xs : List K) : mean xs = xs.sum / xs.length := by
  rw [mean, Exact.sum_eq]
  cases xs with
  | nil => simp
  | cons x xs => rfl

theorem equallyLong_eq_ok {α : Type} {xs ys : List α} {u : Unit} :
    equallyLong xs ys = .ok u ↔ xs.length = ys.length := by
  unfold equallyLong
  split
  case isTrue h => simp [h]
  case isFalse h => simp [h]

end Diagnostic

end PolicyGradient
