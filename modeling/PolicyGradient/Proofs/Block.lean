import PolicyGradient.Proofs.Outcome
import PolicyGradient.Weights.Arithmetic

/-!
Blocks as tensors.

The bounded product of an addressable shape never overflows, so a size check of a tensor's shape
only compares numbers.  Blocks of one shape are combined entry by entry, with nothing stretched.
-/

namespace PolicyGradient

open Outcome

namespace Size

theorem bounded_eq_ok {n k : Nat} : bounded n = .ok k ↔ n < limit ∧ k = n := by
  unfold bounded
  split
  case isTrue h => simp [h, eq_comm]
  case isFalse h => simp [h]

theorem mul_eq_ok {m n k : Nat} : mul m n = .ok k ↔ m * n < limit ∧ k = m * n :=
  bounded_eq_ok

theorem add_eq_ok {m n k : Nat} : add m n = .ok k ↔ m + n < limit ∧ k = m + n :=
  bounded_eq_ok

theorem eq_mul_volume_of_foldlM {shape : List Nat} {first n : Nat}
    (h : shape.foldlM mul first = .ok n) : n = first * volume shape := by
  induction shape generalizing first with
  | nil =>
      cases h
      simp [volume]
  | cons d ds ih =>
      rw [List.foldlM_cons, bind_eq_ok] at h
      obtain ⟨k, hk, hn⟩ := h
      rw [ih hn, (mul_eq_ok.mp hk).2, volume, Nat.mul_assoc]

theorem eq_volume_of_product {shape : List Nat} {n : Nat} (h : product shape = .ok n) :
    n = volume shape := by
  simpa using eq_mul_volume_of_foldlM h

end Size

namespace Shape

theorem extent_cons_zero (ds : List Nat) : extent (0 :: ds) = extent ds := by
  simp [extent]

theorem extent_cons {d : Nat} (hd : d ≠ 0) (ds : List Nat) :
    extent (d :: ds) = d * extent ds := by
  simp [extent, hd, Size.volume]

theorem extent_pos (ds : List Nat) : 0 < extent ds := by
  induction ds with
  | nil => simp [extent, Size.volume]
  | cons d ds ih =>
      by_cases hd : d = 0
      · rw [hd, extent_cons_zero]
        exact ih
      · rw [extent_cons hd]
        exact Nat.mul_pos (Nat.pos_of_ne_zero hd) ih

/-- A partial product is at most the extent, or zero from an empty axis on. -/
theorem foldlM_mul_of_extent_lt {shape : List Nat} {first : Nat}
    (h : first * extent shape < Size.limit) :
    shape.foldlM Size.mul first = .ok (first * Size.volume shape) := by
  induction shape generalizing first with
  | nil => simp [Size.volume, pure, Except.pure]
  | cons d ds ih =>
      rw [List.foldlM_cons]
      have hrest : first * d * extent ds < Size.limit := by
        by_cases hd : d = 0
        · simp [hd, Size.limit]
        · rwa [extent_cons hd, ← Nat.mul_assoc] at h
      have hstep : Size.mul first d = .ok (first * d) :=
        Size.mul_eq_ok.mpr
          ⟨Nat.lt_of_le_of_lt (Nat.le_mul_of_pos_right _ (extent_pos ds)) hrest, rfl⟩
      rw [hstep, Size.volume, ← Nat.mul_assoc]
      exact ih hrest

theorem product_of_addressable {shape : List Nat} (h : addressable shape = true) :
    Size.product shape = .ok (Size.volume shape) := by
  have hextent : extent shape < Nat.pow 2 63 := of_decide_eq_true h
  have hlimit : 1 * extent shape < Size.limit := by
    rw [Nat.one_mul]
    exact Nat.lt_trans hextent (by decide)
  simpa [Size.product] using foldlM_mul_of_extent_lt hlimit

theorem agree_self (ds : List Nat) : agree ds ds = true := by
  induction ds with
  | nil => rfl
  | cons d ds ih => simpa [agree, axesAgree] using ih

theorem zipWith_jointAxis_self (ds : List Nat) : List.zipWith jointAxis ds ds = ds := by
  induction ds with
  | nil => rfl
  | cons d ds ih => simp [jointAxis]

end Shape

namespace ParamBlock

variable {α β γ : Type}

/-- Blocks of one shape are combined place by place. -/
theorem zipWith_of_shape_eq [Zero α] [Zero β] (f : α → β → γ) {a : ParamBlock α}
    {b : ParamBlock β} (h : a.shape = b.shape) :
    a.zipWith f b = .ok ⟨a.shape, Array.ofFn fun i : Fin (Size.volume a.shape) =>
      f (a.values.getD i 0) (b.values.getD i 0)⟩ := by
  obtain ⟨shape, values⟩ := a
  obtain ⟨_, values'⟩ := b
  cases h
  unfold zipWith
  rw [if_pos ⟨rfl, Shape.agree_self shape⟩]
  generalize hjoint : List.zipWith Shape.jointAxis shape shape = joint
  rw [Shape.zipWith_jointAxis_self] at hjoint
  subst hjoint
  simp [stretched]

theorem shape_of_zipWith [Zero α] [Zero β] {f : α → β → γ} {a : ParamBlock α}
    {b : ParamBlock β} {c : ParamBlock γ} (h : a.shape = b.shape) (hc : a.zipWith f b = .ok c) :
    c.shape = a.shape := by
  rw [zipWith_of_shape_eq f h] at hc
  cases hc
  rfl

/-- The block has the shape of another one and is filled. -/
def Fits (block : ParamBlock α) (shape : List Nat) : Prop :=
  block.shape = shape ∧ block.IsFilled

theorem Fits.map {block : ParamBlock α} {shape : List Nat} (h : block.Fits shape) (f : α → β) :
    (block.map f).Fits shape :=
  ⟨h.1, isFilled_map h.2⟩

theorem Fits.zipWith [Zero α] [Zero β] {f : α → β → γ} {a : ParamBlock α} {b : ParamBlock β}
    {c : ParamBlock γ} {shape : List Nat} (ha : a.Fits shape) (hb : b.shape = shape)
    (hc : a.zipWith f b = .ok c) : c.Fits shape := by
  have hshape : a.shape = b.shape := ha.1.trans hb.symm
  exact ⟨(shape_of_zipWith hshape hc).trans ha.1, isFilled_of_zipWith hc⟩

end ParamBlock

end PolicyGradient
