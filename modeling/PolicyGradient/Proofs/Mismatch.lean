import PolicyGradient.Proofs.Range

/-!
The first place where two lists do not match.

A check that goes through two lists side by side passes when all pairs match, and otherwise it
stops at the first pair that does not (`forall₂_or_first`).  Checks of layouts report this pair
(`checkLayouts_of_first`).
-/

namespace PolicyGradient

open Outcome

section

variable {γ δ : Type} {R : γ → δ → Prop}

/-- The entries `x` and `y` at place `i` of two lists do not match, and all pairs before them do. -/
inductive FirstUnmatched (R : γ → δ → Prop) : List γ → List δ → (i : Nat) → (x : γ) → (y : δ) → Prop
  | head {x : γ} {y : δ} (h : ¬ R x y) (xs : List γ) (ys : List δ) :
      FirstUnmatched R (x :: xs) (y :: ys) 0 x y
  | cons {a x : γ} {b y : δ} {xs : List γ} {ys : List δ} {i : Nat} (hhead : R a b)
      (h : FirstUnmatched R xs ys i x y) : FirstUnmatched R (a :: xs) (b :: ys) (i + 1) x y

/-- Lists of one length match, or there is a first pair that does not. -/
theorem forall₂_or_first {xs : List γ} {ys : List δ} (hlength : xs.length = ys.length) :
    List.Forall₂ R xs ys ∨ ∃ i x y, FirstUnmatched R xs ys i x y := by
  induction xs generalizing ys with
  | nil =>
      rw [List.length_eq_zero_iff.mp hlength.symm]
      exact Or.inl .nil
  | cons x xs ih =>
      cases ys with
      | nil => cases hlength
      | cons y ys =>
          by_cases hhead : R x y
          · rcases ih (Nat.succ.inj hlength) with hall | ⟨i, a, b, hfirst⟩
            · exact Or.inl (.cons hhead hall)
            · exact Or.inr ⟨i + 1, a, b, .cons hhead hfirst⟩
          · exact Or.inr ⟨0, x, y, .head hhead xs ys⟩

/-- Where lists match, there is an entry for every entry. -/
theorem exists_getElem?_of_forall₂ {xs : List γ} {ys : List δ} (h : List.Forall₂ R xs ys) {i : Nat}
    {x : γ} (hx : xs[i]? = some x) : ∃ y, ys[i]? = some y ∧ R x y := by
  induction h generalizing i with
  | nil => cases hx
  | @cons a b _ _ hhead _ ih =>
      cases i with
      | zero =>
          cases hx
          exact ⟨b, rfl, hhead⟩
      | succ i => exact ih hx

theorem FirstUnmatched.mem_right {xs : List γ} {ys : List δ} {i : Nat} {x : γ} {y : δ}
    (h : FirstUnmatched R xs ys i x y) : y ∈ ys := by
  induction h with
  | head => exact List.mem_cons_self
  | cons _ _ ih => exact List.mem_cons_of_mem _ ih

end

/-- Two layers have as many parameters, with the same shapes. -/
abbrev LayerWeights.SameLayout {α : Type} (layer other : LayerWeights α) : Prop :=
  layer.layout = other.layout

namespace Layers

variable {α : Type}

/-- The first layer with another layout is reported, counted from `first`. -/
theorem checkLayouts_of_first {own given : List (LayerWeights α)} {i : Nat}
    {layer block : LayerWeights α}
    (h : FirstUnmatched LayerWeights.SameLayout own given i layer block) (first : Nat) :
    checkLayouts first (own.map LayerWeights.layout) (given.map LayerWeights.layout) =
      failWith (.shapeMismatch (.layerLayout (first + i)) layer.layout.flatten
        block.layout.flatten) := by
  induction h generalizing first with
  | head hunmatched => exact if_neg hunmatched
  | cons hhead _ ih =>
      rw [List.map_cons, List.map_cons, checkLayouts, if_pos hhead, ih, Nat.add_right_comm,
        Nat.add_assoc]

end Layers

end PolicyGradient
