import Mathlib
import PolicyGradient.Proofs.ListForms

/-!
The clipped surrogate has one bound.

A ratio is cut at two bounds, but the smaller of the plain and the clipped term is that of a ratio
cut at one of them: from above where the advantage is positive, from below where it is negative.  So
the surrogate never promises more than the plain terms, and is flat past that bound
(`PolicyLoss.ppo_oneSided`).
-/

namespace PolicyGradient

open Outcome
open scoped Exact

variable {K : Type} [OrderedField K] [Exact.Elementary K]

namespace Diagnostic

/-- One term of the surrogate, its ratio cut on the side of the advantage only. -/
def oneSided (epsilon ratio advantage : K) : K :=
  if 0 ≤ advantage then min ratio (1 + epsilon) * advantage
  else max ratio (1 - epsilon) * advantage

/-- The ratio is past the bound on the side of the advantage. -/
def Past (epsilon advantage ratio : K) : Prop :=
  0 < advantage ∧ 1 + epsilon ≤ ratio ∨ advantage < 0 ∧ ratio ≤ 1 - epsilon

/-- The ratio has not moved, or has moved past the bound on the side of the advantage. -/
def MovedPast (epsilon advantage ratio ratio' : K) : Prop :=
  ratio' = ratio ∨ Past epsilon advantage ratio ∧ Past epsilon advantage ratio'

section

variable {epsilon : K}

/-- The smaller of two products is that with the smaller factor, or that with the larger one where
the common factor is negative. -/
theorem surrogate_eq_oneSided (h : 0 ≤ epsilon) (ratio advantage : K) :
    surrogate epsilon ratio advantage = oneSided epsilon ratio advantage := by
  have hbounds : (1 : K) - epsilon ≤ 1 + epsilon := by grind
  by_cases hsign : 0 ≤ advantage
  · have hcut : min ratio (max (1 - epsilon) (min (1 + epsilon) ratio)) =
        min ratio (1 + epsilon) := by
      grind
    rw [surrogate, oneSided, if_pos hsign, ← min_mul_of_nonneg _ _ hsign, hcut]
  · have hcut : max ratio (max (1 - epsilon) (min (1 + epsilon) ratio)) =
        max ratio (1 - epsilon) := by
      grind
    have hanti : Antitone (· * advantage) :=
      fun _ _ hle => mul_le_mul_of_nonpos_right hle (le_of_not_ge hsign)
    rw [surrogate, oneSided, if_neg hsign, ← hcut]
    exact (hanti.map_max).symm

theorem oneSided_le (h : 0 ≤ epsilon) (ratio advantage : K) :
    oneSided epsilon ratio advantage ≤ ratio * advantage := by
  rw [← surrogate_eq_oneSided h]
  exact min_le_left _ _

theorem oneSided_congr {ratio ratio' advantage : K}
    (h : MovedPast epsilon advantage ratio ratio') :
    oneSided epsilon ratio' advantage = oneSided epsilon ratio advantage := by
  rcases h with rfl | ⟨⟨hsign, hpast⟩ | ⟨hsign, hpast⟩, ⟨hsign', hpast'⟩ | ⟨hsign', hpast'⟩⟩
  · rfl
  · rw [oneSided, oneSided, if_pos hsign.le, if_pos hsign.le, min_eq_right hpast,
      min_eq_right hpast']
  · exact absurd hsign' hsign.not_gt
  · exact absurd hsign' hsign.not_gt
  · rw [oneSided, oneSided, if_neg hsign.not_ge, if_neg hsign.not_ge, max_eq_right hpast,
      max_eq_right hpast']

theorem oneSided_one (h : 0 ≤ epsilon) (advantage : K) :
    oneSided epsilon 1 advantage = advantage := by
  have hupper : min (1 : K) (1 + epsilon) = 1 := by grind
  have hlower : max (1 : K) (1 - epsilon) = 1 := by grind
  rw [oneSided, hupper, hlower, one_mul, ite_self]

end

theorem mean_le_mean {α β : Type} {f g : α → β → K} (h : ∀ a b, f a b ≤ g a b) (as : List α)
    (bs : List β) : mean (List.zipWith f as bs) ≤ mean (List.zipWith g as bs) := by
  have hsum : (List.zipWith f as bs).sum ≤ (List.zipWith g as bs).sum := by
    rw [← List.map_uncurry_zip_eq_zipWith, ← List.map_uncurry_zip_eq_zipWith]
    exact List.sum_le_sum fun _ _ => h _ _
  rw [mean_eq, mean_eq, List.length_zipWith, List.length_zipWith]
  exact div_le_div_of_nonneg_right hsum (Nat.cast_nonneg _)

/-- Minus the mean of the terms that are cut on one side. -/
def oneSidedLoss (epsilon : K) (logProbs olds advantages : List K) : K :=
  -mean (List.zipWith (oneSided epsilon) (ratios logProbs olds) advantages)

section

variable {epsilon : K} {logProbs olds advantages : List K}

theorem ppo_eq_oneSidedLoss (h : 0 ≤ epsilon) (holds : olds.length = logProbs.length)
    (hadvantages : advantages.length = logProbs.length) :
    ppo logProbs olds advantages epsilon =
      .ok (oneSidedLoss epsilon logProbs olds advantages) := by
  have hterms : surrogate epsilon = oneSided epsilon :=
    funext₂ fun ratio advantage => surrogate_eq_oneSided h ratio advantage
  rw [ppo_eq h holds hadvantages, hterms]
  rfl

theorem length_ratios (holds : olds.length = logProbs.length) :
    (ratios logProbs olds).length = logProbs.length := by
  rw [ratios, List.length_zipWith, holds, min_self]

theorem oneSidedLoss_congr {logProbs' olds' : List K}
    (hlength : (ratios logProbs olds).length = advantages.length)
    (hlength' : (ratios logProbs' olds').length = advantages.length)
    (h : ∀ i < advantages.length, MovedPast epsilon (advantages.getD i 0)
      ((ratios logProbs olds).getD i 0) ((ratios logProbs' olds').getD i 0)) :
    oneSidedLoss epsilon logProbs' olds' advantages =
      oneSidedLoss epsilon logProbs olds advantages := by
  have hterms : List.zipWith (oneSided epsilon) (ratios logProbs' olds') advantages =
      List.zipWith (oneSided epsilon) (ratios logProbs olds) advantages := by
    apply List.ext_getElem
    · rw [List.length_zipWith, List.length_zipWith, hlength, hlength']
    · intro i hi _
      have hi : i < advantages.length := by
        rw [List.length_zipWith, hlength', min_self] at hi
        exact hi
      have hmoved := h i hi
      rw [List.getD_eq_getElem _ _ hi, List.getD_eq_getElem _ _ (hlength ▸ hi),
        List.getD_eq_getElem _ _ (hlength' ▸ hi)] at hmoved
      rw [List.getElem_zipWith, List.getElem_zipWith]
      exact oneSided_congr hmoved
  rw [oneSidedLoss, hterms, oneSidedLoss]

theorem oneSidedLoss_self (h : 0 ≤ epsilon) (hexp : Scalar.exp (0 : K) = 1)
    (hadvantages : advantages.length = logProbs.length) :
    oneSidedLoss epsilon logProbs logProbs advantages = -mean advantages := by
  have hterms : List.zipWith (oneSided epsilon) (ratios logProbs logProbs) advantages =
      advantages := by
    rw [ratios, List.zipWith_self]
    apply List.ext_getElem
    · simp [hadvantages]
    · intro i _ _
      simp [hexp, oneSided_one h]
  rw [oneSidedLoss, hterms]

end

end Diagnostic

namespace PolicyLoss

/-- The clipped loss of these lists is `x`, in its list form and in the tensor form of any tensors
with these row-major data. -/
structure PpoIs (epsilon : K) (logProbs olds advantages : List K) (x : K) : Prop where
  listed : Diagnostic.ppo logProbs olds advantages epsilon = .ok x
  tensors : ∀ (distribution : Distribution K) (inputs actions : Tensor K 3)
    (current gains : Tensor K 2) (recorded : Tensor K 3),
    distribution.logProb inputs actions = .ok current → Beside current gains recorded →
    current.toList = logProbs → recorded.toList = olds → gains.toList = advantages →
      (ppo distribution epsilon).value inputs actions gains recorded = .ok x

/-- The one-sided form of the clipped loss, and what follows from it. -/
structure OneSided (epsilon : K) (logProbs olds advantages : List K) : Prop where
  oneSided : PpoIs epsilon logProbs olds advantages
    (Diagnostic.oneSidedLoss epsilon logProbs olds advantages)
  pessimistic : -Diagnostic.mean (List.zipWith (· * ·) (Diagnostic.ratios logProbs olds)
    advantages) ≤ Diagnostic.oneSidedLoss epsilon logProbs olds advantages
  /-- Past its bound a ratio moves without an effect. -/
  flat : ∀ logProbs' olds' : List K, logProbs'.length = logProbs.length →
    olds'.length = logProbs.length →
    (∀ i < advantages.length, Diagnostic.MovedPast epsilon (advantages.getD i 0)
      ((Diagnostic.ratios logProbs olds).getD i 0)
      ((Diagnostic.ratios logProbs' olds').getD i 0)) →
      PpoIs epsilon logProbs' olds' advantages
        (Diagnostic.oneSidedLoss epsilon logProbs olds advantages)
  unmoved : logProbs = olds →
    PpoIs epsilon logProbs olds advantages (-Diagnostic.mean advantages)

variable {epsilon : K} {logProbs olds advantages : List K}

theorem ppoIs_oneSidedLoss (h : 0 ≤ epsilon) (holds : olds.length = logProbs.length)
    (hadvantages : advantages.length = logProbs.length) :
    PpoIs epsilon logProbs olds advantages
      (Diagnostic.oneSidedLoss epsilon logProbs olds advantages) := by
  have hlisted := Diagnostic.ppo_eq_oneSidedLoss h holds hadvantages
  refine ⟨hlisted, fun _ _ _ current gains recorded hcurrent hbeside hlogProbs holds hgains => ?_⟩
  rw [ppo_value_eq h hcurrent hbeside, hlogProbs, holds, hgains, hlisted]

/-- The clipped loss, in both forms, is minus the mean of the terms that are cut on one side.  So it
is never below the unclipped one, moves of ratios past their bounds do not change it, and where no
ratio has moved it is minus the mean of the advantages. -/
theorem ppo_oneSided (hepsilon : 0 ≤ epsilon) (hexp : Scalar.exp (0 : K) = 1)
    (holds : olds.length = logProbs.length) (hadvantages : advantages.length = logProbs.length) :
    OneSided epsilon logProbs olds advantages := by
  have hloss := ppoIs_oneSidedLoss hepsilon holds hadvantages
  refine ⟨hloss, neg_le_neg ?_, fun logProbs' olds' hlogProbs' holds' hmoved => ?_, ?_⟩
  · exact Diagnostic.mean_le_mean (Diagnostic.oneSided_le hepsilon) _ _
  · have hlength := (Diagnostic.length_ratios holds).trans hadvantages.symm
    have hlength' : (Diagnostic.ratios logProbs' olds').length = advantages.length := by
      rw [Diagnostic.length_ratios (holds'.trans hlogProbs'.symm), hlogProbs', hadvantages]
    rw [← Diagnostic.oneSidedLoss_congr hlength hlength' hmoved]
    exact ppoIs_oneSidedLoss hepsilon (holds'.trans hlogProbs'.symm)
      (hadvantages.trans hlogProbs'.symm)
  · rintro rfl
    rwa [Diagnostic.oneSidedLoss_self hepsilon hexp hadvantages] at hloss

namespace Line

open Objective.Line

/-- A distribution that gives out these log-probabilities. -/
def reciting (rows : Tensor ℚ 2) : Distribution ℚ where
  inputs := 1
  logProb _ _ := .ok rows
  pullback inputs _ _ := .ok inputs

/-- Two timesteps with ratios past their bounds, and the same timesteps with ratios of one. -/
theorem ppo_oneSided_steps :
    (∃ x, Diagnostic.ppo [1, -1 / 2] [0, 0] [1, -2] (1 / 5 : ℚ) = .ok x ∧
      (ppo (reciting (row [1, -1 / 2])) (1 / 5)).value (slice [0, 1]) (slice [1, 2])
        (row [1, -2]) (slice [0, 0]) = .ok x ∧
      Diagnostic.ppo [2, -3 / 4] [0, 0] [1, -2] (1 / 5 : ℚ) = .ok x) ∧
    Diagnostic.ppo [1, -1 / 2] [1, -1 / 2] [1, -2] (1 / 5 : ℚ) =
      .ok (-Diagnostic.mean [1, -2]) := by
  have hepsilon : (0 : ℚ) ≤ 1 / 5 := by norm_num
  have hexp : Scalar.exp (0 : ℚ) = 1 := add_zero 1
  have hsteps : OneSided (1 / 5 : ℚ) [1, -1 / 2] [0, 0] [1, -2] :=
    ppo_oneSided hepsilon hexp rfl rfl
  have hsame : OneSided (1 / 5 : ℚ) [1, -1 / 2] [1, -1 / 2] [1, -2] :=
    ppo_oneSided hepsilon hexp rfl rfl
  refine ⟨⟨_, hsteps.oneSided.listed, ?_, ?_⟩, (hsame.unmoved rfl).listed⟩
  · exact hsteps.oneSided.tensors _ _ _ _ _ _ rfl ⟨rfl, rfl, Nat.two_pos⟩ rfl rfl rfl
  · refine (hsteps.flat [2, -3 / 4] [0, 0] rfl rfl fun i hi => .inr ?_).listed
    match i, hi with
    | 0, _ => exact ⟨.inl (by decide +kernel), .inl (by decide +kernel)⟩
    | 1, _ => exact ⟨.inr (by decide +kernel), .inr (by decide +kernel)⟩

end Line

end PolicyLoss

end PolicyGradient
