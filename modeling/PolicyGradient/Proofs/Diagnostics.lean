import Mathlib
import PolicyGradient.Loss.Diagnostic
import PolicyGradient.Loss.Policy
import PolicyGradient.Proofs.Sums

/-!
Losses of tensors and losses of lists.

In exact arithmetic the list forms of the losses are means and sums of their terms, and the losses
of tensors of the same timesteps are their list forms of the row-major data.
-/

namespace PolicyGradient

open Outcome

namespace PolicyLoss

section

variable {α : Type}

/-- Log-probabilities with advantages and recorded log-probabilities of the same timesteps, of which
there are some. -/
structure Beside (logProbs advantages : Tensor α 2) (old : Tensor α 3) : Prop where
  advantages : advantages.shape = logProbs.shape
  old : old.shape = [logProbs.axis 0, logProbs.axis 1, 1]
  nonempty : 0 < logProbs.toList.length

variable {logProbs advantages : Tensor α 2} {old : Tensor α 3}

theorem Beside.length_advantages (h : Beside logProbs advantages old) :
    advantages.toList.length = logProbs.toList.length := by
  rw [Tensor.length_toList_eq, Tensor.length_toList_eq, h.advantages]

theorem Beside.length_old (h : Beside logProbs advantages old) :
    old.toList.length = logProbs.toList.length := by
  rw [Tensor.length_toList_eq, Tensor.length_toList_eq, h.old, logProbs.shape_eq_two]
  simp [Size.volume]

end

end PolicyLoss

open scoped Exact

variable {K : Type} [OrderedField K] [Exact.Elementary K]

namespace Diagnostic

/-- One term of the clipped surrogate, from the probability ratio. -/
def surrogate (epsilon ratio advantage : K) : K :=
  min (ratio * advantage) (max (1 - epsilon) (min (1 + epsilon) ratio) * advantage)

/-- Probability ratios of two lists of log-probabilities. -/
def ratios (logProbs olds : List K) : List K :=
  List.zipWith (fun new old => Scalar.exp (new - old)) logProbs olds

theorem clippedTerm_eq {epsilon : K} (h : 0 ≤ epsilon) (logProb old advantage : K) :
    clippedTerm epsilon logProb old advantage =
      .ok (surrogate epsilon (Scalar.exp (logProb - old)) advantage) := by
  have hbounds : (1 : K) - epsilon ≤ 1 + epsilon := by grind
  rw [clippedTerm, Exact.clamp?_eq hbounds]
  exact congrArg Except.ok (Exact.lesser_eq_min _ _)

theorem clippedTerms_eq {epsilon : K} (h : 0 ≤ epsilon) (logProbs olds advantages : List K) :
    clippedTerms epsilon logProbs olds advantages =
      .ok (List.zipWith (surrogate epsilon) (ratios logProbs olds) advantages) := by
  fun_induction clippedTerms epsilon logProbs olds advantages with
  | case1 logProb logProbs old olds advantage advantages ih =>
      rw [clippedTerm_eq h, ih]
      rfl
  | case2 logProbs olds advantages hends =>
      cases logProbs with
      | nil => rfl
      | cons logProb logProbs =>
          cases olds with
          | nil => rfl
          | cons old olds =>
              cases advantages with
              | nil => rfl
              | cons advantage advantages => exact absurd rfl (hends _ _ _ _ _ _ rfl rfl)

section

variable {logProbs olds advantages : List K}

theorem a2c_eq (hadvantages : advantages.length = logProbs.length) :
    a2c logProbs advantages = .ok (-mean (List.zipWith (· * ·) logProbs advantages)) :=
  bind_eq_ok.mpr ⟨(), equallyLong_eq_ok.mpr hadvantages.symm, rfl⟩

theorem ppo_eq {epsilon : K} (h : 0 ≤ epsilon) (holds : olds.length = logProbs.length)
    (hadvantages : advantages.length = logProbs.length) :
    ppo logProbs olds advantages epsilon =
      .ok (-mean (List.zipWith (surrogate epsilon) (ratios logProbs olds) advantages)) := by
  refine bind_eq_ok.mpr ⟨(), equallyLong_eq_ok.mpr holds, bind_eq_ok.mpr ⟨(), ?_, ?_⟩⟩
  · exact equallyLong_eq_ok.mpr hadvantages
  · exact bind_eq_ok.mpr ⟨_, clippedTerms_eq h logProbs olds advantages, rfl⟩

theorem awr_eq (beta cap : K) (hadvantages : advantages.length = logProbs.length) :
    awr logProbs advantages beta cap = .ok (-mean (List.zipWith
      (fun logProb a => logProb * min (Scalar.exp (a / beta)) cap) logProbs advantages)) := by
  refine bind_eq_ok.mpr ⟨(), equallyLong_eq_ok.mpr hadvantages.symm, ?_⟩
  simp only [Exact.lesser_eq_min]
  rfl

end

theorem weightedSquares_eq {predictions targets weights : List K}
    (htargets : targets.length = predictions.length)
    (hweights : weights.length = predictions.length) :
    weightedSquares predictions targets weights =
      .ok ((List.zipWith (· * ·) weights
        (List.zipWith (fun y t => (y - t) * (y - t)) predictions targets)).sum /
          max weights.sum ValueLoss.leastWeight) := by
  refine bind_eq_ok.mpr ⟨(), equallyLong_eq_ok.mpr htargets.symm, bind_eq_ok.mpr ⟨(), ?_, ?_⟩⟩
  · exact equallyLong_eq_ok.mpr hweights.symm
  · simp only [Exact.sum_eq, Exact.greater_eq_max]
    rfl

end Diagnostic

theorem Tensor.mean_eq {rank : Nat} {t : Tensor K rank} (h : 0 < t.toList.length) :
    t.mean = .ok (Diagnostic.mean t.toList) :=
  mean_eq_ok.mpr ⟨h, (Diagnostic.mean_eq _).symm⟩

namespace PolicyLoss

section

variable {logProbs advantages : Tensor K 2} {old : Tensor K 3}
variable {distribution : Distribution K} {inputs actions : Tensor K 3}

/-- The negated mean of tensors of one shape that are combined is that of their lists. -/
theorem negated_mean_zipWith (f : K → K → K) {s t : Tensor K 2} (hshape : s.shape = t.shape)
    (h : 0 < s.toList.length) : (do return -(← (← s.zipWith f t).mean) : Outcome K) =
      .ok (-Diagnostic.mean (List.zipWith f s.toList t.toList)) := by
  obtain ⟨u, hu, hshape', hentries⟩ := Tensor.exists_zipWith f hshape
  have hlength : 0 < u.toList.length := by
    rwa [Tensor.length_toList_eq, hshape', ← Tensor.length_toList_eq]
  refine bind_eq_ok.mpr ⟨u, hu, bind_eq_ok.mpr ⟨_, Tensor.mean_eq hlength, ?_⟩⟩
  rw [hentries]
  rfl

theorem a2c_value_eq (h : distribution.logProb inputs actions = .ok logProbs)
    (hbeside : Beside logProbs advantages old) :
    (a2c distribution).value inputs actions advantages old =
      Diagnostic.a2c logProbs.toList advantages.toList := by
  rw [Diagnostic.a2c_eq hbeside.length_advantages]
  refine bind_eq_ok.mpr ⟨logProbs, h, ?_⟩
  exact negated_mean_zipWith _ hbeside.advantages.symm hbeside.nonempty

theorem toList_weights (beta cap : K) (advantages : Tensor K 2) :
    (weights beta cap advantages).toList =
      advantages.toList.map fun a => min (Scalar.exp (a / beta)) cap := by
  rw [weights, Tensor.toList_map]
  apply List.map_congr_left
  intro a _
  simp only [Scalar.lt, decide_eq_true_eq]
  grind

theorem awr_value_eq (beta cap : K) (h : distribution.logProb inputs actions = .ok logProbs)
    (hbeside : Beside logProbs advantages old) :
    (awr distribution beta cap).value inputs actions advantages old =
      Diagnostic.awr logProbs.toList advantages.toList beta cap := by
  rw [Diagnostic.awr_eq beta cap hbeside.length_advantages]
  refine bind_eq_ok.mpr ⟨logProbs, h, ?_⟩
  have hmean := negated_mean_zipWith (· * ·) (t := weights beta cap advantages)
    hbeside.advantages.symm hbeside.nonempty
  rwa [toList_weights, List.zipWith_map_right] at hmean

theorem cut_eq {lo hi : K} (h : lo ≤ hi) (x : K) : cut lo hi x = max lo (min hi x) := by
  simp only [cut, Scalar.lt, decide_eq_true_eq]
  grind

theorem pessimistic_eq (plain clipped : K) : pessimistic plain clipped = min plain clipped := by
  simp only [pessimistic, Scalar.lt, decide_eq_true_eq]
  grind

/-- Recorded log-probabilities lose their depth. -/
theorem exists_ratios (hbeside : Beside logProbs advantages old) : ∃ ratio,
    ratios logProbs old = .ok ratio ∧ ratio.shape = logProbs.shape ∧
      ratio.toList = Diagnostic.ratios logProbs.toList old.toList := by
  have hfront : old.front.toList = logProbs.shape := by
    rw [Tensor.front, logProbs.shape_eq_two]
    simp [Tensor.axis, hbeside.old]
  have hvolume : Size.volume old.shape = Size.volume old.front.toList := by
    rw [hfront, hbeside.old, logProbs.shape_eq_two]
    simp [Size.volume]
  obtain ⟨flat, hflat, hshape⟩ := Tensor.exists_reshape hvolume
  obtain ⟨ratio, hratio, hshape', hentries⟩ :=
    Tensor.exists_zipWith (fun new old => Scalar.exp (new - old)) (hfront.symm.trans hshape.symm)
  rw [(Tensor.of_reshape hflat).2] at hentries
  exact ⟨ratio, bind_eq_ok.mpr ⟨flat, hflat, hratio⟩, hshape', hentries⟩

theorem ppo_value_eq {epsilon : K} (hepsilon : 0 ≤ epsilon)
    (h : distribution.logProb inputs actions = .ok logProbs)
    (hbeside : Beside logProbs advantages old) :
    (ppo distribution epsilon).value inputs actions advantages old =
      Diagnostic.ppo logProbs.toList old.toList advantages.toList epsilon := by
  have hbounds : (1 : K) - epsilon ≤ 1 + epsilon := by grind
  obtain ⟨ratio, hratio, hshape, hratios⟩ := exists_ratios hbeside
  have hadvantages : ratio.shape = advantages.shape := hshape.trans hbeside.advantages.symm
  obtain ⟨plain, hplain, hshape', hterms⟩ := Tensor.exists_zipWith (· * ·) hadvantages
  obtain ⟨clipped, hclipped, hshape'', hterms'⟩ := Tensor.exists_zipWith (· * ·)
    (show (ratio.map (cut (1 - epsilon) (1 + epsilon))).shape = advantages.shape from hadvantages)
  have hlength : 0 < plain.toList.length := by
    rw [Tensor.length_toList_eq, hshape', hshape, ← Tensor.length_toList_eq]
    exact hbeside.nonempty
  have hmean := negated_mean_zipWith pessimistic (hshape'.trans hshape''.symm) hlength
  rw [Diagnostic.ppo_eq hepsilon hbeside.length_old hbeside.length_advantages, ← hratios]
  refine bind_eq_ok.mpr ⟨logProbs, h, bind_eq_ok.mpr ⟨ratio, hratio,
    bind_eq_ok.mpr ⟨plain, hplain, bind_eq_ok.mpr ⟨clipped, hclipped, hmean.trans ?_⟩⟩⟩⟩
  have hsurrogate : List.zipWith pessimistic plain.toList clipped.toList =
      List.zipWith (Diagnostic.surrogate epsilon) ratio.toList advantages.toList := by
    rw [hterms, hterms', Tensor.toList_map]
    apply List.ext_getElem
    · simp
    · intro i _ _
      simp [pessimistic_eq, cut_eq hbounds, Diagnostic.surrogate]
  rw [hsurrogate]

end

/-- A loss and its list form: A2C, PPO and AWR, with a clip and a temperature that their list forms
take. -/
inductive HasListForm (distribution : Distribution K) :
    PolicyLoss K → (List K → List K → List K → Outcome K) → Prop
  | a2c : HasListForm distribution (.a2c distribution)
      fun logProbs _ advantages => Diagnostic.a2c logProbs advantages
  | ppo {epsilon : K} (h : 0 ≤ epsilon) : HasListForm distribution (.ppo distribution epsilon)
      fun logProbs olds advantages => Diagnostic.ppo logProbs olds advantages epsilon
  | awr {beta cap : K} (h : 0 < beta) : HasListForm distribution (.awr distribution beta cap)
      fun logProbs _ advantages => Diagnostic.awr logProbs advantages beta cap

variable {distribution : Distribution K} {loss : PolicyLoss K}
variable {form : List K → List K → List K → Outcome K} {inputs actions : Tensor K 3}
variable {logProbs advantages : Tensor K 2} {old : Tensor K 3}

/-- Of tensors with the same timesteps, a loss is its list form of the row-major data. -/
theorem HasListForm.value_eq (hform : HasListForm distribution loss form)
    (h : distribution.logProb inputs actions = .ok logProbs)
    (hbeside : Beside logProbs advantages old) :
    loss.value inputs actions advantages old =
      form logProbs.toList old.toList advantages.toList := by
  cases hform with
  | a2c => exact a2c_value_eq h hbeside
  | ppo hepsilon => exact ppo_value_eq hepsilon h hbeside
  | awr => exact awr_value_eq _ _ h hbeside

theorem HasListForm.exists_form (hform : HasListForm distribution loss form)
    {logProbs olds advantages : List K} (holds : olds.length = logProbs.length)
    (hadvantages : advantages.length = logProbs.length) :
    ∃ x, form logProbs olds advantages = .ok x := by
  cases hform with
  | a2c => exact ⟨_, Diagnostic.a2c_eq hadvantages⟩
  | ppo hepsilon => exact ⟨_, Diagnostic.ppo_eq hepsilon holds hadvantages⟩
  | awr => exact ⟨_, Diagnostic.awr_eq _ _ hadvantages⟩

/-- There is no loss without log-probabilities. -/
theorem HasListForm.exists_logProb (hform : HasListForm distribution loss form) {x : K}
    (h : loss.value inputs actions advantages old = .ok x) :
    ∃ logProbs, distribution.logProb inputs actions = .ok logProbs := by
  cases hform with
  | a2c =>
      obtain ⟨logProbs, hlogProbs, _⟩ := bind_eq_ok.mp h
      exact ⟨logProbs, hlogProbs⟩
  | ppo =>
      obtain ⟨logProbs, hlogProbs, _⟩ := bind_eq_ok.mp h
      exact ⟨logProbs, hlogProbs⟩
  | awr =>
      obtain ⟨logProbs, hlogProbs, _⟩ := bind_eq_ok.mp h
      exact ⟨logProbs, hlogProbs⟩

end PolicyLoss

namespace ValueLoss

theorem totalWeight_eq (weights : Tensor K 3) :
    totalWeight weights = max weights.toList.sum leastWeight := by
  simp only [totalWeight, Tensor.sum_eq, Scalar.lt, decide_eq_true_eq]
  grind

/-- Of tensors of one shape, the value loss is its list form of the row-major data. -/
theorem value_eq {predictions targets weights : Tensor K 3}
    (htargets : predictions.shape = targets.shape) (hweights : weights.shape = targets.shape) :
    value predictions targets weights = Diagnostic.weightedSquares predictions.toList
      targets.toList weights.toList := by
  have hlength : targets.toList.length = predictions.toList.length := by
    rw [Tensor.length_toList_eq, Tensor.length_toList_eq, htargets]
  have hlength' : weights.toList.length = predictions.toList.length := by
    rw [← hlength, Tensor.length_toList_eq, Tensor.length_toList_eq, hweights]
  obtain ⟨squared, hsquared, hshape, hsquares⟩ :=
    Tensor.exists_zipWith (fun y t => (y - t) * (y - t)) htargets
  obtain ⟨weighted, hweighted, _, hterms⟩ :=
    Tensor.exists_zipWith (· * ·) (hshape.trans (htargets.trans hweights.symm))
  rw [Diagnostic.weightedSquares_eq hlength hlength']
  refine bind_eq_ok.mpr ⟨squared, hsquared, bind_eq_ok.mpr ⟨weighted, hweighted, ?_⟩⟩
  rw [Tensor.sum_eq, totalWeight_eq, hterms, hsquares, List.zipWith_comm_of_comm mul_comm]
  rfl

end ValueLoss

end PolicyGradient
