import Mathlib.Algebra.BigOperators.Ring.Finset
import Mathlib.Algebra.Order.Field.Rat
import Mathlib.Tactic.NormNum
import PolicyGradient.Proofs.Exact
import PolicyGradient.Proofs.Windows

/-!
Advantages with different look-aheads.

In exact arithmetic the advantage with a look-ahead of `n` timesteps is the discounted sum of the
next `n` one-step advantages, and where the returns are those of the rewards it is the difference of
two advantages without a look-ahead (`Advantage.ofSlice_telescopes`).
-/

namespace PolicyGradient.Advantage

open scoped Exact
open Outcome

variable {K : Type} [OrderedField K] [Exact.Elementary K]
variable {rewards returns values : List K} {gamma : K} {n t : Nat}

/-- The running total is linear in the total and the weight that it starts from. -/
theorem foldl_discounted (gamma total weight : K) (rewards : List K) :
    (rewards.foldl (fun (total, weight) r => (total + weight * r, weight * gamma))
      (total, weight)).1 = total + weight * discounted gamma rewards := by
  unfold discounted
  induction rewards generalizing total weight with
  | nil => simp
  | cons r rewards ih =>
      simp only [List.foldl_cons]
      rw [ih (total + weight * r) (weight * gamma), ih (0 + 1 * r) (1 * gamma)]
      ring

/-- A later reward is weighted with one more discount. -/
theorem discounted_cons (gamma r : K) (rewards : List K) :
    discounted gamma (r :: rewards) = r + gamma * discounted gamma rewards := by
  rw [discounted, List.foldl_cons, foldl_discounted]
  ring

/-- A window begins with the reward of its timestep. -/
theorem discounted_window (gamma : K) (ht : t < rewards.length) :
    discounted gamma ((rewards.drop t).take (n + 1)) =
      rewards.getD t 0 + gamma * discounted gamma ((rewards.drop (t + 1)).take n) := by
  rw [List.drop_eq_getElem_cons ht, List.take_succ_cons, discounted_cons]
  simp [ht]

theorem bootstrap_eq (gamma : K) (hn : n < 2 ^ 31) : bootstrap gamma n = gamma ^ n :=
  Exact.zpower_toSigned32 gamma hn

theorem ahead_zero (rewards values : List K) (gamma : K) (t : Nat) :
    ahead rewards values gamma 0 t = 0 := by
  rw [ahead, bootstrap_eq gamma (by omega)]
  simp [discounted]

theorem ahead_one (ht : t < rewards.length) : ahead rewards values gamma 1 t =
    rewards.getD t 0 + gamma * values.getD (t + 1) 0 - values.getD t 0 := by
  rw [ahead, bootstrap_eq gamma (by omega), discounted_window gamma ht]
  simp [discounted]

/-- One timestep more to look ahead to is a one-step advantage before the discounted rest. -/
theorem ahead_succ (hn : n + 1 < 2 ^ 31) (ht : t < rewards.length) :
    ahead rewards values gamma (n + 1) t =
      ahead rewards values gamma 1 t + gamma * ahead rewards values gamma n (t + 1) := by
  have hnext : t + (n + 1) = t + 1 + n := by omega
  rw [ahead_one ht, ahead, ahead, bootstrap_eq gamma hn, bootstrap_eq gamma (by omega),
    discounted_window gamma ht, hnext]
  ring

/-- The discounted sum of one-step advantages. -/
theorem ahead_eq_sum (hn : n < 2 ^ 31) (ht : t + n ≤ rewards.length) :
    ahead rewards values gamma n t =
      ∑ i ∈ Finset.range n, gamma ^ i * ahead rewards values gamma 1 (t + i) := by
  induction n generalizing t with
  | zero => simp [ahead_zero]
  | succ n ih =>
      have hshift : ∀ i, t + 1 + i = t + (i + 1) := fun i => by omega
      rw [ahead_succ hn (by omega), ih (by omega) (by omega), Finset.sum_range_succ',
        Finset.mul_sum]
      simp only [hshift, pow_succ', pow_zero, one_mul, mul_assoc, Nat.add_zero]
      ring

/-- Every return is its reward and the discounted next return. -/
def Consistent (rewards returns : List K) (gamma : K) : Prop :=
  ∀ t, t + 1 < rewards.length →
    returns.getD t 0 = rewards.getD t 0 + gamma * returns.getD (t + 1) 0

/-- With consistent returns the rewards ahead are a difference of returns. -/
theorem ahead_of_consistent (h : Consistent rewards returns gamma) (hn : n < 2 ^ 31)
    (ht : t + n < rewards.length) : ahead rewards values gamma n t =
      (returns.getD t 0 - values.getD t 0)
        - gamma ^ n * (returns.getD (t + n) 0 - values.getD (t + n) 0) := by
  induction n generalizing t with
  | zero => simp [ahead_zero]
  | succ n ih =>
      have hnext : t + 1 + n = t + (n + 1) := by omega
      rw [ahead_succ hn (by omega), ahead_one (by omega), ih (by omega) (by omega), hnext,
        h t (by omega)]
      ring

theorem getD_of_ofSlice {row : List K} (h : ofSlice rewards returns values gamma n = .ok row)
    (ht : t < rewards.length - n) :
    row.getD t 0 = atTime rewards returns values gamma n t := by
  rw [← (ofSlice_eq_ok.mp h).2.2.2]
  simp [List.getElem?_range ht]

/-- Advantages with a look-ahead telescope, and those without one are their case of consistent
returns. -/
theorem ofSlice_telescopes (hreturns : returns.length = rewards.length)
    (hvalues : values.length = rewards.length) (hpos : 1 ≤ n) (hlt : n < rewards.length)
    (hword : n < 2 ^ 31) :
    ∃ plain single advantages,
      ofSlice rewards returns values gamma 0 = .ok plain ∧ plain.length = rewards.length ∧
      ofSlice rewards returns values gamma 1 = .ok single ∧
        single.length = rewards.length - 1 ∧
      ofSlice rewards returns values gamma n = .ok advantages ∧
        advantages.length = rewards.length - n ∧
      ∀ t < rewards.length - n,
        advantages.getD t 0 = ∑ i ∈ Finset.range n, gamma ^ i * single.getD (t + i) 0 ∧
        (Consistent rewards returns gamma →
          advantages.getD t 0 = plain.getD t 0 - gamma ^ n * plain.getD (t + n) 0) := by
  have hmade : ∀ k < rewards.length, ∃ row, ofSlice rewards returns values gamma k = .ok row ∧
      row.length = rewards.length - k := by
    intro k hk
    have hmakes : ∃ row, ofSlice rewards returns values gamma k = .ok row :=
      exists_ofSlice hreturns hvalues hk
    obtain ⟨row, hrow⟩ := hmakes
    refine ⟨row, hrow, ?_⟩
    simp [← (ofSlice_eq_ok.mp hrow).2.2.2]
  obtain ⟨plain, hplain, hlength⟩ := hmade 0 (by omega)
  obtain ⟨single, hsingle, hlength'⟩ := hmade 1 (by omega)
  obtain ⟨advantages, hadvantages, hlength''⟩ := hmade n hlt
  refine ⟨plain, single, advantages, hplain, hlength, hsingle, hlength', hadvantages, hlength'',
    fun t ht => ⟨?_, fun hconsistent => ?_⟩⟩
  · rw [getD_of_ofSlice hadvantages ht, atTime, if_neg (by omega), ahead_eq_sum hword (by omega)]
    apply Finset.sum_congr rfl
    intro i hi
    have hi := Finset.mem_range.mp hi
    rw [getD_of_ofSlice hsingle (by omega), atTime, if_neg Nat.one_ne_zero]
  · rw [getD_of_ofSlice hadvantages ht, atTime, if_neg (by omega),
      ahead_of_consistent hconsistent hword (by omega), getD_of_ofSlice hplain (by omega),
      getD_of_ofSlice hplain (by omega), atTime, atTime, if_pos rfl, if_pos rfl]

namespace Line

/-- Functions on the rationals in place of the elementary ones, which advantages do not use. -/
scoped instance elementary : Exact.Elementary ℚ where
  exp := id
  ln := id
  sqrt := id
  tanh := id
  pi := 3
  truncate? x := some x.num

/-- The returns of these rewards with the discount 1 / 2. -/
theorem consistent_four : Consistent (K := ℚ) [1, 0, 2, 4] [2, 2, 4, 4] (1 / 2) := by
  intro t ht
  match t, ht with
  | 0, _ => norm_num
  | 1, _ => norm_num
  | 2, _ => norm_num
  | t + 3, ht =>
      simp only [List.length_cons, List.length_nil] at ht
      omega

/-- A slice of four timesteps with consistent returns and a look-ahead of two. -/
theorem ofSlice_telescopes_four : ∃ plain single advantages : List ℚ,
    ofSlice [1, 0, 2, 4] [2, 2, 4, 4] [0, 1, 2, 3] (1 / 2) 0 = .ok plain ∧
    ofSlice [1, 0, 2, 4] [2, 2, 4, 4] [0, 1, 2, 3] (1 / 2) 1 = .ok single ∧
    ofSlice [1, 0, 2, 4] [2, 2, 4, 4] [0, 1, 2, 3] (1 / 2) 2 = .ok advantages ∧
    ∀ t < 2,
      advantages.getD t 0 = ∑ i ∈ Finset.range 2, (1 / 2) ^ i * single.getD (t + i) 0 ∧
      advantages.getD t 0 = plain.getD t 0 - (1 / 2) ^ 2 * plain.getD (t + 2) 0 := by
  obtain ⟨plain, single, advantages, hplain, _, hsingle, _, hadvantages, _, hentries⟩ :=
    @ofSlice_telescopes ℚ _ _ [1, 0, 2, 4] [2, 2, 4, 4] [0, 1, 2, 3] (1 / 2) 2 rfl rfl (by decide)
      (by decide) (by decide)
  refine ⟨plain, single, advantages, hplain, hsingle, hadvantages, fun t ht => ?_⟩
  obtain ⟨hsum, hplain⟩ := hentries t ht
  exact ⟨hsum, hplain consistent_four⟩

end Line

end PolicyGradient.Advantage
