import PolicyGradient.Proofs.Outcome
import PolicyGradient.Proofs.Rates

/-!
The rates of a schedule stay below what its parameters allow.

`Schedule.Accepted` puts schedules together by their constructors, and with each of them the cap
that its parameters set.  Rates lie between zero and that cap at every step, by induction over the
warm-ups (`Schedule.within_of_accepted`).  That a formula never leaves its domain is said of
`Schedule.evaluate`, which checks every difference and every quotient and otherwise gives the rate.
-/

namespace PolicyGradient

open Outcome
open scoped Exact

/-- The difference of two sizes, or an overflow below zero. -/
def Size.sub (m n : Nat) : Outcome Nat :=
  if n ≤ m then .ok (m - n) else faultWith .overflow

theorem Size.sub_eq_ok {m n k : Nat} : Size.sub m n = .ok k ↔ n ≤ m ∧ k = m - n := by
  by_cases h : n ≤ m
  · simp [Size.sub, h, eq_comm]
  · simp [Size.sub, h]

variable {K : Type} [OrderedField K]

/-- The quotient of two exact scalars, or a fault where the divisor is zero. -/
def Exact.divide (x y : K) : Outcome K :=
  if y = 0 then faultWith .emptyDivision else .ok (x / y)

theorem Exact.divide_of_ne_zero {x y : K} (h : y ≠ 0) : Exact.divide x y = .ok (x / y) :=
  if_neg h

theorem Exact.divide_eq_ok {x y z : K} : Exact.divide x y = .ok z ↔ y ≠ 0 ∧ z = x / y := by
  by_cases h : y = 0
  · simp [Exact.divide, h]
  · simp [Exact.divide, h, eq_comm]

namespace Schedule

variable [Exact.Elementary K]

/-! ### Rates with every operation checked -/

/-- The rate at a step, where every difference of steps and every quotient is checked. -/
def evaluate : Schedule K → Nat → Outcome K
  | constant lr, _ => .ok lr
  | linearDecay start stop total, step =>
      if total = 0 then .ok start
      else do
        let part ← Exact.divide (step : K) (total : K)
        return finiteOr stop (between start stop (Scalar.lesser part 1))
  | warmup inner steps start, step =>
      if steps ≤ step then do
        let shifted ← Size.sub step steps
        inner.evaluate shifted
      else do
        let target ← inner.evaluate 0
        let part ← Exact.divide (step : K) (steps : K)
        return finiteOr start (between start target part)
  | multifactor factor steps, step => do
      let part ← Exact.divide (step : K) (steps : K)
      let decay ← Exact.divide 1 (Scalar.sqrt (Scalar.greater (step : K) (steps : K)))
      return factor * Scalar.lesser part 1 * decay
  | custom f, step => .ok (f step)

/-- Where all checks pass, the result is the rate. -/
theorem rate_of_evaluate {s : Schedule K} {step : Nat} {r : K} (h : s.evaluate step = .ok r) :
    s.rate step = r := by
  induction s generalizing step r with
  | constant lr =>
      cases h
      rfl
  | linearDecay start stop total =>
      rw [evaluate] at h
      rw [rate]
      split at h
      · next htotal =>
          cases h
          exact if_pos htotal
      · next htotal =>
          obtain ⟨part, hpart, hlast⟩ := bind_eq_ok.mp h
          obtain ⟨_, rfl⟩ := Exact.divide_eq_ok.mp hpart
          cases hlast
          exact if_neg htotal
  | warmup inner steps start ih =>
      rw [evaluate] at h
      rw [rate]
      split at h
      · next hover =>
          obtain ⟨shifted, hshifted, hinner⟩ := bind_eq_ok.mp h
          obtain ⟨_, rfl⟩ := Size.sub_eq_ok.mp hshifted
          rw [if_pos hover, ih hinner]
      · next hover =>
          obtain ⟨target, htarget, hrest⟩ := bind_eq_ok.mp h
          obtain ⟨part, hpart, hlast⟩ := bind_eq_ok.mp hrest
          obtain ⟨_, rfl⟩ := Exact.divide_eq_ok.mp hpart
          cases hlast
          rw [if_neg hover, ih htarget]
  | multifactor factor steps =>
      rw [evaluate] at h
      obtain ⟨part, hpart, hrest⟩ := bind_eq_ok.mp h
      obtain ⟨decay, hdecay, hlast⟩ := bind_eq_ok.mp hrest
      obtain ⟨_, rfl⟩ := Exact.divide_eq_ok.mp hpart
      obtain ⟨_, rfl⟩ := Exact.divide_eq_ok.mp hdecay
      cases hlast
      rfl
  | custom f =>
      cases h
      rfl

/-! ### Accepted schedules and their caps -/

/-- A schedule that the constructors have accepted, with the highest rate that its parameters
allow. -/
inductive Accepted : Schedule K → (cap : K) → Prop
  | constant {lr : K} {s : Schedule K} (h : constant? lr = .ok s) : Accepted s lr
  | linearDecay {start stop : K} {total : Nat} {s : Schedule K}
      (h : linearDecay? start stop total = .ok s) : Accepted s (max start stop)
  | multifactor {factor : K} {steps : Nat} {s : Schedule K}
      (h : multifactor? factor steps = .ok s) : Accepted s (factor / Scalar.sqrt (steps : K))
  | warmup {inner s : Schedule K} {cap start : K} {steps : Nat} (hinner : Accepted inner cap)
      (h : warmup? inner steps start = .ok s) : Accepted s (max start cap)

/-- Warm-ups of some total length around a schedule, all of them accepted. -/
inductive Nested (inner : Schedule K) : (total : Nat) → Schedule K → Prop
  | none : Nested inner 0 inner
  | warmup {s t : Schedule K} {start : K} {steps total : Nat} (hrest : Nested inner total s)
      (h : warmup? s steps start = .ok t) : Nested inner (steps + total) t

/-- All rates of a schedule are defined and lie between zero and the cap, and warm-ups only put
off the rates of what they stand around. -/
structure Within (s : Schedule K) (cap : K) : Prop where
  /-- No difference falls below zero and no divisor is zero. -/
  evaluate_eq : ∀ step, s.evaluate step = .ok (s.rate step)
  nonneg : ∀ step, 0 ≤ s.rate step
  le_cap : ∀ step, s.rate step ≤ cap
  delayed : ∀ inner total, Nested inner total s → ∀ k, s.rate (total + k) = inner.rate k

/-- After all warm-ups the rates are those of the schedule inside. -/
theorem Nested.rate_add {inner s : Schedule K} {total : Nat} (h : Nested inner total s) (k : Nat) :
    s.rate (total + k) = inner.rate k := by
  induction h with
  | none => rw [Nat.zero_add]
  | @warmup s t start steps total _ hmade ih =>
      obtain ⟨_, rfl⟩ := warmup?_eq_ok.mp hmade
      rw [Nat.add_assoc, rate_warmup_add, ih]

variable [Exact.SquareRoot K] {s : Schedule K} {cap : K}

theorem evaluate_multifactor {factor : K} {steps : Nat} (hsteps : 0 < steps) (step : Nat) :
    ∃ r, (multifactor factor steps).evaluate step = .ok r := by
  have hpos : (0 : K) < steps := Nat.cast_pos.mpr hsteps
  have hroot : Scalar.sqrt (Scalar.greater (step : K) (steps : K)) ≠ 0 := by
    rw [Exact.greater_eq_max]
    exact (Exact.sqrt_pos (lt_max_of_lt_right hpos)).ne'
  rw [evaluate, Exact.divide_of_ne_zero hpos.ne', Exact.divide_of_ne_zero hroot]
  exact ⟨_, rfl⟩

/-- The checks pass at every step. -/
theorem Accepted.exists_evaluate (h : Accepted s cap) (step : Nat) :
    ∃ r, s.evaluate step = .ok r := by
  induction h generalizing step with
  | constant hmade =>
      obtain ⟨_, rfl⟩ := constant?_eq_ok.mp hmade
      exact ⟨_, rfl⟩
  | linearDecay hmade =>
      obtain ⟨htotal, _, _, rfl⟩ := linearDecay?_eq_ok.mp hmade
      rw [evaluate, if_neg htotal.ne', Exact.divide_of_ne_zero (Nat.cast_pos.mpr htotal).ne']
      exact ⟨_, rfl⟩
  | multifactor hmade =>
      obtain ⟨_, hsteps, rfl⟩ := multifactor?_eq_ok.mp hmade
      exact evaluate_multifactor hsteps step
  | @warmup inner s cap start steps _ hmade ih =>
      obtain ⟨_, rfl⟩ := warmup?_eq_ok.mp hmade
      rw [evaluate]
      split
      · next hover =>
          obtain ⟨r, hr⟩ := ih (step - steps)
          exact ⟨r, bind_eq_ok.mpr ⟨_, Size.sub_eq_ok.mpr ⟨hover, rfl⟩, hr⟩⟩
      · next hover =>
          have hsteps : (0 : K) < steps := Nat.cast_pos.mpr (by omega)
          obtain ⟨target, htarget⟩ := ih 0
          rw [htarget, Exact.divide_of_ne_zero hsteps.ne']
          exact ⟨_, rfl⟩

/-- Rates lie between zero and the cap: a warm-up is on its way between two rates that do. -/
theorem Accepted.rate_mem_Icc (h : Accepted s cap) (step : Nat) : s.rate step ∈ Set.Icc 0 cap := by
  induction h generalizing step with
  | constant hmade =>
      obtain ⟨hlr, rfl⟩ := constant?_eq_ok.mp hmade
      exact ⟨hlr, le_rfl⟩
  | linearDecay hmade =>
      obtain ⟨htotal, hstart, hstop, rfl⟩ := linearDecay?_eq_ok.mp hmade
      rw [rate_linearDecay htotal]
      exact between_progress_mem_Icc hstart hstop _ step
  | @multifactor factor steps _ hmade =>
      obtain ⟨hfactor, hsteps, rfl⟩ := multifactor?_eq_ok.mp hmade
      refine ⟨?_, (peaks hfactor hsteps).greatest.2 ⟨step, rfl⟩⟩
      rw [rate_multifactor, ← Nat.cast_max]
      exact mul_nonneg (mul_nonneg hfactor (progress_nonneg step)) (inverse_nonneg _)
  | @warmup inner s cap start steps _ hmade ih =>
      obtain ⟨hstart, rfl⟩ := warmup?_eq_ok.mp hmade
      rcases Nat.lt_or_ge step steps with hbefore | hover
      · rw [rate_warmup_of_lt hbefore]
        have hrate := between_progress_mem_Icc hstart (ih 0).1 steps step
        exact ⟨hrate.1, hrate.2.trans (max_le_max_left start (ih 0).2)⟩
      · obtain ⟨k, rfl⟩ := Nat.exists_eq_add_of_le hover
        rw [rate_warmup_add]
        exact ⟨(ih k).1, (ih k).2.trans (le_max_right start cap)⟩

/-- However deep the warm-ups of a schedule are nested, its rates are defined at every step and
stay between zero and its cap. -/
theorem within_of_accepted (h : Accepted s cap) : Within s cap := by
  refine ⟨fun step => ?_, fun step => (h.rate_mem_Icc step).1, fun step => (h.rate_mem_Icc step).2,
    fun inner total hnested => hnested.rate_add⟩
  obtain ⟨r, hr⟩ := h.exists_evaluate step
  rw [rate_of_evaluate hr, hr]

namespace Line

/-- A warm-up without steps around a multifactor schedule, and a warm-up of three steps around
both. -/
noncomputable def twice : Schedule ℝ :=
  .warmup (.warmup (.multifactor 1 4) 0 1) 3 0

theorem accepted_twice : Accepted twice (max 0 (max 1 (1 / 2))) := by
  have hroot : Scalar.sqrt ((4 : ℕ) : ℝ) = 2 :=
    (Real.sqrt_eq_iff_mul_self_eq (by norm_num) (by norm_num)).mpr (by norm_num)
  have hinner : Accepted (Schedule.multifactor (1 : ℝ) 4) (1 / Scalar.sqrt ((4 : ℕ) : ℝ)) :=
    .multifactor (multifactor?_eq_ok.mpr ⟨by norm_num, by norm_num, rfl⟩)
  rw [hroot] at hinner
  exact .warmup (.warmup hinner (warmup?_eq_ok.mpr ⟨by norm_num, rfl⟩))
    (warmup?_eq_ok.mpr ⟨by norm_num, rfl⟩)

theorem nested_twice : Nested (.multifactor 1 4) (3 + (0 + 0)) twice :=
  .warmup (.warmup .none (warmup?_eq_ok.mpr ⟨by norm_num, rfl⟩))
    (warmup?_eq_ok.mpr ⟨by norm_num, rfl⟩)

/-- Its rates never pass one, and after three steps they are those of the schedule inside. -/
theorem within_twice : Accepted twice (max 0 (max 1 (1 / 2))) ∧
    (∀ step, twice.evaluate step = .ok (twice.rate step)) ∧ (∀ step, 0 ≤ twice.rate step) ∧
    (∀ step, twice.rate step ≤ 1) ∧
    ∀ k, twice.rate (3 + k) = (Schedule.multifactor (1 : ℝ) 4).rate k := by
  have hwithin : Within twice (max 0 (max 1 (1 / 2))) := within_of_accepted accepted_twice
  have hcap : max (0 : ℝ) (max 1 (1 / 2)) = 1 := by norm_num
  refine ⟨accepted_twice, hwithin.evaluate_eq, hwithin.nonneg, fun step => ?_,
    hwithin.delayed _ _ nested_twice⟩
  exact (hwithin.le_cap step).trans_eq hcap

end Line

end Schedule

end PolicyGradient
