import Mathlib
import PolicyGradient.Proofs.NormClipping
import PolicyGradient.Proofs.Sums
import PolicyGradient.Schedule.Plan

/-!
How the rates of a schedule move.

All rates are made of two parts: a point on the way between two rates (`Schedule.between`), which
moves with the progress through a phase, and the inverse square root of a step.  The schedules of
plans are put together from these, so each of them rises, falls or holds on either side of the
step where its phase ends (`Schedule.Plan.moves_of_build`).
-/

namespace PolicyGradient

open scoped Exact

variable {K : Type} [OrderedField K] [Exact.Elementary K]

namespace Exact

variable [SquareRoot K]

theorem sqrt_pos {x : K} (h : 0 < x) : 0 < Scalar.sqrt x := by
  refine lt_of_le_of_ne (SquareRoot.sqrt_nonneg x h.le) fun hzero => ?_
  have hsquare : Scalar.sqrt x * Scalar.sqrt x = x := SquareRoot.sqrt_mul_self x h.le
  rw [← hzero, mul_zero] at hsquare
  exact h.ne hsquare

theorem sqrt_le_sqrt {x y : K} (hx : 0 ≤ x) (h : x ≤ y) : Scalar.sqrt x ≤ Scalar.sqrt y := by
  have hy : 0 ≤ y := hx.trans h
  have hsquares : Scalar.sqrt x * Scalar.sqrt x ≤ Scalar.sqrt y * Scalar.sqrt y :=
    ((SquareRoot.sqrt_mul_self x hx).trans_le h).trans_eq (SquareRoot.sqrt_mul_self y hy).symm
  exact (mul_self_le_mul_self_iff (SquareRoot.sqrt_nonneg x hx)
    (SquareRoot.sqrt_nonneg y hy)).mpr hsquares

end Exact

namespace Schedule

/-! ### What the constructors accept -/

theorem usable_iff {lr : K} : usable lr = true ↔ 0 ≤ lr := by
  simp [usable, Scalar.isFinite, Scalar.le]

theorem constant?_eq_ok {lr : K} {s : Schedule K} :
    constant? lr = .ok s ↔ 0 ≤ lr ∧ s = .constant lr := by
  by_cases h : 0 ≤ lr
  · simp [constant?, Scalar.isFinite, Scalar.le, h, eq_comm]
  · simp [constant?, Scalar.isFinite, Scalar.le, h]

theorem linearDecay?_eq_ok {start stop : K} {total : Nat} {s : Schedule K} :
    linearDecay? start stop total = .ok s ↔
      0 < total ∧ 0 ≤ start ∧ 0 ≤ stop ∧ s = .linearDecay start stop total := by
  by_cases htotal : total = 0
  · simp [linearDecay?, htotal]
  · by_cases hstart : 0 ≤ start <;> by_cases hstop : 0 ≤ stop <;>
      simp [linearDecay?, usable, Scalar.isFinite, Scalar.le, htotal, hstart, hstop,
        Nat.pos_of_ne_zero, eq_comm]

theorem warmup?_eq_ok {inner s : Schedule K} {steps : Nat} {start : K} :
    warmup? inner steps start = .ok s ↔ 0 ≤ start ∧ s = .warmup inner steps start := by
  by_cases h : 0 ≤ start
  · simp [warmup?, usable_iff.mpr h, h, eq_comm]
  · have husable : usable start = false := Bool.eq_false_iff.mpr fun hu => h (usable_iff.mp hu)
    simp [warmup?, husable, h]

theorem multifactor?_eq_ok {factor : K} {steps : Nat} {s : Schedule K} :
    multifactor? factor steps = .ok s ↔
      0 ≤ factor ∧ 0 < steps ∧ s = .multifactor factor steps := by
  by_cases hsteps : steps = 0
  · by_cases h : 0 ≤ factor <;> simp [multifactor?, usable, Scalar.isFinite, Scalar.le, h, hsteps]
  · by_cases h : 0 ≤ factor <;>
      simp [multifactor?, usable, Scalar.isFinite, Scalar.le, h, hsteps, Nat.pos_of_ne_zero,
        eq_comm]

/-! ### Points between two rates -/

section

variable {start stop : K}

theorem between_zero : between start stop 0 = start := by
  simp [between]

theorem between_one : between start stop 1 = stop := by
  simp [between]

theorem between_monotone (h : start ≤ stop) : Monotone (between start stop) := by
  intro p q hpq
  exact add_le_add_right (mul_le_mul_of_nonneg_left hpq (sub_nonneg.mpr h)) start

theorem between_antitone (h : stop ≤ start) : Antitone (between start stop) := by
  intro p q hpq
  exact add_le_add_right (mul_le_mul_of_nonpos_left hpq (sub_nonpos.mpr h)) start

/-- Points on the way lie between the ends. -/
theorem between_mem_uIcc {p : K} (hp : 0 ≤ p) (hp' : p ≤ 1) :
    between start stop p ∈ Set.uIcc start stop := by
  rcases le_total start stop with h | h
  · rw [Set.uIcc_of_le h]
    have hstart := between_monotone h hp
    have hstop := between_monotone h hp'
    rw [between_zero] at hstart
    rw [between_one] at hstop
    exact ⟨hstart, hstop⟩
  · rw [Set.uIcc_of_ge h]
    have hstart := between_antitone h hp
    have hstop := between_antitone h hp'
    rw [between_zero] at hstart
    rw [between_one] at hstop
    exact ⟨hstop, hstart⟩

end

/-! ### Progress through a phase -/

/-- The part of a phase of `steps` steps that is over at a step. -/
def progress (steps step : Nat) : K :=
  min ((step : K) / (steps : K)) 1

section

variable {steps : Nat}

theorem progress_nonneg (step : Nat) : 0 ≤ (progress steps step : K) :=
  le_min (div_nonneg (Nat.cast_nonneg _) (Nat.cast_nonneg _)) zero_le_one

theorem progress_le_one (step : Nat) : (progress steps step : K) ≤ 1 :=
  min_le_right _ _

theorem progress_monotone : Monotone (progress steps : Nat → K) := by
  intro step step' h
  have hcast : (step : K) ≤ step' := Nat.cast_le.mpr h
  exact min_le_min_right 1 (div_le_div_of_nonneg_right hcast (Nat.cast_nonneg _))

theorem progress_zero : (progress steps 0 : K) = 0 := by
  simp [progress]

/-- After its last step a phase is over. -/
theorem progress_of_le {step : Nat} (hsteps : 0 < steps) (h : steps ≤ step) :
    (progress steps step : K) = 1 := by
  have hpos : (0 : K) < steps := Nat.cast_pos.mpr hsteps
  have hcast : (steps : K) ≤ step := Nat.cast_le.mpr h
  exact min_eq_right ((one_le_div hpos).mpr hcast)

/-- On the way between rates that are not negative, a rate is at most the larger of them. -/
theorem between_progress_mem_Icc {start stop : K} (hstart : 0 ≤ start) (hstop : 0 ≤ stop)
    (steps step : Nat) :
    between start stop (progress steps step) ∈ Set.Icc 0 (max start stop) := by
  have hway : between start stop (progress steps step) ∈ Set.uIcc start stop :=
    between_mem_uIcc (progress_nonneg step) (progress_le_one step)
  exact ⟨(le_min hstart hstop).trans hway.1, hway.2⟩

theorem div_eq_progress {step : Nat} (h : step < steps) :
    (step : K) / steps = progress steps step := by
  have hpos : (0 : K) < steps := Nat.cast_pos.mpr (Nat.zero_lt_of_lt h)
  have hcast : (step : K) ≤ steps := Nat.cast_le.mpr h.le
  exact (min_eq_left ((div_le_one hpos).mpr hcast)).symm

end

/-! ### The rates in closed form -/

theorem rate_linearDecay {total : Nat} (htotal : 0 < total) (start stop : K) (step : Nat) :
    (linearDecay start stop total).rate step = between start stop (progress total step) := by
  rw [rate, if_neg htotal.ne', Exact.lesser_eq_min]
  rfl

theorem rate_warmup_add (inner : Schedule K) (steps : Nat) (start : K) (k : Nat) :
    (warmup inner steps start).rate (steps + k) = inner.rate k := by
  rw [rate, if_pos (Nat.le_add_right _ _), Nat.add_sub_cancel_left]

theorem rate_warmup_of_lt {steps step : Nat} (h : step < steps) (inner : Schedule K) (start : K) :
    (warmup inner steps start).rate step =
      between start (inner.rate 0) (progress steps step) := by
  rw [← div_eq_progress h, rate, if_neg (Nat.not_le.mpr h)]
  rfl

theorem rate_multifactor (factor : K) (steps step : Nat) :
    (multifactor factor steps).rate step =
      factor * progress steps step * (1 / Scalar.sqrt (max (step : K) (steps : K))) := by
  rw [rate, Exact.lesser_eq_min, Exact.greater_eq_max]
  rfl

theorem rate_multifactor_of_le {steps step : Nat} (h : step ≤ steps) (factor : K) :
    (multifactor factor steps).rate step =
      factor * progress steps step * (1 / Scalar.sqrt (steps : K)) := by
  rw [rate_multifactor, max_eq_right (Nat.cast_le.mpr h)]

theorem rate_multifactor_of_ge {steps step : Nat} (hsteps : 0 < steps) (h : steps ≤ step)
    (factor : K) :
    (multifactor factor steps).rate step = factor / Scalar.sqrt (step : K) := by
  rw [rate_multifactor, max_eq_left (Nat.cast_le.mpr h), progress_of_le hsteps h, mul_one,
    mul_one_div]

/-- A warm-up to a constant rate is on its way to that rate at every step. -/
theorem rate_warmup_constant {steps : Nat} (hsteps : 0 < steps) (lr start : K) (step : Nat) :
    (warmup (constant lr) steps start).rate step = between start lr (progress steps step) := by
  rcases Nat.lt_or_ge step steps with h | h
  · exact rate_warmup_of_lt h _ _
  · obtain ⟨k, rfl⟩ := Nat.exists_eq_add_of_le h
    rw [rate_warmup_add, progress_of_le hsteps h, between_one]
    rfl

/-! ### Shapes -/

/-- The rates go from one rate to another, which they have reached after `total` steps. -/
structure Decays (start stop : K) (total : Nat) (rate : Nat → K) : Prop where
  start_eq : rate 0 = start
  falls : stop ≤ start → Antitone rate
  rises : start ≤ stop → Monotone rate
  stop_eq : ∀ step, total ≤ step → rate step = stop

/-- The rates rise to a rate, which they have reached after `steps` steps. -/
structure WarmsUp (lr : K) (steps : Nat) (rate : Nat → K) : Prop where
  rises : Monotone rate
  lr_eq : ∀ step, steps ≤ step → rate step = lr

/-- The rates rise for `steps` steps to the greatest of all, and then fall. -/
structure Peaks (factor : K) (steps : Nat) (rate : Nat → K) : Prop where
  rises : MonotoneOn rate (Set.Iic steps)
  falls : AntitoneOn rate (Set.Ici steps)
  peak_eq : rate steps = factor / Scalar.sqrt (steps : K)
  greatest : IsGreatest (Set.range rate) (factor / Scalar.sqrt (steps : K))

theorem decays {total : Nat} (htotal : 0 < total) (start stop : K) :
    Decays start stop total (linearDecay start stop total).rate := by
  have hrate : (linearDecay start stop total).rate = between start stop ∘ progress total :=
    funext (rate_linearDecay htotal start stop)
  rw [hrate]
  refine ⟨?_, fun h => ?_, fun h => ?_, fun step h => ?_⟩
  · rw [Function.comp_apply, progress_zero, between_zero]
  · exact (between_antitone h).comp_monotone progress_monotone
  · exact (between_monotone h).comp progress_monotone
  · rw [Function.comp_apply, progress_of_le htotal h, between_one]

theorem warmsUp {lr : K} (hlr : 0 ≤ lr) (steps : Nat) :
    WarmsUp lr steps (warmup (constant lr) steps 0).rate := by
  have hlast : ∀ step, steps ≤ step → (warmup (constant lr) steps 0).rate step = lr := by
    intro step h
    obtain ⟨k, rfl⟩ := Nat.exists_eq_add_of_le h
    exact rate_warmup_add _ _ _ k
  refine ⟨?_, hlast⟩
  rcases Nat.eq_zero_or_pos steps with rfl | hsteps
  · intro step step' _
    rw [hlast step (Nat.zero_le _), hlast step' (Nat.zero_le _)]
  · have hrate : (warmup (constant lr) steps 0).rate = between 0 lr ∘ progress steps :=
      funext (rate_warmup_constant hsteps lr 0)
    rw [hrate]
    exact (between_monotone hlr).comp progress_monotone

section

variable [Exact.SquareRoot K] {factor : K} {steps : Nat}

theorem inverse_nonneg (step : Nat) : 0 ≤ 1 / Scalar.sqrt (step : K) :=
  div_nonneg zero_le_one (Exact.SquareRoot.sqrt_nonneg _ (Nat.cast_nonneg _))

theorem multifactor_monotoneOn (hfactor : 0 ≤ factor) (steps : Nat) :
    MonotoneOn (multifactor factor steps).rate (Set.Iic steps) := by
  intro step hstep step' hstep' h
  rw [rate_multifactor_of_le hstep, rate_multifactor_of_le hstep']
  apply mul_le_mul_of_nonneg_right _ (inverse_nonneg steps)
  exact mul_le_mul_of_nonneg_left (progress_monotone h) hfactor

theorem multifactor_antitoneOn (hfactor : 0 ≤ factor) (hsteps : 0 < steps) :
    AntitoneOn (multifactor factor steps).rate (Set.Ici steps) := by
  intro step hstep step' hstep' h
  rw [rate_multifactor_of_ge hsteps hstep, rate_multifactor_of_ge hsteps hstep']
  have hpos : (0 : K) < step := Nat.cast_pos.mpr (hsteps.trans_le hstep)
  have hroots : Scalar.sqrt (step : K) ≤ Scalar.sqrt (step' : K) :=
    Exact.sqrt_le_sqrt hpos.le (Nat.cast_le.mpr h)
  exact div_le_div_of_nonneg_left hfactor (Exact.sqrt_pos hpos) hroots

theorem peaks (hfactor : 0 ≤ factor) (hsteps : 0 < steps) :
    Peaks factor steps (multifactor factor steps).rate := by
  have hrises := multifactor_monotoneOn hfactor steps
  have hfalls := multifactor_antitoneOn hfactor hsteps
  have hpeak := rate_multifactor_of_ge hsteps le_rfl factor
  refine ⟨hrises, hfalls, hpeak, ⟨steps, hpeak⟩, ?_⟩
  rintro _ ⟨step, rfl⟩
  rw [← hpeak]
  rcases le_total step steps with h | h
  · exact hrises h Set.self_mem_Iic h
  · exact hfalls Set.self_mem_Ici h h

end

namespace Plan

/-- How the rates of the schedule move that a plan describes. -/
def Moves : Plan K → (rate : Nat → K) → Prop
  | constant lr, rate => ∀ step, rate step = lr
  | linearDecay start stop total, rate => Decays start stop total rate
  | warmupConstant lr steps, rate => WarmsUp lr steps rate
  | multifactor factor steps, rate => Peaks factor steps rate

theorem build_warmupConstant_eq_ok {lr : K} {steps : Nat} {s : Schedule K} :
    (warmupConstant lr steps).build = .ok s ↔ 0 ≤ lr ∧ s = .warmup (.constant lr) steps 0 := by
  show (Schedule.constant? lr >>= fun inner => warmup? inner steps 0) = .ok s ↔ _
  by_cases h : 0 ≤ lr
  · have hinner : Schedule.constant? lr = .ok (.constant lr) := constant?_eq_ok.mpr ⟨h, rfl⟩
    rw [hinner]
    show warmup? (.constant lr) steps 0 = .ok s ↔ _
    rw [warmup?_eq_ok]
    simp [h]
  · cases hinner : Schedule.constant? lr with
    | error refusal =>
        constructor
        · intro hbuild
          cases hbuild
        · exact fun hbuild => absurd hbuild.1 h
    | ok inner => exact absurd (constant?_eq_ok.mp hinner).1 h

/-- A plan that can be built describes rates of its shape, at all steps: a constant never changes,
a decay goes straight to its last rate and stays there, a warm-up rises to its rate and stays
there, and a multifactor schedule rises to its peak and falls from there. -/
theorem moves_of_build [Exact.SquareRoot K] {plan : Plan K} {s : Schedule K}
    (h : plan.build = .ok s) : plan.Moves s.rate := by
  cases plan with
  | constant lr =>
      obtain ⟨_, rfl⟩ := constant?_eq_ok.mp h
      exact fun _ => rfl
  | linearDecay start stop total =>
      obtain ⟨htotal, _, _, rfl⟩ := linearDecay?_eq_ok.mp h
      exact decays htotal start stop
  | warmupConstant lr steps =>
      obtain ⟨hlr, rfl⟩ := build_warmupConstant_eq_ok.mp h
      exact warmsUp hlr steps
  | multifactor factor steps =>
      obtain ⟨hfactor, hsteps, rfl⟩ := multifactor?_eq_ok.mp h
      exact peaks hfactor hsteps

namespace Line

/-- Rates that rise for four steps reach half of their factor. -/
theorem moves_multifactor :
    (Plan.multifactor (2 : ℝ) 4).build = .ok (.multifactor 2 4) ∧
      IsGreatest (Set.range (Schedule.multifactor (2 : ℝ) 4).rate) 1 ∧
      (Schedule.multifactor (2 : ℝ) 4).rate 4 = 1 ∧
      (Schedule.multifactor (2 : ℝ) 4).rate 3 ≤ (Schedule.multifactor (2 : ℝ) 4).rate 4 ∧
      (Schedule.multifactor (2 : ℝ) 4).rate 7 ≤ (Schedule.multifactor (2 : ℝ) 4).rate 5 := by
  have hbuild : (Plan.multifactor (2 : ℝ) 4).build = .ok (.multifactor 2 4) :=
    multifactor?_eq_ok.mpr ⟨by norm_num, by norm_num, rfl⟩
  have hroot : Scalar.sqrt ((4 : ℕ) : ℝ) = 2 :=
    (Real.sqrt_eq_iff_mul_self_eq (by norm_num) (by norm_num)).mpr (by norm_num)
  have hpeaks : Peaks (2 : ℝ) 4 (Schedule.multifactor (2 : ℝ) 4).rate := moves_of_build hbuild
  have hgreatest := hpeaks.greatest
  have hpeak := hpeaks.peak_eq
  rw [hroot, div_self two_ne_zero] at hgreatest hpeak
  refine ⟨hbuild, hgreatest, hpeak, ?_, ?_⟩
  · exact hpeaks.rises (by decide) (by decide) (by decide)
  · exact hpeaks.falls (by decide) (by decide) (by decide)

end Line

end Plan

end Schedule

end PolicyGradient
