import Mathlib.Algebra.Order.Field.Rat
import Mathlib.Algebra.Order.Ring.Abs
import Mathlib.Algebra.Ring.Parity
import Mathlib.Tactic.FieldSimp
import Mathlib.Tactic.Linarith
import Mathlib.Tactic.Positivity
import Mathlib.Tactic.Ring
import PolicyGradient.Document.Reader
import PolicyGradient.Proofs.RowText

/-!
What the text of a number says.

A text with a fixed number of places is a numeral of the document grammar, and of all numerals with
that many places it is the nearest to the number (`Decimal.Exact.writes_fixed`).  Losses and
learning rates stand in a table that way.
-/

namespace PolicyGradient

open Document (digitsValue takeDigits readUnsigned readNumeral)

/-- What a minus sign does to a number. -/
def Decimal.signed (negative : Bool) (v : ℚ) : ℚ :=
  if negative then -v else v

open Decimal (signed)

namespace Numeral

/-- The number that a numeral writes. -/
def value (x : Numeral) : ℚ :=
  signed x.negative (x.significand * 10 ^ (x.power - x.places))

/-- The numeral has `places` digits after its point and no exponent. -/
def HasPlaces (places : Nat) (x : Numeral) : Prop :=
  x.places = places ∧ x.power = 0

/-- Of the numerals with `places` digits after the point none is nearer to `v`, and if one that
writes another number is as near, the last digit is even. -/
structure Nearest (places : Nat) (v : ℚ) (x : Numeral) : Prop where
  hasPlaces : x.HasPlaces places
  least : ∀ y : Numeral, y.HasPlaces places → |v - x.value| ≤ |v - y.value|
  even : ∀ y : Numeral, y.HasPlaces places → y.value ≠ x.value →
    |v - y.value| = |v - x.value| → Even x.significand

/-- The digits of a numeral as an integer. -/
def units (x : Numeral) : ℤ :=
  if x.negative then -x.significand else x.significand

/-- The numeral with these digits. -/
def ofUnits (places : Nat) (n : ℤ) : Numeral :=
  ⟨decide (n < 0), n.natAbs, places, 0, false⟩

@[simp] theorem units_ofUnits (places : Nat) (n : ℤ) : (ofUnits places n).units = n := by
  simp only [units, ofUnits, decide_eq_true_eq]
  split <;> omega

theorem hasPlaces_ofUnits (places : Nat) (n : ℤ) : (ofUnits places n).HasPlaces places :=
  ⟨rfl, rfl⟩

theorem even_units {x : Numeral} : Even x.units ↔ Even x.significand := by
  rw [units]
  split
  · rw [even_neg, Int.even_coe_nat]
  · rw [Int.even_coe_nat]

theorem HasPlaces.value_eq {places : Nat} {x : Numeral} (hx : x.HasPlaces places) :
    x.value = x.units / 10 ^ places := by
  obtain ⟨hplaces, hpower⟩ := hx
  rw [value, hplaces, hpower, zero_sub, zpow_neg, zpow_natCast, ← div_eq_mul_inv, signed, units]
  split
  · rw [Int.cast_neg, Int.cast_natCast, neg_div]
  · rw [Int.cast_natCast]

/-- The distance of a number and a numeral, counted in units of the last digit. -/
theorem HasPlaces.dist_eq {places : Nat} {x : Numeral} (hx : x.HasPlaces places) (v : ℚ) :
    |v - x.value| = |v * 10 ^ places - x.units| / 10 ^ places := by
  have hunit : (0 : ℚ) < 10 ^ places := by positivity
  rw [hx.value_eq, ← abs_of_pos hunit, ← abs_div, abs_of_pos hunit]
  congr 1
  field_simp

theorem HasPlaces.units_ne {places : Nat} {x y : Numeral} (hx : x.HasPlaces places)
    (hy : y.HasPlaces places) (h : y.value ≠ x.value) : y.units ≠ x.units := by
  intro hunits
  rw [hx.value_eq, hy.value_eq, hunits] at h
  exact h rfl

/-- Every other integer is at least half a unit away. -/
theorem half_le_abs_sub {t : ℚ} {m n : ℤ} (hhalf : |t - n| ≤ 1 / 2) (hne : m ≠ n) :
    1 / 2 ≤ |t - m| := by
  have hone : (1 : ℚ) ≤ |(n : ℚ) - m| := by
    exact_mod_cast Int.one_le_abs (sub_ne_zero.mpr hne.symm)
  have htriangle := abs_sub_le (n : ℚ) t m
  rw [abs_sub_comm (n : ℚ) t] at htriangle
  linarith

/-- Half a unit of the last digit away is near enough. -/
theorem nearest_of_half {places : Nat} {v : ℚ} {x : Numeral} (hx : x.HasPlaces places)
    (hhalf : |v * 10 ^ places - x.units| ≤ 1 / 2)
    (htie : |v * 10 ^ places - x.units| = 1 / 2 → Even x.significand) : Nearest places v x := by
  have hunit : (0 : ℚ) < 10 ^ places := by positivity
  refine ⟨hx, ?_, ?_⟩
  · intro y hy
    rw [hx.dist_eq, hy.dist_eq]
    refine div_le_div_of_nonneg_right ?_ hunit.le
    by_cases hne : y.units = x.units
    · rw [hne]
    · exact hhalf.trans (half_le_abs_sub hhalf hne)
  · intro y hy hvalue hdist
    rw [hx.dist_eq, hy.dist_eq, div_left_inj' hunit.ne'] at hdist
    have hfar := half_le_abs_sub hhalf (hx.units_ne hy hvalue)
    rw [hdist] at hfar
    exact htie (le_antisymm hhalf hfar)

/-- The sign of a number does not matter for what is nearest. -/
theorem nearest_signed {places n : Nat} {v : ℚ} (negative plain : Bool)
    (hhalf : |v * 10 ^ places - n| ≤ 1 / 2)
    (htie : |v * 10 ^ places - n| = 1 / 2 → Even n) :
    Nearest places (signed negative v) ⟨negative, n, places, 0, plain⟩ := by
  have hdist : |signed negative v * 10 ^ places -
      (Numeral.mk negative n places 0 plain).units| = |v * 10 ^ places - n| := by
    cases negative with
    | false => rfl
    | true =>
        show |-v * 10 ^ places - ((-n : ℤ) : ℚ)| = _
        rw [Int.cast_neg, Int.cast_natCast, neg_mul, neg_sub_neg, abs_sub_comm]
  refine nearest_of_half ⟨rfl, rfl⟩ ?_ ?_
  · rwa [hdist]
  · rwa [hdist]

/-- Two nearest numerals write the same number. -/
theorem Nearest.value_eq {places : Nat} {v : ℚ} {x y : Numeral} (hx : Nearest places v x)
    (hy : Nearest places v y) : x.value = y.value := by
  by_contra hne
  have hdist : |v - x.value| = |v - y.value| :=
    le_antisymm (hx.least y hy.hasPlaces) (hy.least x hx.hasPlaces)
  have hevenx := even_units.mpr (hx.even y hy.hasPlaces (Ne.symm hne) hdist.symm)
  have heveny := even_units.mpr (hy.even x hx.hasPlaces hne hdist)
  -- The number is halfway between the two, and so is an integer: that one would be nearer.
  obtain ⟨middle, hmiddle⟩ := hevenx.add heveny
  have hle := hx.least (ofUnits places middle) (hasPlaces_ofUnits places middle)
  have hunit : (0 : ℚ) < 10 ^ places := by positivity
  rw [hx.hasPlaces.dist_eq, hy.hasPlaces.dist_eq, div_left_inj' hunit.ne'] at hdist
  rw [hx.hasPlaces.dist_eq, (hasPlaces_ofUnits places middle).dist_eq, units_ofUnits,
    div_le_div_iff_of_pos_right hunit] at hle
  have hsum : (x.units : ℚ) + y.units = middle + middle := by exact_mod_cast hmiddle
  rcases abs_eq_abs.mp hdist with hsame | hmirror
  · have hunits : (x.units : ℚ) = y.units := by linarith
    exact hne (by rw [hx.hasPlaces.value_eq, hy.hasPlaces.value_eq, hunits])
  · have hzero : v * 10 ^ places - middle = 0 := by linarith
    rw [hzero, abs_zero] at hle
    have hsame := abs_eq_zero.mp (le_antisymm hle (abs_nonneg _))
    have hunits : (x.units : ℚ) = y.units := by linarith
    exact hne (by rw [hx.hasPlaces.value_eq, hy.hasPlaces.value_eq, hunits])

end Numeral

namespace Decimal

theorem div_eq_add_rest (num : Nat) {den : Nat} (hden : 0 < den) :
    (num : ℚ) / den = (num / den : Nat) + ((num % den : Nat) : ℚ) / den := by
  have hne : (den : ℚ) ≠ 0 := by exact_mod_cast hden.ne'
  rw [eq_comm, add_div_eq_mul_add_div _ _ hne, div_left_inj' hne]
  exact_mod_cast Nat.div_add_mod' num den

theorem rest_le_half_iff (num : Nat) {den : Nat} (hden : 0 < den) :
    ((num % den : Nat) : ℚ) / den ≤ 1 / 2 ↔ 2 * (num % den) ≤ den := by
  have hpos : (0 : ℚ) < den := by exact_mod_cast hden
  rw [div_le_div_iff₀ hpos two_pos, one_mul, mul_comm]
  exact_mod_cast Iff.rfl

theorem half_le_rest_iff (num : Nat) {den : Nat} (hden : 0 < den) :
    1 / 2 ≤ ((num % den : Nat) : ℚ) / den ↔ den ≤ 2 * (num % den) := by
  have hpos : (0 : ℚ) < den := by exact_mod_cast hden
  rw [div_le_div_iff₀ two_pos hpos, one_mul, mul_comm _ (2 : ℚ)]
  exact_mod_cast Iff.rfl

theorem roundDiv_half (num : Nat) {den : Nat} (hden : 0 < den) :
    |(num : ℚ) / den - roundDiv num den| ≤ 1 / 2 ∧
      (|(num : ℚ) / den - roundDiv num den| = 1 / 2 → Even (roundDiv num den)) := by
  have hle := rest_le_half_iff num hden
  have hge := half_le_rest_iff num hden
  have hnonneg : 0 ≤ ((num % den : Nat) : ℚ) / den := by positivity
  have hone : ((num % den : Nat) : ℚ) / den ≤ 1 := by
    rw [div_le_one (by exact_mod_cast hden)]
    exact_mod_cast (Nat.mod_lt num hden).le
  rw [roundDiv, div_eq_add_rest num hden]
  generalize ((num % den : Nat) : ℚ) / den = rest at hle hge hnonneg hone
  split
  next hup =>
    have hhalf : 1 / 2 ≤ rest := hge.mpr (by omega)
    have hdist : |((num / den : Nat) : ℚ) + rest - ((num / den + 1 : Nat) : ℚ)| = 1 - rest := by
      rw [abs_sub_comm, Nat.cast_succ, abs_of_nonneg] <;> linarith
    rw [hdist]
    refine ⟨by linarith, fun heq => ?_⟩
    have hmiddle : 2 * (num % den) ≤ den := hle.mp (by linarith)
    rw [Nat.even_iff]
    omega
  next hdown =>
    have hhalf : rest ≤ 1 / 2 := hle.mpr (by omega)
    have hdist : |((num / den : Nat) : ℚ) + rest - (num / den : Nat)| = rest := by
      rw [add_sub_cancel_left, abs_of_nonneg hnonneg]
    rw [hdist]
    refine ⟨hhalf, fun heq => ?_⟩
    have hmiddle : den ≤ 2 * (num % den) := hge.mp heq.ge
    rw [Nat.even_iff]
    omega

/-- A quotient is rounded to the natural number half a unit away or less, at half a unit to the
even one. -/
theorem roundDiv_eq_iff {num den n : Nat} (hden : 0 < den) :
    roundDiv num den = n ↔
      |(num : ℚ) / den - n| ≤ 1 / 2 ∧ (|(num : ℚ) / den - n| = 1 / 2 → Even n) := by
  constructor
  · rintro rfl
    exact roundDiv_half num hden
  · rintro ⟨hhalf, htie⟩
    obtain ⟨hrounded, hroundedTie⟩ := roundDiv_half num hden
    rw [← mul_one ((num : ℚ) / den), ← pow_zero (10 : ℚ)] at hhalf htie hrounded hroundedTie
    have hvalue := (Numeral.nearest_signed false true hrounded hroundedTie).value_eq
      (Numeral.nearest_signed false true hhalf htie)
    simpa [Numeral.value, signed] using hvalue

theorem digitsValue_digits (n : Nat) : digitsValue 0 (digits n) = n :=
  Nat.ofDigitChars_ten_toDigits

theorem length_padded {places n : Nat} (hplaces : 0 < places) (h : n < 10 ^ places) :
    (padded places n).length = places := by
  have hlength : (digits n).length ≤ places :=
    (Nat.length_toDigits_le_iff (by decide) hplaces).mpr h
  rw [padded, List.length_append, List.length_replicate]
  omega

/-- Padded digits read after others move these to the left by their number. -/
theorem digitsValue_padded {places n : Nat} (hplaces : 0 < places) (h : n < 10 ^ places)
    (before : Nat) : digitsValue before (padded places n) = 10 ^ places * before + n := by
  have hzeros : ∀ width, digitsValue 0 (List.replicate width '0' ++ digits n) = n := by
    intro width
    show Nat.ofDigitChars 10 _ 0 = n
    rw [Nat.ofDigitChars_append, Nat.ofDigitChars_replicate_zero, Nat.mul_zero]
    exact digitsValue_digits n
  have hsplit : digitsValue before (padded places n) =
      10 ^ (padded places n).length * before + digitsValue 0 (padded places n) :=
    Nat.ofDigitChars_eq_ofDigitChars_zero
  rw [hsplit, length_padded hplaces h, padded]
  exact congrArg _ (hzeros _)

theorem isDigit_of_mem_digits {n : Nat} {c : Char} (hc : c ∈ digits n) : c.isDigit = true :=
  Nat.isDigit_of_mem_toDigits (by decide) (by decide) hc

theorem isDigit_of_mem_padded {places n : Nat} {c : Char} (hc : c ∈ padded places n) :
    c.isDigit = true := by
  rcases List.mem_append.mp hc with hzero | hdigit
  · rw [List.eq_of_mem_replicate hzero]
    rfl
  · exact isDigit_of_mem_digits hdigit

/-- Only zero starts with the digit zero. -/
theorem head?_digits_ne_zero {n : Nat} (hn : 0 < n) : (digits n).head? ≠ some '0' := by
  induction n using Nat.strong_induction_on with
  | _ n ih =>
      rcases Nat.lt_or_ge n 10 with hlt | hge
      · have hdigit : ∀ d < 10, 0 < d → d.digitChar ≠ '0' := by decide
        rw [digits, Nat.toDigits_of_lt_base hlt, List.head?_singleton, ne_eq, Option.some_inj]
        exact hdigit n hlt hn
      · rw [digits, Nat.toDigits_of_base_le (by decide) hge,
          List.head?_append_of_ne_nil _ Nat.toDigits_ne_nil]
        exact ih (n / 10) (by omega) (by omega)

theorem takeDigits_append {ds : List Char} (rest : List Char) (hds : ∀ c ∈ ds, c.isDigit = true)
    (hrest : ∀ c ∈ rest.head?, c.isDigit = false) : takeDigits (ds ++ rest) = (ds, rest) := by
  rw [takeDigits, List.takeWhile_append_of_pos hds, List.dropWhile_append_of_pos hds]
  cases rest with
  | nil => rw [List.takeWhile_nil, List.append_nil, List.dropWhile_nil]
  | cons c rest =>
      have hc : ¬ c.isDigit = true := by simp [hrest c rfl]
      rw [List.takeWhile_cons_of_neg hc, List.append_nil, List.dropWhile_cons_of_neg hc]

/-- No digit of a natural number is superfluous. -/
theorem digits_canonical (n : Nat) :
    ((digits n).isEmpty || ((digits n).head? == some '0' && decide (1 < (digits n).length))) =
      false := by
  rw [Bool.or_eq_false_iff, List.isEmpty_eq_false_iff, Bool.and_eq_false_iff]
  refine ⟨Nat.toDigits_ne_nil, ?_⟩
  rcases Nat.eq_zero_or_pos n with rfl | hn
  · right
    rfl
  · left
    exact beq_false_of_ne (head?_digits_ne_zero hn)

theorem readUnsigned_digits (negative : Bool) (n : Nat) :
    readUnsigned negative (digits n) = some (⟨negative, n, 0, 0, true⟩, []) := by
  have htake := takeDigits_append [] (fun _ => isDigit_of_mem_digits (n := n)) (by simp)
  rw [List.append_nil] at htake
  rw [readUnsigned, htake]
  simp only [digits_canonical]
  show some (Numeral.mk negative (digitsValue 0 (digits n)) 0 0 true, []) = _
  rw [digitsValue_digits]

theorem readUnsigned_pointed (negative : Bool) (n : Nat) {behind : List Char} (hne : behind ≠ [])
    (hdigits : ∀ c ∈ behind, c.isDigit = true) :
    readUnsigned negative (digits n ++ '.' :: behind) =
      some (⟨negative, digitsValue n behind, behind.length, 0, false⟩, []) := by
  have htake := takeDigits_append ('.' :: behind)
    (fun _ => isDigit_of_mem_digits (n := n)) (by simp)
  have hbehind := takeDigits_append [] hdigits (by simp)
  rw [List.append_nil] at hbehind
  have hempty : behind.isEmpty = false := List.isEmpty_eq_false_iff.mpr hne
  have hfraction : Document.readFraction ('.' :: behind) = some (behind, []) := by
    rw [Document.readFraction, hbehind]
    simp only [hempty]
    rfl
  rw [readUnsigned, htake]
  simp only [digits_canonical, hfraction, Option.bind_eq_bind, Option.bind_some,
    Document.readExponent, digitsValue_digits, hempty]
  rfl

/-- Positional notation reads back. -/
theorem readUnsigned_positional (negative : Bool) (places n : Nat) :
    readUnsigned negative (positional places n).toList =
      some (⟨negative, n, places, 0, decide (places = 0)⟩, []) := by
  rw [positional]
  rcases Nat.eq_zero_or_pos places with rfl | hplaces
  · have hwhole : n / Nat.pow 10 0 = n := Nat.div_one n
    rw [if_pos rfl, String.toList_ofList, hwhole, readUnsigned_digits]
    rfl
  · have hbelow : n % 10 ^ places < 10 ^ places := Nat.mod_lt n (by positivity)
    have hlength := length_padded hplaces hbelow
    have hne : padded places (n % 10 ^ places) ≠ [] :=
      List.ne_nil_of_length_pos (by rwa [hlength])
    have htext : (String.ofList (digits (n / 10 ^ places)) ++ "." ++
        String.ofList (padded places (n % 10 ^ places))).toList =
          digits (n / 10 ^ places) ++ '.' :: padded places (n % 10 ^ places) := by
      simp
    have hfalse : decide (places = 0) = false := decide_eq_false hplaces.ne'
    rw [if_neg hplaces.ne']
    show readUnsigned negative (String.ofList (digits (n / 10 ^ places)) ++ "." ++
      String.ofList (padded places (n % 10 ^ places))).toList = _
    rw [htext, readUnsigned_pointed negative _ hne (fun _ => isDigit_of_mem_padded), hlength,
      digitsValue_padded hplaces hbelow, Nat.div_add_mod, hfalse]

/-- A sign and positional notation read back. -/
theorem readNumeral_positional (negative : Bool) (places n : Nat) :
    readNumeral (sign negative ++ positional places n).toList =
      some (⟨negative, n, places, 0, decide (places = 0)⟩, []) := by
  rw [String.toList_append]
  cases negative with
  | true => exact readUnsigned_positional true places n
  | false =>
      have hreads := readUnsigned_positional false places n
      have hsign : ∀ rest, (positional places n).toList = '-' :: rest → False := by
        intro rest htext
        rw [htext] at hreads
        cases hreads
      show readNumeral (positional places n).toList = _
      rw [readNumeral]
      · exact hreads
      · exact hsign

/-- A quotient of natural numbers is what it stands for. -/
theorem quotient_value (mantissa : Nat) (exponent : Int) :
    0 < (quotient mantissa exponent).2 ∧
      ((quotient mantissa exponent).1 : ℚ) / (quotient mantissa exponent).2 =
        mantissa * 2 ^ exponent := by
  rw [quotient]
  split
  next hnonneg =>
    obtain ⟨power, rfl⟩ := Int.eq_ofNat_of_zero_le hnonneg
    refine ⟨Nat.one_pos, ?_⟩
    simp
  next hneg =>
    obtain ⟨power, hpower⟩ := Int.eq_ofNat_of_zero_le (show 0 ≤ -exponent by omega)
    obtain rfl : exponent = -power := by omega
    refine ⟨Nat.pow_pos two_pos, ?_⟩
    simp [div_eq_mul_inv]

/-- The number that is meant, unless it is infinite or none at all. -/
def Exact.value? : Exact → Option ℚ
  | .finite negative mantissa exponent => some (signed negative (mantissa * 2 ^ exponent))
  | _ => none

/-- The text is a numeral, of those with `places` digits after the point the nearest to `v`. -/
def Writes (places : Nat) (v : ℚ) (text : String) : Prop :=
  ∃ x : Numeral, readNumeral text.toList = some (x, []) ∧ x.Nearest places v

/-- The text of a finite number with a fixed number of places is the nearest numeral with that many
places. -/
theorem Exact.writes_fixed {x : Exact} {v : ℚ} (h : x.value? = some v) (places : Nat) :
    Writes places v (x.fixed places) := by
  cases x with
  | nan => cases h
  | infinite negative => cases h
  | finite negative mantissa exponent =>
      obtain rfl : signed negative (mantissa * 2 ^ exponent) = v := Option.some.inj h
      obtain ⟨num, den, hsplit⟩ : ∃ num den, quotient mantissa exponent = (num, den) :=
        ⟨_, _, rfl⟩
      obtain ⟨hpos, hquotient⟩ := quotient_value mantissa exponent
      rw [hsplit] at hpos hquotient
      obtain ⟨hhalf, htie⟩ := roundDiv_half (num * 10 ^ places) hpos
      have hscaled : ((num * 10 ^ places : Nat) : ℚ) / den =
          mantissa * 2 ^ exponent * 10 ^ places := by
        rw [← hquotient, Nat.cast_mul, Nat.cast_pow, mul_div_right_comm]
        rfl
      rw [hscaled] at hhalf htie
      have hreads : readNumeral ((Exact.finite negative mantissa exponent).fixed places).toList =
          some (⟨negative, roundDiv (num * 10 ^ places) den, places, 0, decide (places = 0)⟩,
            []) := by
        rw [Exact.fixed, hsplit]
        exact readNumeral_positional negative places _
      exact ⟨_, hreads, Numeral.nearest_signed negative _ hhalf htie⟩

example : (Exact.finite false 5 (-1)).fixed 0 = "2" ∧ (Exact.finite true 7 (-1)).fixed 0 = "-4" :=
  by decide

end Decimal

open Decimal (Shown Exact Writes)

/-- In a row the loss is the nearest numeral with six places and the learning rate the nearest with
eight. -/
theorem Table.writes_columns {α ρ : Type} [Shown α] [Shown ρ] {record : StepRecord α ρ}
    {loss lr : ℚ} (hloss : (Shown.exact record.loss).value? = some loss)
    (hlr : (Shown.exact record.lr).value? = some lr) :
    ∃ lossText lrText, Writes 6 loss lossText ∧ Writes 8 lr lrText ∧
      columns record = [record.learner, toString record.epoch, toString record.step, lossText,
        lrText, "0.00"] :=
  ⟨_, _, Exact.writes_fixed hloss 6, Exact.writes_fixed hlr 8, rfl⟩

end PolicyGradient
