import Mathlib.Algebra.Order.Field.Basic
import Mathlib.Tactic.Ring
import PolicyGradient.Scalar
import PolicyGradient.Size

/-!
Exact arithmetic.

The elements of an ordered field are scalars that do not round.  The elementary functions on them
are any functions: what is proved of exact scalars does not depend on these.
-/

/-- A field with a linear order that its sums and products respect. -/
class abbrev OrderedField (K : Type) := Field K, LinearOrder K, IsStrictOrderedRing K

namespace PolicyGradient.Exact

/-- Functions that stand for the elementary ones. -/
class Elementary (K : Type) where
  exp : K → K
  ln : K → K
  sqrt : K → K
  tanh : K → K
  pi : K
  truncate? : K → Option Int

/-- Scalars with the sums, products, quotients and order of a field. -/
scoped instance scalar (K : Type) [OrderedField K] [Elementary K] : Scalar K where
  exp := Elementary.exp
  ln := Elementary.ln
  sqrt := Elementary.sqrt
  tanh := Elementary.tanh
  pi := Elementary.pi
  le x y := decide (x ≤ y)
  lt x y := decide (x < y)
  isFinite _ := true
  mulAdd x y z := x * y + z
  truncate? := Elementary.truncate?

variable {K : Type} [OrderedField K] [Elementary K]

theorem powerFrom_eq (acc base : K) (n : Nat) : Scalar.powerFrom acc base n = acc * base ^ n := by
  induction n using Nat.strong_induction_on generalizing acc base with
  | h n ih =>
      rw [Scalar.powerFrom]
      have hsplit : acc * base ^ n = acc * base ^ (n % 2) * (base * base) ^ (n / 2) := by
        rw [← pow_two, ← pow_mul, mul_assoc, ← pow_add, Nat.mod_add_div]
      have hbit : (if n % 2 = 1 then acc * base else acc) = acc * base ^ (n % 2) := by
        rcases Nat.mod_two_eq_zero_or_one n with h | h
        · simp [h]
        · simp [h]
      rw [hsplit]
      by_cases hhalf : n / 2 = 0
      · simp [hhalf, hbit]
      · simp only [if_neg hhalf, ih (n / 2) (by omega), hbit]

/-- Repeated squaring gives the power. -/
theorem power_eq (base : K) (n : Nat) : Scalar.power base n = base ^ n := by
  rw [Scalar.power, powerFrom_eq]
  exact one_mul _

/-- Exponents in the range of 32-bit signed numbers are themselves. -/
theorem zpower_toSigned32 (base : K) {n : Nat} (hn : n < 2 ^ 31) :
    Scalar.zpower base (Size.toSigned32 n) = base ^ n := by
  have hsigned : Size.toSigned32 n = n := by
    unfold Size.toSigned32
    apply Int.bmod_eq_of_le
    · omega
    · simp only [Nat.pow_eq]
      omega
  rw [hsigned, Scalar.zpower, if_neg (by omega), Int.toNat_natCast, power_eq]

end PolicyGradient.Exact
