/-!
The arithmetic that training formulas are written in.

Losses, advantages, schedules and optimizer updates are formulas over a type of scalars and never
name a float format.  Running code uses `Float32` for values and `Float` for learning rates; a
proof may read the same formula over an ordered field.
-/

namespace PolicyGradient

/-- Scalars: a field-like carrier with the elementary functions the formulas need and Boolean
comparisons.  No law is part of the class, so rounding arithmetic is an instance too. -/
class Scalar (α : Type) extends Zero α, One α, Add α, Sub α, Mul α, Div α, Neg α, NatCast α where
  exp : α → α
  ln : α → α
  sqrt : α → α
  tanh : α → α
  pi : α
  /-- At most; false when either side is not a number. -/
  le : α → α → Bool
  /-- Strictly less; false when either side is not a number. -/
  lt : α → α → Bool
  isFinite : α → Bool
  /-- `x * y + z`, where the product does not round by itself. -/
  mulAdd : α → α → α → α
  /-- The integer left after cutting toward zero; only finite numbers have one. -/
  truncate? : α → Option Int

/-- Conversion of a learning rate to the scalars of the parameters. -/
class Narrows (ρ α : Type) where
  narrow : ρ → α

instance : Scalar Float32 where
  zero := 0
  one := 1
  natCast n := Float32.ofNat n
  exp := Float32.exp
  ln := Float32.log
  sqrt := Float32.sqrt
  tanh := Float32.tanh
  pi := 3.14159265358979323846
  le x y := x ≤ y
  lt x y := x < y
  isFinite := Float32.isFinite
  mulAdd x y z := (x.toFloat * y.toFloat + z.toFloat).toFloat32
  truncate? x := if x.isFinite then some x.toInt64.toInt else none

instance : Scalar Float where
  zero := 0
  one := 1
  natCast n := Float.ofNat n
  exp := Float.exp
  ln := Float.log
  sqrt := Float.sqrt
  tanh := Float.tanh
  pi := 3.14159265358979323846
  le x y := x ≤ y
  lt x y := x < y
  isFinite := Float.isFinite
  mulAdd x y z := x * y + z
  truncate? x := if x.isFinite then some x.toInt64.toInt else none

instance : Narrows Float Float32 where
  narrow := Float.toFloat32

namespace Scalar

variable {α : Type} [Scalar α]

/-- The smaller of two scalars; the other one when one is not a number. -/
def lesser (x y : α) : α :=
  if lt y x then y else if le x x then x else y

/-- The larger of two scalars; the other one when one is not a number. -/
def greater (x y : α) : α :=
  if lt x y then y else if le x x then x else y

/-- `x` cut to `[lo, hi]`; defined only for bounds in order.  What is not a number stays. -/
def clamp? (lo hi x : α) : Option α :=
  if le lo hi then
    some (if lt x lo then lo else if lt hi x then hi else x)
  else
    none

/-- `acc * base ^ n` by squaring, one multiplication per set bit of `n`. -/
def powerFrom (acc base : α) (n : Nat) : α :=
  let acc := if n % 2 = 1 then acc * base else acc
  if n / 2 = 0 then acc else powerFrom acc (base * base) (n / 2)
termination_by n
decreasing_by omega

/-- `base ^ n` by squaring. -/
def power (base : α) (n : Nat) : α :=
  powerFrom 1 base n

/-- `base ^ k` for an integer exponent: the inverse of the power when `k` is negative. -/
def zpower (base : α) (k : Int) : α :=
  if k < 0 then 1 / power base k.natAbs else power base k.toNat

/-- Sum from left to right, starting at negative zero: the neutral element of rounding addition,
which leaves the sign of a zero alone. -/
def sum (xs : List α) : α :=
  xs.foldl (· + ·) (-0)

/-- The sum of `f i` over all `i < n`, from left to right. -/
def total : (n : Nat) → (f : Nat → α) → α
  | 0, _ => 0
  | n + 1, f => total n f + f n

/-- The sum of `f i * g i` over all `i < n`, from left to right. -/
def dot : (n : Nat) → (f g : Nat → α) → α
  | 0, _, _ => 0
  | n + 1, f, g => mulAdd (f n) (g n) (dot n f g)

/-- Add terms to the sums `lanes` of eight lanes in turn, as long as there are eight of them: the
sums and the terms left over. -/
def addLanes (lanes : List α) : List α → List α × List α
  | a :: b :: c :: d :: e :: f :: g :: h :: rest =>
      addLanes (List.zipWith (· + ·) lanes [a, b, c, d, e, f, g, h]) rest
  | rest => (lanes, rest)

/-- The sum of many terms in eight lanes, which are added in pairs before the terms left over. -/
def laneSum (xs : List α) : α :=
  let (lanes, rest) := addLanes (List.replicate 8 0) xs
  (List.zipWith (· + ·) (lanes.take 4) (lanes.drop 4) ++ rest).foldl (· + ·) 0

/-- The gradient at `x` from the gradient `g` at `x * x`, one part for each factor. -/
def squareSlope (x g : α) : α :=
  g * x + g * x

end Scalar

end PolicyGradient
