import PolicyGradient.Decimal.Exact

/-!
Decimal text of exact binary values.

Three forms: a fixed number of places, a fixed number of significant digits with an exponent, and
the fewest digits that read back, written without an exponent.  The first two round to nearest
and send a tie to the even neighbour.
-/

namespace PolicyGradient.Decimal

/-- `num / den` rounded to the nearest natural number, a tie to the even one. -/
def roundDiv (num den : Nat) : Nat :=
  let q := num / den
  let r := num % den
  if 2 * r > den ∨ (2 * r = den ∧ q % 2 = 1) then q + 1 else q

/-- The digits of `n`, most significant first. -/
def digits (n : Nat) : List Char :=
  Nat.toDigits 10 n

/-- The digits of `n` after as many zeros as fill `width` places. -/
def padded (width n : Nat) : List Char :=
  let ds := digits n
  List.replicate (width - ds.length) '0' ++ ds

/-- `n / 10 ^ places` in positional notation. -/
def positional (places n : Nat) : String :=
  let whole := String.ofList (digits (n / Nat.pow 10 places))
  if places = 0 then whole
  else whole ++ "." ++ String.ofList (padded places (n % Nat.pow 10 places))

/-- The exponent of the leading digit of `num / den`, both positive. -/
def leadingExponent (num den : Nat) : Int :=
  if den ≤ num then
    (digits (num / den)).length - 1
  else
    let width := (digits (den / num)).length
    if den ≤ num * Nat.pow 10 (width - 1) then 1 - (width : Int) else -(width : Int)

/-- `num * 10 ^ shift / den` as a quotient of natural numbers. -/
def scaled (num den : Nat) (shift : Int) : Nat × Nat :=
  if 0 ≤ shift then (num * Nat.pow 10 shift.toNat, den)
  else (num, den * Nat.pow 10 (-shift).toNat)

/-- A minus sign for negative values. -/
def sign (negative : Bool) : String :=
  if negative then "-" else ""

/-- Text of the values that have no digits. -/
def infinity (negative : Bool) : String :=
  sign negative ++ "inf"

/-- `places` digits after the point; zero keeps its sign. -/
def Exact.fixed (places : Nat) : Exact → String
  | .nan => "NaN"
  | .infinite negative => infinity negative
  | .finite negative mantissa exponent =>
      let (num, den) := quotient mantissa exponent
      sign negative ++ positional places (roundDiv (num * Nat.pow 10 places) den)

/-- A number from `10 ^ (places + 1)` up has one digit too many: drop it and move the exponent. -/
def renormalize (places : Nat) (rounded : Nat) (exponent : Int) : Nat × Int :=
  if Nat.pow 10 (places + 1) ≤ rounded then (rounded / 10, exponent + 1) else (rounded, exponent)

/-- One digit, `places` further digits and a decimal exponent; zero keeps its sign. -/
def Exact.scientific (places : Nat) : Exact → String
  | .nan => "NaN"
  | .infinite negative => infinity negative
  | .finite negative mantissa exponent =>
      if mantissa = 0 then
        sign negative ++ positional places 0 ++ "e0"
      else
        let (num, den) := quotient mantissa exponent
        let lead := leadingExponent num den
        let (num, den) := scaled num den (places - lead)
        let (rounded, lead) := renormalize places (roundDiv num den) lead
        sign negative ++ positional places rounded ++ "e" ++ toString lead

/-- The numbers that read back as `mantissa * 2 ^ exponent` lie between these two multiples of
`2 ^ (exponent - 2)`: half a gap on either side, where the gap below a power of two is smaller. -/
def readBack (format : BinaryFormat) (mantissa : Nat) (exponent : Int) : Nat × Nat :=
  let below := if mantissa = Nat.pow 2 format.fraction ∧ format.least < exponent then 1 else 2
  (4 * mantissa - below, 4 * mantissa + 2)

/-- Of the two neighbours of `mantissa * 2 ^ exponent` on the grid of multiples of `10 ^ grid`,
the one that reads back, the nearer one if both do. -/
def neighbour? (format : BinaryFormat) (mantissa : Nat) (exponent grid : Int) : Option Nat :=
  let (low, high) := readBack format mantissa exponent
  let (unit, den) := quotient 1 (exponent - 2)
  let (value, step) := scaled (4 * mantissa * unit) den (-grid)
  let (low, _) := scaled (low * unit) den (-grid)
  let (high, _) := scaled (high * unit) den (-grid)
  let inside (n : Nat) : Bool :=
    if mantissa % 2 = 0 then low ≤ n * step ∧ n * step ≤ high
    else low < n * step ∧ n * step < high
  let below := value / step
  let above := below + 1
  match inside below, inside above with
  | true, true => some (if value - below * step ≤ above * step - value then below else above)
  | true, false => some below
  | false, true => some above
  | false, false => none

/-- The coarsest grid on which a neighbour reads back, with that neighbour. -/
def coarsest? (format : BinaryFormat) (mantissa : Nat) (exponent : Int) :
    Nat → Int → Option (Nat × Int)
  | 0, _ => none
  | tries + 1, grid =>
      match neighbour? format mantissa exponent grid with
      | some n => some (n, grid)
      | none => coarsest? format mantissa exponent tries (grid - 1)

/-- Digits after the point without the zeros at their end, and the point only if any are left. -/
def trimmed (places n : Nat) : String :=
  let fraction := (padded places (n % Nat.pow 10 places)).reverse.dropWhile (· = '0')
  let whole := String.ofList (digits (n / Nat.pow 10 places))
  if places = 0 ∨ fraction.isEmpty then whole
  else whole ++ "." ++ String.ofList fraction.reverse

/-- The fewest digits that read back as the same number of the format, without an exponent.
Twenty grids are enough for both formats. -/
def Exact.shortest (format : BinaryFormat) : Exact → String
  | .nan => "NaN"
  | .infinite negative => infinity negative
  | .finite negative mantissa exponent =>
      if mantissa = 0 then
        sign negative ++ "0"
      else
        let (num, den) := quotient mantissa exponent
        let lead := leadingExponent num den
        match coarsest? format mantissa exponent 20 lead with
        | some (n, grid) =>
            sign negative ++
              (if 0 ≤ grid then trimmed 0 (n * Nat.pow 10 grid.toNat) else trimmed (-grid).toNat n)
        | none => sign negative ++ positional 0 (num / den)

variable {α : Type} [Shown α]

/-- `places` digits after the point. -/
def fixed (places : Nat) (x : α) : String :=
  (Shown.exact x).fixed places

/-- One digit before and `places` digits after the point, with an exponent. -/
def scientific (places : Nat) (x : α) : String :=
  (Shown.exact x).scientific places

/-- The fewest digits that read back. -/
def shortest (x : α) : String :=
  (Shown.exact x).shortest (Shown.format α)

end PolicyGradient.Decimal
