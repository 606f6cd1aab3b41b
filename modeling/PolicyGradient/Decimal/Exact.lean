/-!
The exact value of a binary floating-point number.

Text is written from this value and never from the number itself, so that every digit is decided
by integer arithmetic.
-/

namespace PolicyGradient.Decimal

/-- Widths of a binary format: fraction bits and exponent bits. -/
structure BinaryFormat where
  fraction : Nat
  exponent : Nat
  deriving DecidableEq, Repr

/-- Single precision. -/
def binary32 : BinaryFormat := ⟨23, 8⟩

/-- Double precision. -/
def binary64 : BinaryFormat := ⟨52, 11⟩

/-- What a number stands for: no number, an infinity, or `± mantissa * 2 ^ exponent`. -/
inductive Exact
  | nan
  | infinite (negative : Bool)
  | finite (negative : Bool) (mantissa : Nat) (exponent : Int)
  deriving DecidableEq, Repr

/-- The exponent of the format's smallest positive number. -/
def BinaryFormat.least (format : BinaryFormat) : Int :=
  2 - (Nat.pow 2 (format.exponent - 1) : Int) - format.fraction

/-- The value that a bit pattern stands for. -/
def Exact.ofBits (format : BinaryFormat) (bits : Nat) : Exact :=
  let fraction := bits % Nat.pow 2 format.fraction
  let biased := bits / Nat.pow 2 format.fraction % Nat.pow 2 format.exponent
  let negative := bits / Nat.pow 2 (format.fraction + format.exponent) % 2 = 1
  if biased = Nat.pow 2 format.exponent - 1 then
    if fraction = 0 then .infinite negative else .nan
  else if biased = 0 then
    .finite negative fraction format.least
  else
    .finite negative (Nat.pow 2 format.fraction + fraction) (format.least + (biased - 1))

/-- `mantissa * 2 ^ exponent` as a quotient of natural numbers. -/
def quotient (mantissa : Nat) (exponent : Int) : Nat × Nat :=
  if 0 ≤ exponent then (mantissa * Nat.pow 2 exponent.toNat, 1)
  else (mantissa, Nat.pow 2 (-exponent).toNat)

/-- Numbers that have a text: a format and an exact value. -/
class Shown (α : Type) where
  format : BinaryFormat
  exact : α → Exact

instance : Shown Float32 where
  format := binary32
  exact x := Exact.ofBits binary32 x.toBits.toNat

instance : Shown Float where
  format := binary64
  exact x := Exact.ofBits binary64 x.toBits.toNat

end PolicyGradient.Decimal
