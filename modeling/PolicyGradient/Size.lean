import PolicyGradient.Failure

/-!
Sizes, counters and indices: natural numbers below `Size.limit`.

Sums and products that leave the range are a fault.  `Size.volume` is the unbounded product of a
shape, `Size.product` the bounded one, which multiplies from left to right and so also fails on a
partial product that is too large.
-/

namespace PolicyGradient.Size

/-- The first number that is no size. -/
def limit : Nat := Nat.pow 2 64

/-- A size in range, or an overflow. -/
def bounded (n : Nat) : Outcome Nat :=
  if n < limit then .ok n else faultWith .overflow

def add (m n : Nat) : Outcome Nat :=
  bounded (m + n)

def mul (m n : Nat) : Outcome Nat :=
  bounded (m * n)

/-- Number of entries of a shape. -/
def volume : List Nat → Nat
  | [] => 1
  | d :: ds => d * volume ds

/-- Bounded product of a shape, from left to right. -/
def product (shape : List Nat) : Outcome Nat :=
  shape.foldlM mul 1

/-- Room for `count` items of `width` bytes: a collection holds fewer than `2 ^ 63` bytes. -/
def allocate (count width : Nat) : Outcome Unit :=
  if count * width < Nat.pow 2 63 then .ok () else faultWith .overflow

/-- The 32-bit signed number with the same low bits. -/
def toSigned32 (n : Nat) : Int :=
  Int.bmod n (Nat.pow 2 32)

end PolicyGradient.Size
