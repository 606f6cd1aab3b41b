import PolicyGradient.Scalar

/-!
A linear congruential generator, for initial weights and synthetic trajectories that are the same
in every run.
-/

namespace PolicyGradient

/-- The state of the generator. -/
structure Noise where
  state : UInt32
  deriving DecidableEq, Repr

namespace Noise

/-- The generator of a seed, of which the low 32 bits count. -/
def ofSeed (seed : Nat) : Noise :=
  ⟨UInt32.ofNat seed⟩

/-- The next number below `2 ^ 16`: the high half of the next state. -/
def next (noise : Noise) : Nat × Noise :=
  let state := noise.state * 1664525 + 1013904223
  ((state >>> 16).toNat, ⟨state⟩)

/-- `n` draws in order. -/
def draws {β : Type} (draw : Noise → β × Noise) : (n : Nat) → Noise → List β × Noise
  | 0, noise => ([], noise)
  | n + 1, noise =>
      let (first, noise) := draw noise
      let (others, noise) := draws draw n noise
      (first :: others, noise)

variable {α : Type} [Scalar α]

/-- The sixteenth part of a natural number. -/
def sixteenth (n : Nat) : α :=
  (n : α) / ((16 : Nat) : α)

/-- A multiple of 1/16 from -1 to 1. -/
def value (noise : Noise) : α × Noise :=
  let (n, noise) := noise.next
  (sixteenth (n % 33) - 1, noise)

end Noise

end PolicyGradient
