import PolicyGradient.Size

/-!
Shapes and positions of row-major tensors.

A position is a list of indices, one for each axis.  `ravel` gives its place in the row-major
data and `unravel` finds the position of a place.
-/

namespace PolicyGradient.Shape

/-- The position of the `i`-th entry. -/
def unravel : List Nat → Nat → List Nat
  | [], _ => []
  | _ :: ds, i => i / Size.volume ds :: unravel ds (i % Size.volume ds)

/-- The place of a position in the data. -/
def ravel : List Nat → List Nat → Nat
  | _ :: ds, i :: is => i * Size.volume ds + ravel ds is
  | _, _ => 0

/-- Every index lies below the size of its axis. -/
def InBounds : List Nat → List Nat → Prop
  | [], [] => True
  | d :: ds, i :: is => i < d ∧ InBounds ds is
  | _, _ => False

instance decidableInBounds : (ds is : List Nat) → Decidable (InBounds ds is)
  | [], [] => isTrue trivial
  | _ :: ds, _ :: is => @instDecidableAnd _ _ inferInstance (decidableInBounds ds is)
  | [], _ :: _ => isFalse id
  | _ :: _, [] => isFalse id

/-- Two axes can be combined when their sizes are equal or one of them is 1. -/
def axesAgree (d e : Nat) : Bool :=
  d == e || d == 1 || e == 1

/-- The common size of two axes that can be combined. -/
def jointAxis (d e : Nat) : Nat :=
  if d = 1 then e else d

/-- The entries of a shape whose axes of size 0 are left out. -/
def extent (ds : List Nat) : Nat :=
  Size.volume (ds.filter (· != 0))

/-- Places in the data can be counted with signed sizes, even where an empty axis leaves none. -/
def addressable (ds : List Nat) : Bool :=
  decide (extent ds < Nat.pow 2 63)

/-- Room for the entries of a shape, four bytes each. -/
def room (ds : List Nat) : Outcome Unit := do
  Size.allocate (Size.volume ds) 4
  if addressable ds then return () else faultWith .overflow

/-- All axes of two shapes of one rank can be combined. -/
def agree (ds es : List Nat) : Bool :=
  (ds.zip es).all fun (d, e) => axesAgree d e

/-- The position read along axes of size 1 when a tensor is stretched. -/
def clip (ds is : List Nat) : List Nat :=
  List.zipWith (fun d i => if d = 1 then 0 else i) ds is

theorem ravel_unravel (ds : List Nat) (i : Nat) (h : i < Size.volume ds) :
    ravel ds (unravel ds i) = i := by
  induction ds generalizing i with
  | nil =>
      simp only [Size.volume] at h
      simp only [ravel]
      omega
  | cons d ds ih =>
      simp only [unravel, ravel]
      have hpos : 0 < Size.volume ds := by
        rcases Nat.eq_zero_or_pos (Size.volume ds) with hz | hp
        · simp [Size.volume, hz] at h
        · exact hp
      rw [ih _ (Nat.mod_lt _ hpos)]
      exact Nat.div_add_mod' i (Size.volume ds)

theorem unravel_ravel (ds is : List Nat) (h : InBounds ds is) :
    unravel ds (ravel ds is) = is ∧ ravel ds is < Size.volume ds := by
  induction ds generalizing is with
  | nil =>
      cases is with
      | nil => simp [unravel, ravel, Size.volume]
      | cons i is => exact absurd h id
  | cons d ds ih =>
      cases is with
      | nil => exact absurd h id
      | cons i is =>
          obtain ⟨hi, hs⟩ := h
          obtain ⟨hu, hlt⟩ := ih is hs
          have hpos : 0 < Size.volume ds := Nat.lt_of_le_of_lt (Nat.zero_le _) hlt
          have hdiv : (i * Size.volume ds + ravel ds is) / Size.volume ds = i := by
            rw [Nat.mul_comm, Nat.mul_add_div hpos, Nat.div_eq_of_lt hlt, Nat.add_zero]
          have hmod : (i * Size.volume ds + ravel ds is) % Size.volume ds = ravel ds is := by
            rw [Nat.mul_comm, Nat.mul_add_mod, Nat.mod_eq_of_lt hlt]
          refine ⟨by simp only [unravel, ravel, hdiv, hmod, hu], ?_⟩
          simp only [ravel, Size.volume]
          calc i * Size.volume ds + ravel ds is
              < i * Size.volume ds + Size.volume ds := Nat.add_lt_add_left hlt _
            _ = (i + 1) * Size.volume ds := by rw [Nat.add_mul, Nat.one_mul]
            _ ≤ d * Size.volume ds := Nat.mul_le_mul_right _ hi

end PolicyGradient.Shape
