import PolicyGradient.Tensor.Shape
import PolicyGradient.Weights.Block

/-!
Arithmetic on parameter blocks, entry by entry.

Blocks of one rank are combined like tensors: axes of size 1 are stretched, and shapes that cannot
be combined are a fault.  What `zipWith` gives is filled, whatever it was given.
-/

namespace PolicyGradient.ParamBlock

variable {α β γ : Type}

/-- The block, if it can stand for a tensor of a rank; values that do not fill its shape are a
mismatch. -/
def asTensor? (rank : Nat) (block : ParamBlock α) : Outcome (ParamBlock α) := do
  if block.shape.length ≠ rank then
    faultWith .incompatibleShapes
  else
    let count ← Size.product block.shape
    if block.values.size ≠ count then
      failWith (.shapeMismatch .tensorBuffer [count] [block.values.size])
    else if Shape.addressable block.shape then
      return block
    else
      faultWith .overflow

/-- Apply a function to every value. -/
def map (f : α → β) (block : ParamBlock α) : ParamBlock β :=
  ⟨block.shape, block.values.map f⟩

/-- The value that a block lends to the `i`-th entry of a shape that it is stretched to. -/
def stretched [Zero α] (block : ParamBlock α) (shape : List Nat) (i : Nat) : α :=
  let place :=
    if block.shape = shape then i
    else Shape.ravel block.shape (Shape.clip block.shape (Shape.unravel shape i))
  block.values.getD place 0

/-- Combine two blocks entry by entry. -/
def zipWith [Zero α] [Zero β] (f : α → β → γ) (a : ParamBlock α) (b : ParamBlock β) :
    Outcome (ParamBlock γ) :=
  if a.shape.length = b.shape.length ∧ Shape.agree a.shape b.shape = true then
    let shape := List.zipWith Shape.jointAxis a.shape b.shape
    .ok ⟨shape, Array.ofFn fun i : Fin (Size.volume shape) =>
      f (a.stretched shape i.val) (b.stretched shape i.val)⟩
  else
    faultWith .incompatibleShapes

theorem isFilled_map {f : α → β} {block : ParamBlock α} (h : block.IsFilled) :
    (block.map f).IsFilled := by
  simpa [map, IsFilled] using h

theorem isFilled_of_zipWith [Zero α] [Zero β] {f : α → β → γ} {a : ParamBlock α}
    {b : ParamBlock β} {c : ParamBlock γ} (h : a.zipWith f b = .ok c) : c.IsFilled := by
  unfold zipWith at h
  split at h
  · cases h
    simp [IsFilled]
  · simp [faultWith] at h

end PolicyGradient.ParamBlock
