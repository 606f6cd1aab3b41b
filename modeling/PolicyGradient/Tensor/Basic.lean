import PolicyGradient.Scalar
import PolicyGradient.Tensor.Shape

/-!
Tensors of a fixed rank.

A tensor holds as many entries as its shape has positions.  Every operation is defined entry by
entry with `tabulate`, so that `entry_tabulate` says what it computes.  Operations on two tensors
stretch axes of size 1; shapes that cannot be combined are a fault.
-/

namespace PolicyGradient

/-- A row-major tensor of rank `rank`. -/
structure Tensor (α : Type) (rank : Nat) where
  dims : Vector Nat rank
  data : Array α
  size_eq : data.size = Size.volume dims.toList

namespace Tensor

variable {α β γ : Type} {rank : Nat}

/-- The sizes of the axes. -/
def shape (t : Tensor α rank) : List Nat :=
  t.dims.toList

/-- The size of an axis; zero for an axis that the tensor does not have. -/
def axis (t : Tensor α rank) (i : Nat) : Nat :=
  t.shape.getD i 0

/-- The sizes of the first two axes, batch and time. -/
def front (t : Tensor α 3) : Vector Nat 2 :=
  #v[t.axis 0, t.axis 1]

/-- The tensor with entry `f p` at every position `p`. -/
def tabulate (dims : Vector Nat rank) (f : List Nat → α) : Tensor α rank where
  dims := dims
  data := Array.ofFn fun i : Fin (Size.volume dims.toList) => f (Shape.unravel dims.toList i)
  size_eq := Array.size_ofFn

/-- Row-major data of a shape; data of another length is a mismatch. -/
def ofData? (dims : Vector Nat rank) (data : Array α) : Outcome (Tensor α rank) :=
  match Size.product dims.toList with
  | .error e => .error e
  | .ok count =>
      if h : data.size = Size.volume dims.toList then
        if Shape.addressable dims.toList then .ok ⟨dims, data, h⟩ else faultWith .overflow
      else failWith (.shapeMismatch .tensorBuffer [count] [data.size])

/-- A tensor of zeros. -/
def zeros? [Zero α] (dims : Vector Nat rank) : Outcome (Tensor α rank) := do
  Shape.room dims.toList
  return ⟨dims, Array.replicate (Size.volume dims.toList) 0, Array.size_replicate⟩

/-- The entries in row-major order. -/
def toList (t : Tensor α rank) : List α :=
  t.data.toList

/-- The entry at a position; zero outside. -/
def entry [Zero α] (t : Tensor α rank) (position : List Nat) : α :=
  t.data.getD (Shape.ravel t.shape position) 0

theorem entry_tabulate [Zero α] (dims : Vector Nat rank) (f : List Nat → α) (p : List Nat)
    (h : Shape.InBounds dims.toList p) : (tabulate dims f).entry p = f p := by
  obtain ⟨hu, hlt⟩ := Shape.unravel_ravel dims.toList p h
  simp [entry, tabulate, shape, Array.getD, hlt, hu]

@[simp] theorem shape_tabulate (dims : Vector Nat rank) (f : List Nat → α) :
    (tabulate dims f).shape = dims.toList := rfl

/-- Apply a function to every entry. -/
def map (f : α → β) (t : Tensor α rank) : Tensor β rank where
  dims := t.dims
  data := t.data.map f
  size_eq := by rw [Array.size_map, t.size_eq]

/-- The entry read at a position of a larger shape. -/
def stretched [Zero α] (t : Tensor α rank) (position : List Nat) : α :=
  t.entry (Shape.clip t.shape position)

/-- The joint shape of two tensors that can be combined. -/
def jointDims (s : Tensor α rank) (t : Tensor β rank) : Vector Nat rank :=
  Vector.zipWith Shape.jointAxis s.dims t.dims

/-- Combine two tensors entry by entry. -/
def zipWith [Zero α] [Zero β] (f : α → β → γ) (s : Tensor α rank) (t : Tensor β rank) :
    Outcome (Tensor γ rank) :=
  if Shape.agree s.shape t.shape then
    .ok (tabulate (jointDims s t) fun p => f (s.stretched p) (t.stretched p))
  else
    faultWith .incompatibleShapes

/-- The same data under another shape. -/
def reshape {rank' : Nat} (t : Tensor α rank) (dims : Vector Nat rank') :
    Outcome (Tensor α rank') :=
  if h : t.data.size = Size.volume dims.toList then .ok ⟨dims, t.data, h⟩
  else faultWith .incompatibleShapes

/-- The sizes of a leading part: no axis has more than all of it. -/
def leadingDims (t : Tensor α rank) (ends : Vector Nat rank) : Vector Nat rank :=
  Vector.zipWith min ends t.dims

/-- The leading part of every axis, which is the whole axis where the part would be longer.  A part
that is empty is a fault. -/
def leading [Zero α] (t : Tensor α rank) (ends : Vector Nat rank) : Outcome (Tensor α rank) :=
  if (t.leadingDims ends).toList.all (0 < ·) then
    .ok (tabulate (t.leadingDims ends) t.entry)
  else
    faultWith .outOfBounds

/-- One index of the first axis, as a tensor of the same rank. -/
def row [Zero α] (t : Tensor α (rank + 1)) (i : Nat) : Outcome (Tensor α (rank + 1)) :=
  if i < t.axis 0 then
    .ok (tabulate (t.dims.set 0 1) fun p => t.entry (i :: p.tail))
  else
    faultWith .outOfBounds

variable [Scalar α]

/-- The sum of all entries. -/
def sum (t : Tensor α rank) : α :=
  Scalar.laneSum t.toList

/-- The mean of all entries; a tensor without entries has none. -/
def mean (t : Tensor α rank) : Outcome α :=
  if t.data.size = 0 then faultWith .emptyDivision
  else .ok (t.sum / (t.data.size : α))

/-- The sums along an axis, which keeps size 1.  Terms that lie side by side in the data are added
in lanes, all others from left to right. -/
def sumAxis (i : Nat) (t : Tensor α rank) : Tensor α rank :=
  tabulate (t.dims.setIfInBounds i 1) fun p =>
    let terms := (List.range (t.axis i)).map fun k => t.entry (p.set i k)
    if i + 1 = rank then Scalar.laneSum terms else terms.foldl (· + ·) 0

/-- Sum the axes in which a tensor is larger than `dims`, one after the other: the gradient at a
tensor of shape `dims` from the gradient at a stretched one. -/
def collapse (t : Tensor α rank) (dims : Vector Nat rank) : Tensor α rank :=
  (List.range rank).foldl
    (fun t i => if t.axis i = dims.toList.getD i 0 then t else t.sumAxis i) t

end Tensor

end PolicyGradient
