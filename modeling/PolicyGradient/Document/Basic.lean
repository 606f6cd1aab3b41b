/-!
Structured documents: null, Booleans, numbers, texts, lists and records.

Numbers are kept the way they are written, because a reader of settings tells `4` from `4.0` and
rejects a numeral that is too large for the field it belongs to.
-/

namespace PolicyGradient

/-- A decimal numeral: `± significand * 10 ^ (power - places)`. -/
structure Numeral where
  negative : Bool
  /-- All digits before the exponent, read as one number. -/
  significand : Nat
  /-- How many of them stand after the point. -/
  places : Nat
  power : Int
  /-- Written as digits alone, without a point or an exponent. -/
  plain : Bool
  deriving DecidableEq, Repr

namespace Numeral

/-- The numeral of a natural number. -/
def ofNat (n : Nat) : Numeral :=
  ⟨false, n, 0, 0, true⟩

/-- The natural number that the numeral writes out, below `2 ^ 64`. -/
def natural? (x : Numeral) : Option Nat :=
  if x.plain ∧ ¬ x.negative ∧ x.significand < Nat.pow 2 64 then some x.significand else none

/-- Whether the numeral is a whole number in the range of 64-bit integers. -/
def isWord (x : Numeral) : Bool :=
  x.plain && decide (x.significand < Nat.pow 2 64) &&
    (! x.negative || (decide (0 < x.significand) && decide (x.significand ≤ Nat.pow 2 63)))

/-- A power of ten up to `10 ^ 308`, rounded. -/
def powerOfTen (k : Nat) : Float :=
  Float.ofScientific 1 false k

/-- The longest run of leading digits that makes a number below `2 ^ 64`, with the number of digits
behind it. -/
def leadingDigits (n : Nat) : Nat × Nat :=
  if n < Nat.pow 2 64 then (n, 0)
  else
    let (m, dropped) := leadingDigits (n / 10)
    (m, dropped + 1)
termination_by n
decreasing_by
  have : 0 < Nat.pow 2 64 := Nat.pow_pos (Nat.zero_lt_succ 1)
  omega

/-- The digits of a numeral that fit into 64 bits, as one number, with the power of ten of its last
digit.  Digits before the point are left out from the first one that does not fit; those after it
follow as long as they fit. -/
def kept (x : Numeral) : Nat × Int :=
  let unit := Nat.pow 10 x.places
  let (whole, dropped) := leadingDigits (x.significand / unit)
  let (digits, cut) := leadingDigits (whole * unit + x.significand % unit)
  (digits, x.power - x.places + dropped + cut)

/-- `x / 10 ^ k`, in steps that stay within the powers of ten there are. -/
def shrink (x : Float) (k : Nat) : Float :=
  if k ≤ 308 then x / powerOfTen k
  else if x == 0 then x
  else shrink (x / powerOfTen 308) (k - 308)
termination_by k
decreasing_by omega

/-- The double-precision number: the kept digits and the power of ten are rounded first, then
their product or quotient. -/
def toFloat (x : Numeral) : Float :=
  let (digits, exponent) := x.kept
  let whole := Float.ofNat digits
  let magnitude :=
    if exponent < 0 then shrink whole exponent.natAbs
    else if exponent ≤ 308 then whole * powerOfTen exponent.toNat
    else if digits = 0 then 0
    else 1 / 0
  if x.negative then -magnitude else magnitude

/-- The double-precision number, if the numeral is in its range. -/
def float? (x : Numeral) : Option Float :=
  let value := x.toFloat
  if value.isFinite then some value else none

/-- The single-precision number, if the numeral is in double range.  Whole numbers are rounded
once, all others first to double precision. -/
def float32? (x : Numeral) : Option Float32 :=
  if x.isWord then
    let magnitude := Float32.ofNat x.significand
    some (if x.negative then -magnitude else magnitude)
  else
    x.float?.map Float.toFloat32

end Numeral

/-- A structured document; the entries of a record keep their order. -/
inductive Document
  | null
  | bool (value : Bool)
  | number (value : Numeral)
  | text (value : String)
  | list (items : List Document)
  | record (entries : List (String × Document))
  /-- A text, or a record with a key, that holds half of a surrogate pair.  It has a place in a
  document but no value. -/
  | undecodable
  deriving Repr

namespace Document

/-- The number `n`. -/
def ofNat (n : Nat) : Document :=
  .number (.ofNat n)

/-- A list of sizes. -/
def ofSizes (sizes : List Nat) : Document :=
  .list (sizes.map ofNat)

/-- A value or null. -/
def ofOption {α : Type} (f : α → Document) : Option α → Document
  | none => .null
  | some x => f x

mutual
/-- The document can be held as a whole: every number is a 64-bit integer or in double range, every
text decodes, and lists and records are nested at most `levels` deep. -/
def isWhole (levels : Nat) : Document → Bool
  | .number value => value.isWord || value.float?.isSome
  | .list items => decide (0 < levels) && allWhole (levels - 1) items
  | .record entries => decide (0 < levels) && entriesWhole (levels - 1) entries
  | .undecodable => false
  | _ => true

/-- All items can be held. -/
def allWhole (levels : Nat) : List Document → Bool
  | [] => true
  | item :: items => item.isWhole levels && allWhole levels items

/-- All entries can be held. -/
def entriesWhole (levels : Nat) : List (String × Document) → Bool
  | [] => true
  | (_, item) :: entries => item.isWhole levels && entriesWhole levels entries
end

/-- How deep lists and records may be nested in a document that is held as a whole. -/
def deepest : Nat := 127

/-- A natural number below `2 ^ 64`. -/
def nat? : Document → Option Nat
  | .number value => value.natural?
  | _ => none

def bool? : Document → Option Bool
  | .bool value => some value
  | _ => none

def text? : Document → Option String
  | .text value => some value
  | _ => none

def float? : Document → Option Float
  | .number value => value.float?
  | _ => none

def float32? : Document → Option Float32
  | .number value => value.float32?
  | _ => none

def items? : Document → Option (List Document)
  | .list items => some items
  | _ => none

/-- Null is the absent value. -/
def optional? {α : Type} (read : Document → Option α) : Document → Option (Option α)
  | .null => some none
  | item => (read item).map some

/-- A list whose items all read. -/
def listOf? {α : Type} (read : Document → Option α) (document : Document) : Option (List α) := do
  (← document.items?).mapM read

/-- How often a key occurs in a record. -/
def occurrences (key : String) (entries : List (String × Document)) : Nat :=
  (entries.filter fun entry => entry.1 == key).length

/-- The entry under a key. -/
def lookup? (key : String) (entries : List (String × Document)) : Option Document :=
  (entries.find? fun entry => entry.1 == key).map (·.2)

/-- The values of the named fields.  A record may hold other keys, but no named key twice; a list
holds the values by position and no more of them than there are names. -/
def fields? (names : List String) : Document → Option (List (Option Document))
  | .record entries =>
      if names.all fun name => decide (occurrences name entries ≤ 1) then
        some (names.map fun name => lookup? name entries)
      else
        none
  | .list items =>
      if items.length ≤ names.length then
        some ((List.range names.length).map fun i => items[i]?)
      else
        none
  | _ => none

/-- A field that has to be there. -/
def required? {α : Type} (read : Document → Option α) (field : Option Document) : Option α :=
  field.bind read

/-- A field that falls back on `default` when absent. -/
def withDefault? {α : Type} (default : α) (read : Document → Option α) :
    Option Document → Option α
  | none => some default
  | some item => read item

end Document

end PolicyGradient
