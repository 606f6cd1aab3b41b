import PolicyGradient.Decimal.Text
import PolicyGradient.Metrics.Files
import PolicyGradient.Metrics.Record

/-!
Tables of steps: a header and one row for each step.

A table holds text back until it is flushed or its room is used up, so a file that two tables share
may take up a row in parts.  `put_spec` says that putting down a piece adds just that piece to what
is written and held together.
-/

namespace PolicyGradient

open Decimal (Shown fixed)

/-- A table in a file, with the text that is still held back. -/
structure Table where
  path : Path
  held : String
  deriving DecidableEq, Repr

namespace Table

/-- The room for text that is held back, in bytes. -/
def room : Nat := 8192

/-- The first line of a table. -/
def header : String :=
  "trainer,epoch,step,loss,learning_rate,elapsed_secs"

/-- Write out what is held back. -/
def flush (table : Table) (files : Files) : Table × Files :=
  ({ table with held := "" }, files.append table.path table.held)

/-- Put down a piece of text.  What is held back goes out first if there is no room for both, and a
piece as large as the whole room is not held back itself. -/
def put (piece : String) (table : Table) (files : Files) : Table × Files :=
  let size := piece.utf8ByteSize
  let free := room - table.held.utf8ByteSize
  let (table, files) := if free < size then table.flush files else (table, files)
  if room ≤ size then (table, files.append table.path piece)
  else ({ table with held := table.held ++ piece }, files)

/-- A piece that is put down goes behind all that is written and held. -/
theorem put_spec (piece : String) (table : Table) (files : Files)
    (h : table.path.all (· == "..") = false) :
    (table.put piece files).2.content table.path ++ (table.put piece files).1.held =
      files.content table.path ++ table.held ++ piece := by
  unfold put
  by_cases hfree : room - table.held.utf8ByteSize < piece.utf8ByteSize
  · by_cases hroom : room ≤ piece.utf8ByteSize <;>
      simp [flush, hfree, hroom, Files.content_append _ _ h]
  · by_cases hroom : room ≤ piece.utf8ByteSize
    · have hpos : 0 < room := by decide
      have hzero : table.held.utf8ByteSize = 0 := by omega
      have hempty : table.held = "" := String.utf8ByteSize_eq_zero_iff.mp hzero
      have hle : ¬ room < piece.utf8ByteSize := by omega
      simp [hempty, hle, hroom, Files.content_append _ _ h]
    · simp [hfree, hroom, String.append_assoc]

/-- Put down pieces of text, one after the other. -/
def putAll (pieces : List String) (table : Table) (files : Files) : Table × Files :=
  pieces.foldl (fun (table, files) piece => table.put piece files) (table, files)

/-- A table on a new or existing file; only an empty file gets a header. -/
def create (files : Files) (location : String) : Outcome (Table × Files) := do
  let path ← files.locate location
  let table : Table := ⟨path, if files.content path = "" then header ++ "\n" else ""⟩
  return (table, files.append path "")

/-- The pieces of a decimal number without its sign: the digits before the point, the point and the
digits after it.  Below one the zeros that lead are a piece of their own. -/
def unsignedPieces (text : List Char) : List (List Char) :=
  let places := (text.dropWhile (· != '.')).drop 1
  match text.takeWhile (· != '.') with
  | ['0'] => [['0', '.'], places.takeWhile (· == '0'), places.dropWhile (· == '0')]
  | whole => if places.isEmpty then [whole] else [whole, ['.'], places]

/-- The pieces of a decimal number. -/
def decimalPieces (text : String) : List String :=
  let pieces := match text.toList with
    | '-' :: rest => ['-'] :: unsignedPieces rest
    | text => unsignedPieces text
  pieces.map String.ofList

/-- The pieces of a step's row.  The seconds in the last column stand still: a run has no clock. -/
def rowPieces {α ρ : Type} [Shown α] [Shown ρ] (record : StepRecord α ρ) : List String :=
  let columns := [[record.learner], [toString record.epoch], [toString record.step],
    decimalPieces (fixed 6 record.loss), decimalPieces (fixed 8 record.lr),
    decimalPieces "0.00"]
  [","].intercalate columns ++ ["\n"]

/-- Put down the row of a step. -/
def step {α ρ : Type} [Shown α] [Shown ρ] (record : StepRecord α ρ) (table : Table)
    (files : Files) : Table × Files :=
  table.putAll (rowPieces record) files

end Table

end PolicyGradient
