import PolicyGradient.Document.Basic

/-!
Reading the text form of documents.

The grammar is strict: no leading zeros, no plus sign, no control characters in texts, and nothing
but blanks after the document.  An unpaired surrogate in a text is within the grammar but stands for
no character: that text, or the record with that key, is undecodable.
-/

namespace PolicyGradient.Document

/-- Blanks between tokens. -/
def isBlank (c : Char) : Bool :=
  c == ' ' || c == '\t' || c == '\n' || c == '\r'

def skipBlanks (cs : List Char) : List Char :=
  cs.dropWhile isBlank

/-- The value of a hexadecimal digit. -/
def hexDigit? (c : Char) : Option Nat :=
  if c.isDigit then some (c.toNat - 48)
  else if 'a' ≤ c ∧ c ≤ 'f' then some (c.toNat - 87)
  else if 'A' ≤ c ∧ c ≤ 'F' then some (c.toNat - 55)
  else none

/-- A code unit of four hexadecimal digits. -/
def unit? (a b c d : Char) : Option Nat := do
  return (((← hexDigit? a) * 16 + (← hexDigit? b)) * 16 + (← hexDigit? c)) * 16 + (← hexDigit? d)

/-- First half of a surrogate pair. -/
def isHighHalf (u : Nat) : Bool := 0xD800 ≤ u && u < 0xDC00

/-- Second half of a surrogate pair. -/
def isLowHalf (u : Nat) : Bool := 0xDC00 ≤ u && u < 0xE000

/-- The character of a surrogate pair. -/
def paired (high low : Nat) : Char :=
  Char.ofNat (0x10000 + (high - 0xD800) * 0x400 + (low - 0xDC00))

/-- The character that an escape with one letter stands for. -/
def escaped? : Char → Option Char
  | '"' => some '"'
  | '\\' => some '\\'
  | '/' => some '/'
  | 'b' => some '\x08'
  | 'f' => some '\x0c'
  | 'n' => some '\n'
  | 'r' => some '\r'
  | 't' => some '\t'
  | _ => none

/-- The code points up to the closing quote, in reverse before `acc`, and what follows it.  An
escape may stand for half of a surrogate pair. -/
def readText (acc : List Nat) : List Char → Option (List Nat × List Char)
  | [] => none
  | '"' :: rest => some (acc, rest)
  | '\\' :: 'u' :: a :: b :: c :: d :: rest =>
      match unit? a b c d with
      | none => none
      | some u => readText (u :: acc) rest
  | '\\' :: e :: rest =>
      match escaped? e with
      | none => none
      | some c => readText (c.toNat :: acc) rest
  | c :: rest => if c.toNat < 32 then none else readText (c.toNat :: acc) rest

/-- The characters of code points: a high half followed by a low one is one character, and no half
may be left over. -/
def decode? : List Nat → Option (List Char)
  | [] => some []
  | [u] => if isHighHalf u || isLowHalf u then none else some [Char.ofNat u]
  | u :: v :: rest =>
      if isHighHalf u && isLowHalf v then (decode? rest).map (paired u v :: ·)
      else if isHighHalf u || isLowHalf u then none
      else (decode? (v :: rest)).map (Char.ofNat u :: ·)

theorem not_half_toNat (c : Char) : (isHighHalf c.toNat || isLowHalf c.toNat) = false := by
  have h := c.valid
  simp only [UInt32.isValidChar, Nat.isValidChar] at h
  simp only [isHighHalf, isLowHalf, Char.toNat, Bool.or_eq_false_iff, Bool.and_eq_false_iff,
    decide_eq_false_iff_not]
  omega

/-- The code points of characters decode to those characters. -/
theorem decode?_map_toNat (cs : List Char) : decode? (cs.map Char.toNat) = some cs := by
  induction cs with
  | nil => rfl
  | cons c cs ih =>
      have h := not_half_toNat c
      cases cs with
      | nil => simp [decode?, h]
      | cons d ds =>
          obtain ⟨hhigh, hlow⟩ := Bool.or_eq_false_iff.mp h
          simp only [List.map_cons] at ih ⊢
          simp [decode?, hhigh, hlow, ih]

/-- A text without its opening quote, if it can be decoded, and the rest. -/
def readString (cs : List Char) : Option (Option String × List Char) :=
  (readText [] cs).map fun (acc, rest) => ((decode? acc.reverse).map String.ofList, rest)

/-- The document of a text, or of a record whose keys and entries are given, if it can be
decoded. -/
def decoded {α : Type} (make : α → Document) : Option α → Document
  | some a => make a
  | none => .undecodable

/-- The number that a run of digits writes, continuing `acc`. -/
def digitsValue (acc : Nat) (ds : List Char) : Nat :=
  ds.foldl (fun n d => 10 * n + (d.toNat - 48)) acc

/-- The leading digits and the rest. -/
def takeDigits (cs : List Char) : List Char × List Char :=
  (cs.takeWhile Char.isDigit, cs.dropWhile Char.isDigit)

/-- The digits after a point, if there is one. -/
def readFraction : List Char → Option (List Char × List Char)
  | '.' :: rest =>
      let (ds, rest) := takeDigits rest
      if ds.isEmpty then none else some (ds, rest)
  | cs => some ([], cs)

/-- The exponent, if there is one. -/
def readExponent (cs : List Char) : Option (Option Int × List Char) :=
  let unsigned (negative : Bool) (cs : List Char) : Option (Option Int × List Char) :=
    let (ds, rest) := takeDigits cs
    if ds.isEmpty then none
    else
      let n : Int := digitsValue 0 ds
      some (some (if negative then -n else n), rest)
  match cs with
  | c :: rest =>
      if c = 'e' ∨ c = 'E' then
        match rest with
        | '-' :: rest => unsigned true rest
        | '+' :: rest => unsigned false rest
        | _ => unsigned false rest
      else some (none, cs)
  | [] => some (none, [])

/-- A numeral without its sign. -/
def readUnsigned (negative : Bool) (cs : List Char) : Option (Numeral × List Char) := do
  let (whole, rest) := takeDigits cs
  if whole.isEmpty || (whole.head? == some '0' && decide (1 < whole.length)) then none
  else
    let (fraction, rest) ← readFraction rest
    let (power, rest) ← readExponent rest
    return (⟨negative, digitsValue (digitsValue 0 whole) fraction, fraction.length,
      power.getD 0, fraction.isEmpty && power.isNone⟩, rest)

/-- A numeral. -/
def readNumeral : List Char → Option (Numeral × List Char)
  | '-' :: rest => readUnsigned true rest
  | cs => readUnsigned false cs

/-- An entry before others, if its key and theirs can be decoded. -/
def withEntry (key : Option String) (item : Document) (entries : Option (List (String × Document))) :
    Option (List (String × Document)) := do
  return (← key, item) :: (← entries)

/-- The rest after the given characters. -/
def expect (word : List Char) (cs : List Char) : Option (List Char) :=
  if word.isPrefixOf cs then some (cs.drop word.length) else none

mutual
/-- One document and the rest.  Every nested call follows at least one character, so the length
of the text is enough fuel. -/
def readValue : Nat → List Char → Option (Document × List Char)
  | 0, _ => none
  | fuel + 1, cs =>
      match skipBlanks cs with
      | '\x7b' :: rest =>
          match skipBlanks rest with
          | '\x7d' :: rest => some (.record [], rest)
          | rest => (readEntries fuel rest).map fun (entries, rest) => (decoded .record entries, rest)
      | '[' :: rest =>
          match skipBlanks rest with
          | ']' :: rest => some (.list [], rest)
          | rest => (readItems fuel rest).map fun (items, rest) => (.list items, rest)
      | '"' :: rest => (readString rest).map fun (s, rest) => (decoded .text s, rest)
      | 'n' :: rest => (expect ['u', 'l', 'l'] rest).map fun rest => (.null, rest)
      | 't' :: rest => (expect ['r', 'u', 'e'] rest).map fun rest => (.bool true, rest)
      | 'f' :: rest => (expect ['a', 'l', 's', 'e'] rest).map fun rest => (.bool false, rest)
      | rest => (readNumeral rest).map fun (n, rest) => (.number n, rest)

/-- The items of a list that is not empty, up to its closing bracket. -/
def readItems : Nat → List Char → Option (List Document × List Char)
  | 0, _ => none
  | fuel + 1, cs =>
      match readValue fuel cs with
      | none => none
      | some (item, rest) =>
          match skipBlanks rest with
          | ',' :: rest => (readItems fuel rest).map fun (items, rest) => (item :: items, rest)
          | ']' :: rest => some ([item], rest)
          | _ => none

/-- The entries of a record that is not empty, up to its closing brace, if all keys can be
decoded. -/
def readEntries : Nat → List Char → Option (Option (List (String × Document)) × List Char)
  | 0, _ => none
  | fuel + 1, cs =>
      match skipBlanks cs with
      | '"' :: rest =>
          match readString rest with
          | none => none
          | some (key, rest) =>
              match skipBlanks rest with
              | ':' :: rest =>
                  match readValue fuel rest with
                  | none => none
                  | some (item, rest) =>
                      match skipBlanks rest with
                      | ',' :: rest =>
                          (readEntries fuel rest).map fun (entries, rest) =>
                            (withEntry key item entries, rest)
                      | '\x7d' :: rest => some (withEntry key item (some []), rest)
                      | _ => none
              | _ => none
      | _ => none
end

/-- The document that a text holds. -/
def parse? (source : String) : Option Document :=
  let cs := source.toList
  match readValue (2 * cs.length + 2) cs with
  | some (document, rest) => if (skipBlanks rest).isEmpty then some document else none
  | none => none

end PolicyGradient.Document
