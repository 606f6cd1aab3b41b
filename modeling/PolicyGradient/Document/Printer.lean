import PolicyGradient.Document.Basic

/-!
Writing the text form of documents, on one line and without blanks.
-/

namespace PolicyGradient

/-- The text of a numeral: its digits, a point before the last `places` of them, an exponent. -/
def Numeral.render (x : Numeral) : String :=
  let ds := Nat.toDigits 10 x.significand
  let ds := List.replicate (x.places + 1 - ds.length) '0' ++ ds
  let whole := String.ofList (ds.take (ds.length - x.places))
  let fraction := String.ofList (ds.drop (ds.length - x.places))
  (if x.negative then "-" else "") ++ whole ++ (if x.places = 0 then "" else "." ++ fraction) ++
    (if x.power = 0 then "" else "e" ++ toString x.power)

namespace Document

/-- A digit of a code unit. -/
def hexDigit (n : Nat) : Char :=
  if n < 10 then Char.ofNat (48 + n) else Char.ofNat (87 + n)

/-- A character inside a quoted text. -/
def quoteChar (c : Char) : List Char :=
  if c = '"' then ['\\', '"']
  else if c = '\\' then ['\\', '\\']
  else if c.toNat < 32 then
    ['\\', 'u', '0', '0', hexDigit (c.toNat / 16), hexDigit (c.toNat % 16)]
  else [c]

/-- A text in quotes. -/
def quote (s : String) : String :=
  "\"" ++ String.ofList (s.toList.flatMap quoteChar) ++ "\""

mutual
/-- The text of a document. -/
def render : Document → String
  | .null => "null"
  | .bool value => if value then "true" else "false"
  | .number value => value.render
  | .text value => quote value
  | .undecodable => "\"\\ud800\""
  | .list items => "[" ++ ",".intercalate (renderItems items) ++ "]"
  | .record entries => "\x7b" ++ ",".intercalate (renderEntries entries) ++ "\x7d"

/-- The texts of the items of a list. -/
def renderItems : List Document → List String
  | [] => []
  | item :: items => item.render :: renderItems items

/-- The texts of the entries of a record. -/
def renderEntries : List (String × Document) → List String
  | [] => []
  | (key, item) :: entries => (quote key ++ ":" ++ item.render) :: renderEntries entries
end

end Document

end PolicyGradient
