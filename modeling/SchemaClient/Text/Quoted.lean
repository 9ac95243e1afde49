import SchemaClient.Text.Printable

/-!
# Quoted text

How a text or a run of bytes is shown inside a message: between quotes, with a backslash before
what would be misread. Single quotes are used unless the text holds single quotes and no double
ones.
-/
namespace SchemaClient.Text

/-- The digits of a number in base sixteen, in lower case, with leading zeros up to `width`. -/
def hexDigits (width n : Nat) : List Char :=
  let digits := Nat.toDigits 16 n
  List.replicate (width - digits.length) '0' ++ digits

/-- The quote that needs fewer backslashes; the single one if it does not matter. -/
def quoteMark (hasSingle hasDouble : Bool) : Char :=
  if hasSingle && !hasDouble then '"' else '\''

/-- One character as it stands between two `mark`s. -/
def quotedChar (mark c : Char) : List Char :=
  if c = '\\' || c = mark then ['\\', c]
  else if c = '\n' then ['\\', 'n']
  else if c = '\r' then ['\\', 'r']
  else if c = '\t' then ['\\', 't']
  else if isPrintable c then [c]
  else if c.toNat < 0x100 then '\\' :: 'x' :: hexDigits 2 c.toNat
  else if c.toNat < 0x10000 then '\\' :: 'u' :: hexDigits 4 c.toNat
  else '\\' :: 'U' :: hexDigits 8 c.toNat

def quoted (text : String) : String :=
  let mark := quoteMark (text.toList.contains '\'') (text.toList.contains '"')
  String.ofList (mark :: text.toList.flatMap (quotedChar mark) ++ [mark])

/-- One byte as it stands between two `mark`s. -/
def quotedByte (mark : Char) (b : UInt8) : List Char :=
  let c := Char.ofNat b.toNat
  if c = '\\' || c = mark then ['\\', c]
  else if c = '\n' then ['\\', 'n']
  else if c = '\r' then ['\\', 'r']
  else if c = '\t' then ['\\', 't']
  else if 0x20 ≤ b && b < 0x7f then [c]
  else '\\' :: 'x' :: hexDigits 2 b.toNat

/-- A run of bytes between quotes, with the letter `b` in front. -/
def quotedBytes (bytes : List UInt8) : String :=
  let mark := quoteMark (bytes.contains 0x27) (bytes.contains 0x22)
  String.ofList ('b' :: mark :: bytes.flatMap (quotedByte mark) ++ [mark])

/-- Texts with a separator between each two. -/
def joined (separator : String) (texts : List String) : String :=
  String.intercalate separator texts

/-- Quoted texts in brackets, with commas between them. -/
def quotedList (texts : List String) : String :=
  "[" ++ joined ", " (texts.map quoted) ++ "]"

/-- Alternatives as a sentence names them: `a`, `a or b`, `a, b or c`. -/
def alternatives : List String → String
  | [] => ""
  | [only] => only
  | [first, last] => first ++ " or " ++ last
  | first :: rest => first ++ ", " ++ alternatives rest

end SchemaClient.Text
