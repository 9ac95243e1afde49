import SchemaClient.Entries
import SchemaClient.Json
import SchemaClient.Number.Decimal

/-!
# Reading JSON

The JSON value of a text, or the first place where the text goes wrong. Beside the numbers of the
standard, `NaN`, `Infinity` and `-Infinity` are read. Of members with one name the last gives the
value and the first the place. The nesting of arrays and objects that are not empty is limited, the
length of whole numbers may be, and a half of a surrogate pair without its other half may be a
fault.
-/
namespace SchemaClient.Json

/-- What is wrong at a place of a text. -/
inductive Fault where
  | byteOrderMark
  | expectingValue
  | expectingName
  | expectingColon
  | expectingComma
  | extraData
  | unterminatedString
  | controlCharacter
  | unicodeEscape
  | escape
  | deepArray
  | deepObject
  /-- A number that is longer in front of its point than numbers are read. -/
  | longNumber (limit length : Nat)
  deriving DecidableEq

def Fault.message : Fault → String
  | .byteOrderMark => "Unexpected UTF-8 BOM (decode using utf-8-sig)"
  | .expectingValue => "Expecting value"
  | .expectingName => "Expecting property name enclosed in double quotes"
  | .expectingColon => "Expecting ':' delimiter"
  | .expectingComma => "Expecting ',' delimiter"
  | .extraData => "Extra data"
  | .unterminatedString => "Unterminated string starting at"
  | .controlCharacter => "Invalid control character at"
  | .unicodeEscape => "Invalid \\uXXXX escape"
  | .escape => "Invalid \\escape"
  | .deepArray =>
    "maximum recursion depth exceeded while decoding a JSON array from a unicode string"
  | .deepObject =>
    "maximum recursion depth exceeded while decoding a JSON object from a unicode string"
  | .longNumber limit length =>
    "Exceeds the limit (" ++ Nat.repr limit ++
      " digits) for integer string conversion: value has " ++ Nat.repr length ++
      " digits; use sys.set_int_max_str_digits() to increase the limit"

/-- A fault and how many characters are left of the text where it lies. -/
structure Failure where
  fault : Fault
  remaining : Nat
  deriving DecidableEq

/-- The fault at the start of `rest`. -/
def failAt {α : Type} (fault : Fault) (rest : List Char) : Except Failure α :=
  .error ⟨fault, rest.length⟩

/-- The blanks JSON allows between its tokens. -/
def isGap (c : Char) : Bool := c = ' ' || c = '\t' || c = '\n' || c = '\r'

def skipGap (text : List Char) : List Char := text.dropWhile isGap

def hexValue? (c : Char) : Option Nat :=
  if '0' ≤ c && c ≤ '9' then some (c.toNat - '0'.toNat)
  else if 'a' ≤ c && c ≤ 'f' then some (c.toNat - 'a'.toNat + 10)
  else if 'A' ≤ c && c ≤ 'F' then some (c.toNat - 'A'.toNat + 10)
  else none

def hexUnit? (digits : List Char) : Option Nat :=
  digits.foldlM (fun value c => (hexValue? c).map (16 * value + ·)) 0

/-- The character a one-letter escape stands for. -/
def escapeValue? (c : Char) : Option Char :=
  if c = '"' || c = '\\' || c = '/' then some c
  else if c = 'n' then some '\n'
  else if c = 'r' then some '\r'
  else if c = 't' then some '\t'
  else if c = 'b' then some '\x08'
  else if c = 'f' then some '\x0c'
  else none

/-- The code points of a string up to its closing quote; escapes may be halves of a pair. `opened`
is the text from the opening quote on. A `\u` escape needs a character after its four digits. -/
def units (opened : List Char) : List Char → Except Failure (List Nat × List Char)
  | [] => failAt .unterminatedString opened
  | '"' :: rest => .ok ([], rest)
  | '\\' :: 'u' :: a :: b :: c :: d :: next :: rest =>
    match hexUnit? [a, b, c, d] with
    | some unit => do
      let (more, after) ← units opened (next :: rest)
      .ok (unit :: more, after)
    | none => failAt .unicodeEscape ('u' :: a :: b :: c :: d :: next :: rest)
  | '\\' :: 'u' :: rest => failAt .unicodeEscape ('u' :: rest)
  | '\\' :: c :: rest =>
    match escapeValue? c with
    | some char => do
      let (more, after) ← units opened rest
      .ok (char.toNat :: more, after)
    | none => failAt .escape ('\\' :: c :: rest)
  | ['\\'] => failAt .unterminatedString opened
  | c :: rest =>
    if c.toNat < 0x20 then failAt .controlCharacter (c :: rest)
    else do
      let (more, after) ← units opened rest
      .ok (c.toNat :: more, after)

/-- How long the part of a number before its point may be: of any length; of so many digits, if the
number is whole; or of so many characters with its sign, whatever follows. -/
inductive NumberLimit where
  | unlimited
  | digits (most : Nat)
  | characters (most : Nat)

/-- What a reading allows: how many arrays and objects may stand inside each other, how long numbers
may be, and whether a string may hold a half without its other half. -/
structure Limits where
  levels : Nat
  numbers : NumberLimit
  loneHalves : Bool

/-- The string of code points. -/
def Limits.string? (limits : Limits) (codes : List Nat) : Option Json :=
  match Text.ofCodes? codes with
  | some s => some (.string s)
  | none => if limits.loneHalves then some (.halved codes) else none

/-- The name of code points; there is none if they are no text. -/
def Limits.name? (limits : Limits) (codes : List Nat) : Option (Option String) :=
  match Text.ofCodes? codes with
  | some s => some (some s)
  | none => if limits.loneHalves then some none else none

/-- What the code points of a string mean whose opening quote has been read. -/
def readString {α : Type} (meaning : List Nat → Option α) (text : List Char) :
    Except Failure (α × List Char) := do
  let (codes, rest) ← units ('"' :: text) text
  match meaning (Text.joinedPairs codes) with
  | some a => .ok (a, rest)
  | none => failAt .unicodeEscape text

/-- The digits after a point, if at least one follows it, and the text after them. -/
def fractionPart : List Char → List Char × List Char
  | '.' :: rest =>
    let digits := rest.takeWhile Char.isDigit
    if digits.isEmpty then ([], '.' :: rest) else (digits, rest.dropWhile Char.isDigit)
  | rest => ([], rest)

/-- An exponent, if a digit follows its mark and sign, and the text after it. -/
def exponentPart : List Char → Option Int × List Char
  | [] => (none, [])
  | c :: rest =>
    let (negative, after) := Decimal.splitSign rest
    let digits := after.takeWhile Char.isDigit
    if (c = 'e' || c = 'E') && !digits.isEmpty then
      let size : Int := Decimal.digitsValue digits
      (some (if negative then -size else size), after.dropWhile Char.isDigit)
    else (none, c :: rest)

/-- What is wrong with the digits in front of a number's point, if there are too many of them. -/
def NumberLimit.fault? (limit : NumberLimit) (negative isWhole : Bool) (digits : List Char) :
    Option Fault :=
  match limit with
  | .unlimited => none
  | .digits most =>
    if isWhole && most < digits.length then some (.longNumber most digits.length) else none
  | .characters most =>
    let length := digits.length + (if negative then 1 else 0)
    if most < length then some (.longNumber most length) else none

/-- A number at the start of the text, of which `unsigned` is the part after its sign: a zero or
digits that start with another one, then a fraction and an exponent. It is a whole number if it has
neither of these. -/
def readUnsigned (limits : Limits) (text : List Char) (negative : Bool) (unsigned : List Char) :
    Except Failure (Json × List Char) :=
  let digits := unsigned.takeWhile Char.isDigit
  let whole := if digits.head? = some '0' then ['0'] else digits
  if whole.isEmpty then failAt .expectingValue text
  else
    let (fraction, afterFraction) := fractionPart (unsigned.drop whole.length)
    let (power, rest) := exponentPart afterFraction
    let isWhole := fraction.isEmpty && power.isNone
    match limits.numbers.fault? negative isWhole whole with
    | some fault => failAt fault text
    | none =>
      if isWhole then
        let size : Int := Decimal.digitsValue whole
        .ok (.int (if negative then -size else size), rest)
      else
        let coefficient := Decimal.digitsValue (whole ++ fraction)
        let exponent := power.getD 0 - fraction.length
        .ok (.float (.ofDecimal negative coefficient exponent), rest)

def readNumber (limits : Limits) (text : List Char) : Except Failure (Json × List Char) :=
  match text with
  | '-' :: unsigned => readUnsigned limits text true unsigned
  | unsigned => readUnsigned limits text false unsigned

def words : List (String × Json) :=
  [("null", .null), ("true", .bool true), ("false", .bool false), ("NaN", .float .nan),
    ("Infinity", .float (.infinity false)), ("-Infinity", .float (.infinity true))]

/-- The text after a word it starts with. -/
def dropWord? (word text : List Char) : Option (List Char) :=
  if word.isPrefixOf text then some (text.drop word.length) else none

def readWord? (text : List Char) : Option (Json × List Char) :=
  words.findSome? fun (word, json) => (dropWord? word.toList text).map (json, ·)

/-- The value of an object with one more member. -/
def withMember (object : Json) (name : Option String) (json : Json) : Json :=
  match object, name with
  | .object members, some name => .object (Entries.put members name json)
  | _, _ => .unnamed

mutual

/-- A value at the start of the text. `levels` is how many arrays and objects may still open;
`fuel`, at least twice the length of the text, bounds the calls. -/
def readValue (limits : Limits) (levels : Nat) :
    Nat → List Char → Except Failure (Json × List Char)
  | 0, text => failAt .expectingValue text
  | fuel + 1, text =>
    match text with
    | [] => failAt .expectingValue []
    | '"' :: rest => readString limits.string? rest
    | '[' :: rest =>
      match skipGap rest with
      | ']' :: after => .ok (.array [], after)
      | first =>
        match levels with
        | 0 => failAt .deepArray first
        | levels + 1 =>
          (readItems limits levels fuel first).map fun (items, after) => (.array items, after)
    | '\x7b' :: rest =>
      match skipGap rest with
      | '\x7d' :: after => .ok (.object [], after)
      | first =>
        match levels with
        | 0 => failAt .deepObject first
        | levels + 1 => readMembers limits levels fuel (.object []) first
    | text =>
      match readWord? text with
      | some reading => .ok reading
      | none => readNumber limits text

/-- The items of an array from one of them to the closing bracket. -/
def readItems (limits : Limits) (levels : Nat) :
    Nat → List Char → Except Failure (List Json × List Char)
  | 0, text => failAt .expectingValue text
  | fuel + 1, text => do
    let (item, rest) ← readValue limits levels fuel text
    match skipGap rest with
    | ']' :: after => .ok ([item], after)
    | ',' :: next => do
      let (items, after) ← readItems limits levels fuel (skipGap next)
      .ok (item :: items, after)
    | other => failAt .expectingComma other

/-- An object from one of its members to the closing brace; `before` has the members before. -/
def readMembers (limits : Limits) (levels : Nat) :
    Nat → Json → List Char → Except Failure (Json × List Char)
  | 0, _, text => failAt .expectingValue text
  | fuel + 1, before, text => do
    let (name, afterName) ←
      match text with
      | '"' :: rest => readString limits.name? rest
      | other => failAt .expectingName other
    let afterColon ←
      match skipGap afterName with
      | ':' :: rest => .ok (skipGap rest)
      | other => failAt .expectingColon other
    let (json, rest) ← readValue limits levels fuel afterColon
    let object := withMember before name json
    match skipGap rest with
    | '\x7d' :: after => .ok (object, after)
    | ',' :: next => readMembers limits levels fuel object (skipGap next)
    | other => failAt .expectingComma other

end

def read (limits : Limits) (text : String) : Except Failure Json := do
  let chars := text.toList
  if chars.head? = some '\ufeff' then failAt .byteOrderMark chars
  let fuel := 2 * chars.length + 2
  let (json, rest) ← readValue limits limits.levels fuel (skipGap chars)
  match skipGap rest with
  | [] => .ok json
  | extra => failAt .extraData extra

/-- The JSON value of a text of which no limit is asked: no text has more levels than characters. -/
def readAny (text : String) : Except Failure Json := read ⟨text.length, .unlimited, true⟩ text

/-- The words for a failure of a text, with the line, the column and the character where it lies. -/
def Failure.message (failure : Failure) (text : String) : String :=
  let chars := text.toList
  let position := chars.length - failure.remaining
  let before := chars.take position
  let line := before.count '\n' + 1
  let column := (before.reverse.takeWhile (· ≠ '\n')).length + 1
  failure.fault.message ++ ": line " ++ Nat.repr line ++ " column " ++ Nat.repr column ++
    " (char " ++ Nat.repr position ++ ")"

end SchemaClient.Json
