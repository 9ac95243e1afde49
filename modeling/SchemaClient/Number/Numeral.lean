import SchemaClient.Number.Decimal

/-!
# Numbers read from text

Three readers: the one for whole numbers in data, which allows white space, single underscores and a
fraction of zeros; the one for binary64 numbers in data; and the one for whole numbers typed by a
person, which takes the digits of every script and tells a number that is too long from no number.
-/
namespace SchemaClient.Numeral

/-- The most digits a whole number is read from. -/
def digitLimit : Nat := 4300

inductive Fault where
  | malformed
  | tooLong
  deriving DecidableEq

/-- A minus sign, if there is one, and digits without a superfluous zero in front. -/
def strictInteger (text : List Char) : Except Fault Int :=
  let (negative, digits) :=
    match text with
    | '-' :: rest => (true, rest)
    | rest => (false, rest)
  let value : Int := Decimal.digitsValue digits
  if digits.isEmpty || !digits.all Char.isDigit then .error .malformed
  else if digits.head? = some '0' && digits.length ≠ 1 then .error .malformed
  else if digitLimit < digits.length then .error .tooLong
  else .ok (if negative then -value else value)

/-- The text without zeros and underscores in front of its first other digit or of a minus sign. The
last of them is kept before a point and at the end. -/
def withoutLeadingZeros (previous : Char) : List Char → Option (List Char)
  | [] => some [previous]
  | c :: rest =>
    if c = '0' || c = '_' then withoutLeadingZeros c rest
    else if c = '.' then some (previous :: c :: rest)
    else if c = '-' || c.isDigit then some (c :: rest)
    else none

/-- A text that starts with a digit, without superfluous zeros in front. -/
def significant? : List Char → Option (List Char)
  | '0' :: rest => withoutLeadingZeros '0' rest
  | c :: rest => if c.isDigit then some (c :: rest) else none
  | [] => none

/-- The text without a point that zeros, at least one of them, follow to the end. -/
def withoutZeroFraction (text : List Char) : List Char :=
  match text.dropWhile (· ≠ '.') with
  | '.' :: '0' :: tail => if tail.all (· = '0') then text.takeWhile (· ≠ '.') else text
  | _ => text

/-- Whether two underscores follow each other. -/
def hasDoubleUnderscore : List Char → Bool
  | '_' :: '_' :: _ => true
  | _ :: rest => hasDoubleUnderscore rest
  | [] => false

/-- The text without underscores, provided that each stands between two other characters. -/
def withoutUnderscores? (text : List Char) : Option (List Char) :=
  if text.head? = some '_' || text.getLast? = some '_' || hasDoubleUnderscore text then none
  else some (text.filter (· ≠ '_'))

/-- A text without a sign brought to the strict form: zeros in front, a fraction of zeros and single
underscores are dropped. -/
def cleanedSize? (text : List Char) : Option (List Char) :=
  (significant? text).map fun significant =>
    let whole := withoutZeroFraction significant
    (withoutUnderscores? whole).getD whole

/-- A text brought to the strict form, without white space around it and a plus sign. -/
def cleaned? (text : List Char) : Option (List Char) :=
  match Text.trimmed Text.isWhiteSpace text with
  | '+' :: size => cleanedSize? size
  | '-' :: size => (cleanedSize? size).map ('-' :: ·)
  | size => cleanedSize? size

/-- The whole number a text in data stands for. Only a text in the strict form is told that it has
too many digits. -/
def integer (text : String) : Except Fault Int :=
  match strictInteger text.toList with
  | .ok n => .ok n
  | .error .tooLong => .error .tooLong
  | .error .malformed =>
    match (cleaned? text.toList).map strictInteger with
    | some (.ok n) => .ok n
    | _ => .error .malformed

/-- The binary64 number a text stands for that has no white space and no underscores: digits with
at most one point and an exponent, or the name of an infinity or a NaN in any case. -/
def strictReal? (text : List Char) : Option Binary64 :=
  let (negative, rest) := Decimal.splitSign text
  match String.ofList (rest.map Char.toLower) with
  | "inf" | "infinity" => some (.infinity negative)
  | "nan" => some .nan
  | _ => do
    let (coefficient, shift, after) ← Decimal.splitNumber? rest
    let power ← Decimal.exponent? after
    some (.ofDecimal negative coefficient (shift + power))

/-- The binary64 number a text in data stands for. Underscores are allowed only where no white space
surrounds the text. -/
def real? (text : String) : Option Binary64 :=
  match strictReal? (Text.trimmed Text.isWhiteSpace text.toList) with
  | some x => some x
  | none => (withoutUnderscores? text.toList).bind strictReal?

/-- What is read of a whole number that a person typed before anything else: its digits, of any
script, which single underscores may separate, and what follows them. -/
def typedDigits (previous : Option Char) : List Char → List Nat × List Char
  | [] => ([], if previous = some '_' then ['_'] else [])
  | c :: rest =>
    match Text.digitValue? c with
    | some digit =>
      let (digits, after) := typedDigits (some c) rest
      (digit :: digits, after)
    | none =>
      if c = '_' && previous.isSome && previous ≠ some '_' then typedDigits (some c) rest
      else ([], if previous = some '_' then '_' :: c :: rest else c :: rest)

/-- Why a text that a person typed is no whole number. -/
inductive TypedFault where
  | malformed
  /-- More digits than are read; how many, up to the first fault. -/
  | tooLong (digits : Nat)
  deriving DecidableEq

/-- The whole number a person typed: blanks around it, a sign and digits. -/
def typedInteger (text : String) : Except TypedFault Int :=
  let (negative, body) := Decimal.splitSign (Text.trimmed Text.isWhiteSpace text.toList)
  let (digits, after) := typedDigits none body
  let size : Int := (digits.foldl (fun value digit => 10 * value + digit) 0 : Nat)
  if after.head? = some '_' then .error .malformed
  else if digitLimit < digits.length then .error (.tooLong digits.length)
  else if digits.isEmpty || !after.isEmpty then .error .malformed
  else .ok (if negative then -size else size)

end SchemaClient.Numeral
