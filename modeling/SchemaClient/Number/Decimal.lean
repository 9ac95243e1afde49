import SchemaClient.Number.Binary64
import SchemaClient.Text.Blank

/-!
# Decimal numbers

Numbers that keep the digits and the exponent they were written with: `1.50` and `1.5` are different
data of equal value. The text of a number reads back as the same datum.
-/
namespace SchemaClient

/-- A number `coefficient * 10 ^ exponent` with a sign, an infinity, or a NaN with its payload. -/
inductive Decimal where
  | finite (negative : Bool) (coefficient : Nat) (exponent : Int)
  | infinite (negative : Bool)
  | nan (negative signaling : Bool) (payload : Nat)
  deriving DecidableEq, Inhabited

namespace Decimal

def isFinite : Decimal → Bool
  | .finite .. => true
  | _ => false

/-- The text of a number. The point stands where the exponent puts it as long as the exponent is not
positive and at most six zeros follow the point; otherwise one digit precedes the point and an
exponent follows. -/
def text : Decimal → String
  | .infinite negative => (if negative then "-" else "") ++ "Infinity"
  | .nan negative signaling payload =>
    (if negative then "-" else "") ++ (if signaling then "sNaN" else "NaN") ++
      (if payload = 0 then "" else Nat.repr payload)
  | .finite negative coefficient exponent =>
    let digits := (Nat.repr coefficient).toList
    let left : Int := exponent + digits.length
    let point : Int := if exponent ≤ 0 && -6 < left then left else 1
    let whole :=
      if point ≤ 0 then ['0'] else digits.take point.toNat
    let fraction :=
      if point ≤ 0 then List.replicate (-point).toNat '0' ++ digits else digits.drop point.toNat
    let power := left - point
    (if negative then "-" else "") ++ String.ofList whole ++
      (if fraction.isEmpty then "" else "." ++ String.ofList fraction) ++
      (if power = 0 then ""
        else "E" ++ (if power < 0 then "-" else "+") ++ Nat.repr power.natAbs)

/-- The number a run of digits stands for. -/
def digitsValue (digits : List Char) : Nat :=
  digits.foldl (fun value c => 10 * value + (c.toNat - '0'.toNat)) 0

/-- A sign, if the text starts with one, and what follows it. -/
def splitSign : List Char → Bool × List Char
  | '-' :: rest => (true, rest)
  | '+' :: rest => (false, rest)
  | rest => (false, rest)

/-- Digits with at most one point, as coefficient and negated count of digits after the point, and
what follows them. At least one digit is required. -/
def splitNumber? (text : List Char) : Option (Nat × Int × List Char) :=
  let whole := text.takeWhile Char.isDigit
  let rest := text.dropWhile Char.isDigit
  match rest with
  | '.' :: after =>
    let fraction := after.takeWhile Char.isDigit
    if whole.isEmpty && fraction.isEmpty then none
    else
      some (digitsValue (whole ++ fraction), -(fraction.length : Int), after.dropWhile Char.isDigit)
  | _ => if whole.isEmpty then none else some (digitsValue whole, 0, rest)

/-- An exponent with its mark, up to the end of the text; nothing at all stands for zero. -/
def exponent? : List Char → Option Int
  | [] => some 0
  | c :: rest =>
    let (negative, digits) := splitSign rest
    if (c = 'e' || c = 'E') && !digits.isEmpty && digits.all Char.isDigit then
      some (if negative then -(digitsValue digits : Int) else digitsValue digits)
    else none

/-- The number a text stands for, without regard to case, to white space around it and to
underscores. -/
def ofText? (text : String) : Option Decimal :=
  let body := (Text.trimmed Text.isBlank text.toList).filter (· ≠ '_')
  let (negative, rest) := splitSign body
  let lower := rest.map Char.toLower
  let payload? (digits : List Char) (signaling : Bool) : Option Decimal :=
    if digits.all Char.isDigit then some (.nan negative signaling (digitsValue digits)) else none
  match lower with
  | ['i', 'n', 'f'] | ['i', 'n', 'f', 'i', 'n', 'i', 't', 'y'] => some (.infinite negative)
  | 'n' :: 'a' :: 'n' :: digits => payload? digits false
  | 's' :: 'n' :: 'a' :: 'n' :: digits => payload? digits true
  | _ => do
    let (coefficient, shift, after) ← splitNumber? rest
    let power ← exponent? after
    some (.finite negative coefficient (shift + power))

/-- A coefficient without up to `count` zeros at its end, and the exponent that makes up for
them. -/
def withoutZeros : Nat → Nat → Int → Nat × Int
  | 0, coefficient, exponent => (coefficient, exponent)
  | count + 1, coefficient, exponent =>
    if coefficient % 10 = 0 then withoutZeros count (coefficient / 10) (exponent + 1)
    else (coefficient, exponent)

/-- The datum that stands for all data of equal value: the coefficient has no zero at its end, and
zero has neither a sign nor an exponent. -/
def reduced : Decimal → Decimal
  | .finite negative coefficient exponent =>
    if coefficient = 0 then .finite false 0 0
    else
      let (digits, power) :=
        withoutZeros (Binary64.decimalLength coefficient) coefficient exponent
      .finite negative digits power
  | d => d

/-- The whole number a finite decimal equals, if it is whole. -/
def toInt? (d : Decimal) : Option Int :=
  match d.reduced with
  | .finite negative coefficient exponent =>
    if exponent < 0 then none
    else
      let size : Nat := coefficient * Nat.pow 10 exponent.toNat
      some (if negative then -(size : Int) else size)
  | _ => none

/-- How many digits the whole part of a finite decimal has. -/
def wholeDigits (d : Decimal) : Nat :=
  match d.reduced with
  | .finite _ coefficient exponent => (exponent + Binary64.decimalLength coefficient).toNat
  | _ => 0

/-- The whole part of a finite decimal, cut toward zero; zero for what is not finite. -/
def truncate (d : Decimal) : Int :=
  match d.reduced with
  | .finite negative coefficient exponent =>
    let size : Nat :=
      if d.wholeDigits = 0 then 0
      else coefficient * Nat.pow 10 exponent.toNat / Nat.pow 10 (-exponent).toNat
    if negative then -(size : Int) else size
  | _ => 0

/-- The nearest binary64 number; a signaling NaN has none. -/
def toBinary64? : Decimal → Option Binary64
  | .finite negative coefficient exponent => some (.ofDecimal negative coefficient exponent)
  | .infinite negative => some (.infinity negative)
  | .nan _ signaling _ => if signaling then none else some .nan

end Decimal
end SchemaClient
