import SchemaClient.Number.Numeral
import SchemaClient.Value.Display

/-!
# Whole parts

The whole number that a value of any kind is cut to: numbers are cut toward zero, and texts are
read.
-/
namespace SchemaClient

/-- Why a value cannot be cut to a whole number that can be written. -/
inductive CutFault where
  /-- A text that is no number; how it is shown. -/
  | unreadable (shown : String)
  /-- A text with more digits than are read. -/
  | tooManyDigits (digits : Nat)
  /-- A number with more digits than are written. -/
  | tooLong
  | notNumber (name : String)
  | infinite (name : String)
  /-- A value of a kind that is never a number. -/
  | wrongKind (kind : String)
  deriving DecidableEq

/-- The words for a fault. Of a text no more than two hundred characters are shown. -/
def CutFault.message : CutFault → String
  | unreadable shown =>
    "invalid literal for int() with base 10: " ++ String.ofList (shown.toList.take 200)
  | tooManyDigits digits =>
    "Exceeds the limit (" ++ Nat.repr Numeral.digitLimit ++
      " digits) for integer string conversion: value has " ++ Nat.repr digits ++
      " digits; use sys.set_int_max_str_digits() to increase the limit"
  | tooLong =>
    "Exceeds the limit (" ++ Nat.repr Numeral.digitLimit ++
      " digits) for integer string conversion; " ++
      "use sys.set_int_max_str_digits() to increase the limit"
  | notNumber name => "cannot convert " ++ name ++ " to integer"
  | infinite name => "cannot convert " ++ name ++ " to integer"
  | wrongKind kind =>
    "int() argument must be a string, a bytes-like object or a real number, not '" ++ kind ++ "'"

namespace Value

/-- A whole number, if it has no more digits than are written. -/
def writable (n : Int) : Except CutFault Int :=
  if n.natAbs < Nat.pow 10 Numeral.digitLimit then .ok n else .error .tooLong

/-- The whole number that a text, shown in its own way, stands for. -/
def wholeOfText (shown text : String) : Except CutFault Int :=
  match Numeral.typedInteger text with
  | .ok n => .ok n
  | .error .malformed => .error (.unreadable shown)
  | .error (.tooLong digits) => .error (.tooManyDigits digits)

/-- Bytes as characters; those outside ASCII are no part of a number. -/
def asciiText (content : List UInt8) : String :=
  String.ofList (content.map fun b => if b < 0x80 then Char.ofNat b.toNat else '\ufffd')

def wholePart : Value → Except CutFault Int
  | .bool b => .ok (if b then 1 else 0)
  | .int n => writable n
  | .float x =>
    if x.isNaN then .error (.notNumber "float NaN")
    else if x.isInfinite then .error (.infinite "float infinity")
    else .ok x.truncate
  | .decimal (.nan ..) => .error (.notNumber "NaN")
  | .decimal (.infinite _) => .error (.infinite "Infinity")
  | .decimal d => if Numeral.digitLimit < d.wholeDigits then .error .tooLong else .ok d.truncate
  | .text s => wholeOfText (Value.text s).shown s
  | .bytes content => wholeOfText (Value.bytes content).shown (asciiText content)
  | .uuid u => .ok u.number
  | v => .error (.wrongKind v.kindName)

end Value
end SchemaClient
