/-!
# Double-precision numbers

A number of the IEEE 754 format binary64, kept as its 64 bits, so that two numbers are equal here
exactly when they are the same datum: a NaN equals itself and the two zeros differ. Reading a
decimal or a whole number rounds the exact value once, to the nearest datum, a tie to the even one.
-/
namespace SchemaClient

/-- A datum of the format: one sign bit, eleven exponent bits, fifty-two fraction bits. -/
structure Binary64 where
  bits : UInt64
  deriving DecidableEq, Inhabited

namespace Binary64

/-- The weight of the sign bit. -/
def signWeight : Nat := 0x8000000000000000

/-- How many fractions there are; also the weight of the lowest exponent bit. -/
def fractionCount : Nat := 0x10000000000000

/-- The bits without the sign. Among numbers of one sign they grow with the absolute value. -/
def magnitude (x : Binary64) : Nat := x.bits.toNat % signWeight

def isNegative (x : Binary64) : Bool := signWeight ≤ x.bits.toNat

/-- The magnitude bits of infinity: all exponent bits set, no fraction. -/
def infiniteMagnitude : Nat := 2047 * fractionCount

def isNaN (x : Binary64) : Bool := infiniteMagnitude < x.magnitude

def isInfinite (x : Binary64) : Bool := x.magnitude == infiniteMagnitude

def isFinite (x : Binary64) : Bool := x.magnitude < infiniteMagnitude

/-- The datum with a sign and magnitude bits. -/
def ofMagnitude (negative : Bool) (magnitude : Nat) : Binary64 :=
  ⟨UInt64.ofNat (magnitude + if negative then signWeight else 0)⟩

def zero : Binary64 := ofMagnitude false 0

def infinity (negative : Bool) : Binary64 := ofMagnitude negative infiniteMagnitude

/-- The quiet NaN without payload. -/
def nan : Binary64 := ofMagnitude false (infiniteMagnitude + fractionCount / 2)

/-- A finite number is `significand * 2 ^ scale`, up to its sign. -/
def significand (x : Binary64) : Nat :=
  if x.magnitude < fractionCount then x.magnitude else x.magnitude % fractionCount + fractionCount

/-- The exponent of two that goes with `significand`; it is never below -1074. -/
def scale (x : Binary64) : Int :=
  if x.magnitude < fractionCount then -1074 else (x.magnitude / fractionCount : Nat) - 1075

/-- The quotient rounded to the nearest whole number, a tie to the even one. -/
def roundDiv (num den : Nat) : Nat :=
  let low := num / den
  let rest := 2 * (num % den)
  if rest < den || (rest == den && low % 2 == 0) then low else low + 1

/-- The magnitude bits of the datum nearest to `num / den`, infinity from half a unit past the
largest finite number on. A significand that rounds up to `2 ^ 53` carries into the exponent bits,
which is the right datum again. -/
def nearestMagnitude (num den : Nat) : Nat :=
  if num = 0 then 0
  else
    let estimate : Int := (num.log2 : Int) - den.log2
    let tooHigh := num * Nat.pow 2 (-estimate).toNat < den * Nat.pow 2 estimate.toNat
    let exponent := if tooHigh then estimate - 1 else estimate
    let unit := max (exponent - 52) (-1074)
    let rounded := roundDiv (num * Nat.pow 2 (-unit).toNat) (den * Nat.pow 2 unit.toNat)
    min ((unit + 1074).toNat * fractionCount + rounded) infiniteMagnitude

/-- The datum nearest to a fraction. -/
def ofRatio (negative : Bool) (num den : Nat) : Binary64 :=
  ofMagnitude negative (nearestMagnitude num den)

/-- How many decimal digits a number is written with. -/
def decimalLength (n : Nat) : Nat := (Nat.toDigits 10 n).length

/-- The datum nearest to `coefficient * 10 ^ exponent`. A number beyond `10 ^ 400` is infinite and
one below `10 ^ -400` is zero, so its power of ten is not worked out. -/
def ofDecimal (negative : Bool) (coefficient : Nat) (exponent : Int) : Binary64 :=
  let top := exponent + decimalLength coefficient
  if coefficient = 0 || top < -400 then ofMagnitude negative 0
  else if 400 < top then infinity negative
  else ofRatio negative (coefficient * Nat.pow 10 exponent.toNat) (Nat.pow 10 (-exponent).toNat)

/-- The datum nearest to a whole number; infinite for one out of range. -/
def nearest (n : Int) : Binary64 := ofRatio (n < 0) n.natAbs 1

/-- The datum nearest to a whole number, if the number is in the format's range. -/
def ofInt? (n : Int) : Option Binary64 :=
  let x := nearest n
  if x.isFinite then some x else none

/-- The whole part of a finite number, cut toward zero. -/
def truncate (x : Binary64) : Int :=
  let size := x.significand * Nat.pow 2 x.scale.toNat / Nat.pow 2 (-x.scale).toNat
  if x.isNegative then -(size : Int) else size

/-- Whether a finite number is whole. -/
def isWhole (x : Binary64) : Bool :=
  x.significand * Nat.pow 2 x.scale.toNat % Nat.pow 2 (-x.scale).toNat == 0

/-- A whole number that orders the numbers other than NaN; both zeros have key zero. -/
def key (x : Binary64) : Int :=
  if x.isNegative then -(x.magnitude : Int) else x.magnitude

/-- Numeric order. A NaN is not below anything. -/
def lt (x y : Binary64) : Bool := !x.isNaN && !y.isNaN && x.key < y.key

/-- Numeric equality: the zeros are equal, and a NaN is equal to nothing. -/
def eq (x y : Binary64) : Bool := !x.isNaN && !y.isNaN && x.key == y.key

end Binary64
end SchemaClient
