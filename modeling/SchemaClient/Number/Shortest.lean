import SchemaClient.Number.Binary64

/-!
# Shortest decimals

The fewest decimal digits that read back as a given finite binary64 number, and the text made of
them. The reals that round to the number form an interval, closed when its significand is even. On
each decimal grid, coarsest first, the two neighbours of the number are tried: the first grid with a
neighbour in the interval gives the digits.
-/
namespace SchemaClient.Binary64

/-- The positive decimal `digits * 10 ^ exponent`. -/
structure Decimal10 where
  digits : Nat
  exponent : Int
  deriving DecidableEq

/-- A number and its rounding interval, all three in quarters of a unit in the last place, which is
`unitNum / unitDen`. -/
structure Neighbourhood where
  low : Nat
  value : Nat
  high : Nat
  closed : Bool
  unitNum : Nat
  unitDen : Nat

/-- The interval reaches half a unit up and down; only a quarter down from a power of two, below
which the numbers lie twice as dense. -/
def neighbourhood (x : Binary64) : Neighbourhood :=
  let m := x.significand
  let quarter := x.scale - 2
  { low := 4 * m - (if m == fractionCount && 2 * fractionCount ≤ x.magnitude then 1 else 2)
    value := 4 * m
    high := 4 * m + 2
    closed := m % 2 == 0
    unitNum := Nat.pow 2 quarter.toNat
    unitDen := Nat.pow 2 (-quarter).toNat }

/-- Whether `candidate * num / den` lies in the interval. -/
def Neighbourhood.holds (n : Neighbourhood) (candidate num den : Nat) : Bool :=
  if n.closed then n.low * den ≤ candidate * num && candidate * num ≤ n.high * den
  else n.low * den < candidate * num && candidate * num < n.high * den

/-- The neighbour of the number on the grid of multiples of `10 ^ exponent` that lies in the
interval; of two, the nearer, and in a tie the even one. -/
def Neighbourhood.onGrid (n : Neighbourhood) (exponent : Int) : Option Decimal10 :=
  let num := Nat.pow 10 exponent.toNat * n.unitDen
  let den := n.unitNum * Nat.pow 10 (-exponent).toNat
  let below := n.value * den / num
  let fromBelow := 2 * (n.value * den - below * num)
  let preferAbove := num < fromBelow || (fromBelow == num && below % 2 == 1)
  let hits := [below, below + 1].filter fun candidate => n.holds candidate num den
  match hits with
  | [] => none
  | [only] => some ⟨only, exponent⟩
  | _ => some ⟨if preferAbove then below + 1 else below, exponent⟩

/-- The exponent of ten of the leading digit of a finite number other than zero. -/
def leadingExponent (x : Binary64) : Int :=
  let n := x.neighbourhood
  (decimalLength (n.value * n.unitNum * Nat.pow 10 400 / n.unitDen) : Int) - 401

/-- The decimal with trailing zeros moved into the exponent; `fuel` bounds their number. -/
def Decimal10.stripped : Nat → Decimal10 → Decimal10
  | 0, d => d
  | fuel + 1, d =>
    if d.digits ≠ 0 && d.digits % 10 == 0 then
      Decimal10.stripped fuel ⟨d.digits / 10, d.exponent + 1⟩
    else d

/-- The shortest decimal that reads back as the absolute value of a finite number. Seventeen digits
always do. -/
def shortest (x : Binary64) : Decimal10 :=
  if x.magnitude = 0 then ⟨0, 0⟩
  else
    let lead := x.leadingExponent
    let grids := (List.range 17).map fun (places : Nat) => lead - (places : Int)
    match grids.findSome? x.neighbourhood.onGrid with
    | some d => d.stripped 18
    | none => ⟨x.significand, x.scale⟩

/-- The choices of a number format: the exponents written in plain notation, and the fewest digits
of a written exponent. -/
structure NumberStyle where
  plainFrom : Int
  plainBelow : Int
  exponentDigits : Nat

/-- Numbers from `0.0001` up to below `10 ^ 16` are written plainly, with a point and at least one
digit on each side of it; the others with an exponent of two digits or more and its sign. -/
def standard : NumberStyle := ⟨-4, 16, 2⟩

/-- Decimal digits with leading zeros up to `width`. -/
def paddedDigits (width n : Nat) : String :=
  let digits := Nat.repr n
  String.ofList (List.replicate (width - digits.length) '0') ++ digits

/-- A positive decimal, or zero, in the style. -/
def NumberStyle.write (style : NumberStyle) (d : Decimal10) : String :=
  let digits := (Nat.repr d.digits).toList
  let lead : Int := d.exponent + digits.length - 1
  if style.plainFrom ≤ lead && lead < style.plainBelow then
    if lead < 0 then
      "0." ++ String.ofList (List.replicate (-lead - 1).toNat '0' ++ digits)
    else
      let whole := lead.toNat + 1
      let padded := digits ++ List.replicate (whole - digits.length) '0'
      let tail := padded.drop whole
      String.ofList (padded.take whole) ++ "." ++ (if tail.isEmpty then "0" else String.ofList tail)
  else
    let tail := digits.drop 1
    String.ofList (digits.take 1) ++ (if tail.isEmpty then "" else "." ++ String.ofList tail) ++
      "e" ++ (if lead < 0 then "-" else "+") ++ paddedDigits style.exponentDigits lead.natAbs

/-- The text of a number: its shortest decimal in the standard notation. -/
def text (x : Binary64) : String :=
  if x.isNaN then "nan"
  else
    let sign := if x.isNegative then "-" else ""
    if x.isInfinite then sign ++ "inf" else sign ++ standard.write x.shortest

end SchemaClient.Binary64
