import SchemaClient.Text.Quoted

/-!
# Halves of surrogate pairs

Code points that are no characters by themselves: two of them, a high and a low one, stand for one
character beyond the first sixteen bits.
-/
namespace SchemaClient.Text

def isHighHalf (code : Nat) : Bool := 0xd800 ≤ code && code < 0xdc00
def isLowHalf (code : Nat) : Bool := 0xdc00 ≤ code && code < 0xe000
def isHalf (code : Nat) : Bool := isHighHalf code || isLowHalf code

/-- The code points with the halves of each pair made one. -/
def joinedPairs : List Nat → List Nat
  | high :: low :: rest =>
    if isHighHalf high && isLowHalf low then
      (0x10000 + (high - 0xd800) * 0x400 + (low - 0xdc00)) :: joinedPairs rest
    else high :: joinedPairs (low :: rest)
  | codes => codes

/-- The text of code points of which none is a half. -/
def ofCodes? (codes : List Nat) : Option String :=
  if codes.any isHalf then none else some (String.ofList (codes.map Char.ofNat))

/-- A text for code points with another character in the place of each half. -/
def shownCodes (codes : List Nat) : String :=
  String.ofList (codes.map fun code => if isHalf code then '\ufffd' else Char.ofNat code)

/-- Whether a half stands for a byte that is no text, so that a name with it still has bytes. -/
def standsForByte (code : Nat) : Bool := 0xdc80 ≤ code && code ≤ 0xdcff

/-- A run of halves in a name, which keeps the name from being written in bytes. -/
structure HalfRun where
  first : Nat
  position : Nat
  length : Nat
  deriving DecidableEq

/-- The first run of halves in code points, without halves in front that stand for bytes, of a name
in which so many code points come before the run. -/
def HalfRun.ofCodes (before : Nat) (codes : List Nat) : HalfRun :=
  let run := (codes.dropWhile (!isHalf ·)).takeWhile isHalf
  let bytes := (run.takeWhile standsForByte).length
  let skipped := if bytes < run.length then bytes else 0
  ⟨run.getD skipped 0, before + skipped, run.length - skipped⟩

/-- The words for a name that cannot be written in bytes. -/
def HalfRun.message (run : HalfRun) : String :=
  let position := Nat.repr run.position
  let place :=
    if run.length = 1 then
      " '\\u" ++ String.ofList (hexDigits 4 run.first) ++ "' in position " ++ position
    else "s in position " ++ position ++ "-" ++ Nat.repr (run.position + run.length - 1)
  "'utf-8' codec can't encode character" ++ place ++ ": surrogates not allowed"

end SchemaClient.Text
