import SchemaClient.Value.Display

/-!
# Keys

Which values can be the keys of a mapping, and which of them are the same key. Numbers of equal
value are one key whatever their kinds, and so are two times that are the same moment.
-/
namespace SchemaClient

inductive KeyFault where
  /-- Collections of this kind can change. -/
  | changeable (kind : String)
  | signalingNaN
  deriving DecidableEq

def KeyFault.message : KeyFault → String
  | changeable kind => "unhashable type: '" ++ kind ++ "'"
  | signalingNaN => "Cannot hash a signaling NaN value"

/-- The decimal number that equals a binary64 number other than NaN. -/
def Binary64.toDecimal (x : Binary64) : Decimal :=
  if x.isInfinite then .infinite x.isNegative
  else
    let places := (-x.scale).toNat
    let coefficient := x.significand * Nat.pow 2 x.scale.toNat * Nat.pow 5 places
    Decimal.reduced (.finite x.isNegative coefficient (-(places : Int)))

/-- A number that grows by one from day to day. -/
def Date.dayNumber (d : Date) : Int :=
  let year : Int := if d.month ≤ 2 then d.year - 1 else d.year
  let month : Int := if d.month ≤ 2 then d.month + 9 else d.month - 3
  365 * year + year / 4 - year / 100 + year / 400 + (153 * month + 2) / 5 + d.day

def TimeOfDay.microseconds (t : TimeOfDay) : Int :=
  ((t.hour * 60 + t.minute) * 60 + t.second) * 1000000 + t.microsecond

/-- A time as it is compared: with its distance from universal time taken off, where it is known. -/
def TimeOfDay.moment (t : TimeOfDay) : Bool × Int :=
  (t.offset.isSome, t.microseconds - t.offset.getD 0)

def DateTime.moment (t : DateTime) : Bool × Int :=
  (t.time.moment.1, t.date.dayNumber * 86400000000 + t.time.moment.2)

namespace Value

/-- The number that a value is, in the form that numbers of equal value share. A flag is zero or
one; a NaN equals nothing. -/
def number? : Value → Option Decimal
  | .bool b => some (.reduced (.finite false (if b then 1 else 0) 0))
  | .int n => some (.reduced (.finite (n < 0) n.natAbs 0))
  | .float x => if x.isNaN then none else some x.toDecimal
  | .decimal (.nan ..) => none
  | .decimal d => some d.reduced
  | _ => none

mutual

/-- What keeps a value from being a key. -/
def keyFault? : Value → Option KeyFault
  | .list items => some (.changeable (Value.list items).kindName)
  | .record entries => some (.changeable (Value.record entries).kindName)
  | .decimal (.nan _ true _) => some .signalingNaN
  | .tuple items => keyFaults? items
  | _ => none

def keyFaults? : List Value → Option KeyFault
  | [] => none
  | item :: rest => (keyFault? item).or (keyFaults? rest)

end

mutual

def sameKey : Value → Value → Bool
  | .null, .null => true
  | .text s, .text t => s == t
  | .bytes c, .bytes d => c == d
  | .date d, .date e => d == e
  | .time t, .time u => t.moment == u.moment
  | .datetime t, .datetime u => t.moment == u.moment
  | .uuid u, .uuid v => u == v
  | .tuple items, .tuple others => sameKeys items others
  | v, w => v.number?.isSome && v.number? == w.number?

def sameKeys : List Value → List Value → Bool
  | [], [] => true
  | item :: rest, other :: others => sameKey item other && sameKeys rest others
  | _, _ => false

end

end Value

/-- Entries whose keys need not be names, in the order in which the keys first came. -/
abbrev Mapping := List (Value × Value)

/-- The entries with one more, or with the value of a key replaced; the key stays as it was. -/
def Mapping.put (entries : Mapping) (key value : Value) : Mapping :=
  if entries.any fun entry => entry.1.sameKey key then
    entries.map fun entry => if entry.1.sameKey key then (entry.1, value) else entry
  else entries ++ [(key, value)]

end SchemaClient
