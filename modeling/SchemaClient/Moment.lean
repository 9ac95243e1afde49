import SchemaClient.Number.Shortest
import SchemaClient.Number.Decimal
import SchemaClient.Text.Quoted

/-!
# Dates and times

Calendar dates, times of day with an optional distance from universal time, and the two together,
with their ISO 8601 texts.
-/
namespace SchemaClient

structure Date where
  year : Nat
  month : Nat
  day : Nat
  deriving DecidableEq

/-- A time of day. `offset` is the distance from universal time in microseconds, if it is known. -/
structure TimeOfDay where
  hour : Nat
  minute : Nat
  second : Nat
  microsecond : Nat
  offset : Option Int
  deriving DecidableEq

structure DateTime where
  date : Date
  time : TimeOfDay
  deriving DecidableEq

open Binary64 (paddedDigits)

/-- `year-month-day`, with four and twice two digits. -/
def Date.iso (d : Date) : String :=
  paddedDigits 4 d.year ++ "-" ++ paddedDigits 2 d.month ++ "-" ++ paddedDigits 2 d.day

/-- Hours, minutes and seconds, and microseconds unless there are none. -/
def TimeOfDay.clock (t : TimeOfDay) : String :=
  paddedDigits 2 t.hour ++ ":" ++ paddedDigits 2 t.minute ++ ":" ++ paddedDigits 2 t.second ++
    (if t.microsecond = 0 then "" else "." ++ paddedDigits 6 t.microsecond)

/-- A distance in microseconds: hours and minutes, and what is finer only if it is not zero. -/
def distanceText (micros : Nat) : String :=
  let seconds := micros / 1000000
  paddedDigits 2 (seconds / 3600) ++ ":" ++ paddedDigits 2 (seconds / 60 % 60) ++
    (if micros % 60000000 = 0 then "" else ":" ++ paddedDigits 2 (seconds % 60)) ++
    (if micros % 1000000 = 0 then "" else "." ++ paddedDigits 6 (micros % 1000000))

/-- A distance from universal time, with its sign. -/
def offsetText (offset : Int) : String :=
  (if offset < 0 then "-" else "+") ++ distanceText offset.natAbs

def TimeOfDay.iso (t : TimeOfDay) : String :=
  t.clock ++ (t.offset.map offsetText).getD ""

def DateTime.iso (t : DateTime) : String := t.date.iso ++ "T" ++ t.time.iso

/-- The ISO text as it is put into JSON, which writes universal time as `Z` and an offset to the
minute. -/
def TimeOfDay.wire (t : TimeOfDay) : String :=
  t.clock ++
    match t.offset with
    | none => ""
    | some 0 => "Z"
    | some offset => String.ofList ((offsetText offset).toList.take 6)

def DateTime.wire (t : DateTime) : String := t.date.iso ++ "T" ++ t.time.wire

namespace Moment

/-- The number that the first `width` characters write, all of them digits, and what follows. -/
def fixedDigits? (width : Nat) (text : List Char) : Option (Nat × List Char) :=
  let digits := text.take width
  if digits.length = width && digits.all Char.isDigit then
    some (Decimal.digitsValue digits, text.drop width)
  else none

/-- The text after one separator, which may be left out. -/
def skip (separator : Char) : List Char → List Char
  | c :: rest => if c = separator then rest else c :: rest
  | [] => []

/-- How many days a month has. -/
def monthLength (year month : Nat) : Nat :=
  if month = 2 then
    if year % 4 = 0 && (year % 100 ≠ 0 || year % 400 = 0) then 29 else 28
  else if month = 4 || month = 6 || month = 9 || month = 11 then 30
  else 31

def date? (text : List Char) : Option (Date × List Char) := do
  let (year, rest) ← fixedDigits? 4 text
  let (month, rest) ← fixedDigits? 2 (skip '-' rest)
  let (day, rest) ← fixedDigits? 2 (skip '-' rest)
  if 1 ≤ year && 1 ≤ month && month ≤ 12 && 1 ≤ day && day ≤ monthLength year month then
    some (⟨year, month, day⟩, rest)
  else none

/-- Microseconds after a point or a comma; digits after the sixth are dropped. -/
def fraction (text : List Char) : Nat × List Char :=
  match text with
  | c :: rest =>
    if c = '.' || c = ',' then
      let digits := (rest.takeWhile Char.isDigit).take 6
      (Decimal.digitsValue (digits ++ List.replicate (6 - digits.length) '0'),
        rest.dropWhile Char.isDigit)
    else (0, text)
  | [] => (0, text)

/-- Hours, with minutes, seconds and their fraction as far as they are given, in microseconds. -/
def clock? (text : List Char) : Option (Nat × Nat × Nat × Nat × List Char) := do
  let (hour, rest) ← fixedDigits? 2 text
  match fixedDigits? 2 (skip ':' rest) with
  | none => some (hour, 0, 0, 0, rest)
  | some (minute, rest) =>
    match fixedDigits? 2 (skip ':' rest) with
    | none => some (hour, minute, 0, 0, rest)
    | some (second, rest) =>
      let (micros, rest) := fraction rest
      some (hour, minute, second, micros, rest)

/-- How long it is, in microseconds, from midnight to the time that the whole text gives. -/
def distance? (text : List Char) : Option Int := do
  let (hour, minute, second, micros, rest) ← clock? text
  if rest.isEmpty then
    some ((((hour * 60 + minute) * 60 + second) * 1000000 + micros : Nat) : Int)
  else none

/-- A distance from universal time up to the end of the text; nothing at all leaves it open. -/
def offset? (text : List Char) : Option (Option Int) :=
  match text with
  | [] => some none
  | ['Z'] | ['z'] => some (some 0)
  | '+' :: rest => (distance? rest).map some
  | '-' :: rest => (distance? rest).map fun n => some (-n)
  | _ => none

def time? (text : List Char) : Option TimeOfDay := do
  let (hour, minute, second, micros, rest) ← clock? text
  let offset ← offset? rest
  if hour < 24 && minute < 60 && second < 60 then some ⟨hour, minute, second, micros, offset⟩
  else none

end Moment

/-- The date an ISO text stands for. -/
def Date.ofText? (text : String) : Option Date := do
  let (date, rest) ← Moment.date? text.toList
  if rest.isEmpty then some date else none

/-- The time of day an ISO text stands for. -/
def TimeOfDay.ofText? (text : String) : Option TimeOfDay := Moment.time? text.toList

/-- The date and time an ISO text stands for; a date alone stands for its midnight. -/
def DateTime.ofText? (text : String) : Option DateTime := do
  let (date, rest) ← Moment.date? text.toList
  match rest with
  | [] => some ⟨date, ⟨0, 0, 0, 0, none⟩⟩
  | _ :: after => (Moment.time? after).map (⟨date, ·⟩)

end SchemaClient
