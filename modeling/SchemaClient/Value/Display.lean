import SchemaClient.Value

/-!
# Values in messages

A message shows a value in one of two ways: as it would be written in a program (`shown`, with texts
between quotes) or as plain text (`plain`, which differs only for what stands alone).
-/
namespace SchemaClient

/-- The seconds and days of a distance from universal time, the seconds never negative. -/
def offsetShown (offset : Int) : String :=
  let day : Int := 86400000000
  let days := offset / day
  let rest := (offset % day).toNat
  let fields :=
    [("days", days), ("seconds", (rest / 1000000 : Nat)), ("microseconds", (rest % 1000000 : Nat))]
  let written := (fields.filter (·.2 ≠ 0)).map fun (name, n) => name ++ "=" ++ toString n
  if offset = 0 then "datetime.timezone.utc"
  else "datetime.timezone(datetime.timedelta(" ++ Text.joined ", " written ++ "))"

/-- The numbers of a time of day as far as they are not zero; hours and minutes always. -/
def TimeOfDay.shownFields (t : TimeOfDay) : List String :=
  [Nat.repr t.hour, Nat.repr t.minute] ++
    (if t.microsecond ≠ 0 then [Nat.repr t.second, Nat.repr t.microsecond]
      else if t.second ≠ 0 then [Nat.repr t.second] else []) ++
    (t.offset.map fun offset => "tzinfo=" ++ offsetShown offset).toList

def Date.shownFields (d : Date) : List String :=
  [Nat.repr d.year, Nat.repr d.month, Nat.repr d.day]

namespace Value

mutual

def shown : Value → String
  | .null => "None"
  | .bool b => if b then "True" else "False"
  | .int n => toString n
  | .float x => x.text
  | .decimal d => "Decimal('" ++ d.text ++ "')"
  | .text s => Text.quoted s
  | .bytes content => Text.quotedBytes content
  | .date d => "datetime.date(" ++ Text.joined ", " d.shownFields ++ ")"
  | .time t => "datetime.time(" ++ Text.joined ", " t.shownFields ++ ")"
  | .datetime t =>
    "datetime.datetime(" ++ Text.joined ", " (t.date.shownFields ++ t.time.shownFields) ++ ")"
  | .uuid u => "UUID('" ++ u.text ++ "')"
  | .list items => "[" ++ Text.joined ", " (shownItems items) ++ "]"
  | .tuple [item] => "(" ++ shown item ++ ",)"
  | .tuple items => "(" ++ Text.joined ", " (shownItems items) ++ ")"
  | .record entries => "\x7b" ++ Text.joined ", " (shownEntries entries) ++ "\x7d"

def shownItems : List Value → List String
  | [] => []
  | item :: rest => shown item :: shownItems rest

def shownEntries : List (String × Value) → List String
  | [] => []
  | (name, value) :: rest => (Text.quoted name ++ ": " ++ shown value) :: shownEntries rest

end

def plain : Value → String
  | .text s => s
  | .decimal d => d.text
  | .date d => d.iso
  | .time t => t.iso
  | .datetime t => t.date.iso ++ " " ++ t.time.iso
  | .uuid u => u.text
  | v => shown v

/-- The name a message gives to the kind of a value. -/
def kindName : Value → String
  | .null => "NoneType"
  | .bool _ => "bool"
  | .int _ => "int"
  | .float _ => "float"
  | .decimal _ => "decimal.Decimal"
  | .text _ => "str"
  | .bytes _ => "bytes"
  | .date _ => "datetime.date"
  | .time _ => "datetime.time"
  | .datetime _ => "datetime.datetime"
  | .uuid _ => "UUID"
  | .list _ => "list"
  | .tuple _ => "tuple"
  | .record _ => "dict"

end Value
end SchemaClient
