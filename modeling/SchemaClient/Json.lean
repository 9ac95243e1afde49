import SchemaClient.Value
import SchemaClient.Text.Half
import SchemaClient.Text.Utf8

/-!
# JSON values

The values JSON text can hold, with whole numbers and binary64 numbers apart and the members of an
object in the order they were written.
-/
namespace SchemaClient

inductive Json where
  | null
  | bool (b : Bool)
  | int (n : Int)
  | float (x : Binary64)
  | string (s : String)
  /-- A string that is no text, for it holds half of a surrogate pair: its code points. -/
  | halved (codes : List Nat)
  | array (items : List Json)
  | object (members : List (String × Json))
  /-- An object of which a name is no text. Its members cannot be asked for and are not kept. -/
  | unnamed
  deriving Inhabited

namespace Json

mutual

/-- The value a JSON value stands for. In a string that is no text, another character stands for
each half; an object of which a name is no text stands for an empty record. -/
def toValue : Json → Value
  | .null => .null
  | .bool b => .bool b
  | .int n => .int n
  | .float x => .float x
  | .string s => .text s
  | .halved codes => .text (Text.shownCodes codes)
  | .array items => .list (toValues items)
  | .object members => .record (toEntries members)
  | .unnamed => .record []

def toValues : List Json → List Value
  | [] => []
  | item :: rest => toValue item :: toValues rest

def toEntries : List (String × Json) → List (String × Value)
  | [] => []
  | (name, member) :: rest => (name, toValue member) :: toEntries rest

end

def member? (name : String) : Json → Option Json
  | .object members => members.lookup name
  | _ => none

/-- The items of an array that are texts. -/
def textItems : Json → List String
  | .array items => items.filterMap fun item =>
    match item with
    | .string s => some s
    | _ => none
  | _ => []

def texts (members : List (String × String)) : Json :=
  .object (members.map fun (name, s) => (name, .string s))

end Json

namespace Value

mutual

/-- The JSON value sent for a value: decimals, identifiers, dates and times as their texts, bytes as
the text they encode, tuples as arrays, and a number JSON has no digits for as null. Bytes that
encode no text cannot be sent. -/
def toJson? : Value → Option Json
  | .null => some .null
  | .bool b => some (.bool b)
  | .int n => some (.int n)
  | .float x => some (if x.isFinite then .float x else .null)
  | .decimal d => some (.string d.text)
  | .text s => some (.string s)
  | .bytes content => (Text.ofBytes? content).map .string
  | .date d => some (.string d.iso)
  | .time t => some (.string t.wire)
  | .datetime t => some (.string t.wire)
  | .uuid u => some (.string u.text)
  | .list items => (toJsons? items).map .array
  | .tuple items => (toJsons? items).map .array
  | .record entries => (toMembers? entries).map .object

def toJsons? : List Value → Option (List Json)
  | [] => some []
  | item :: rest =>
    match toJson? item, toJsons? rest with
    | some json, some jsons => some (json :: jsons)
    | _, _ => none

def toMembers? : List (String × Value) → Option (List (String × Json))
  | [] => some []
  | (name, value) :: rest =>
    match toJson? value, toMembers? rest with
    | some json, some members => some ((name, json) :: members)
    | _, _ => none

end

end Value
end SchemaClient
