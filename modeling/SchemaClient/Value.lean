import SchemaClient.Moment

/-!
# Values

What a table cell, a condition or a call argument may hold. A record keeps its entries in the order
they were given. Values are of these kinds and of no others: there is no number or text among them
that is of a kind of its own besides and is written in its own way.
-/
namespace SchemaClient

structure Uuid where
  number : Nat
  deriving DecidableEq

/-- The hexadecimal digits of an identifier in groups of eight, four, four, four and twelve. -/
def Uuid.text (u : Uuid) : String :=
  let digits := Text.hexDigits 32 u.number
  let group (start width : Nat) := String.ofList ((digits.drop start).take width)
  Text.joined "-" [group 0 8, group 8 4, group 12 4, group 16 4, group 20 12]

inductive Value where
  | null
  | bool (b : Bool)
  | int (n : Int)
  | float (x : Binary64)
  | decimal (d : Decimal)
  | text (s : String)
  | bytes (content : List UInt8)
  | date (d : Date)
  | time (t : TimeOfDay)
  | datetime (t : DateTime)
  | uuid (u : Uuid)
  | list (items : List Value)
  | tuple (items : List Value)
  | record (entries : List (String × Value))
  deriving Inhabited

/-- Entries with distinct names, in order: a row, a set of assignments, a set of parameters. -/
abbrev Record := List (String × Value)

def Value.optionalText : Option String → Value
  | some s => .text s
  | none => .null

def Value.texts (list : List String) : Value := .list (list.map .text)

/-- Whether a value stands for nothing: null, false, zero, or what has no parts. -/
def Value.isNothing : Value → Bool
  | .null => true
  | .bool b => !b
  | .int n => n == 0
  | .float x => x.magnitude == 0
  | .decimal (.finite _ coefficient _) => coefficient == 0
  | .decimal _ => false
  | .text s => s.isEmpty
  | .bytes content => content.isEmpty
  | .list items | .tuple items => items.isEmpty
  | .record entries => entries.isEmpty
  | .date _ | .time _ | .datetime _ | .uuid _ => false

end SchemaClient
