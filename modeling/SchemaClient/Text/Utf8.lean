/-!
# UTF-8

The text a run of bytes encodes, and where it goes wrong if it encodes none.
-/
namespace SchemaClient.Text

/-- The text that bytes encode, if they encode one. -/
def ofBytes? (content : List UInt8) : Option String :=
  String.fromUTF8? ⟨content.toArray⟩

/-- The first place where bytes encode no character. -/
structure EncodingFault where
  position : Nat
  /-- How many bytes there are the start of no character; none if the bytes end too early. -/
  length : Option Nat
  deriving DecidableEq

def EncodingFault.message (fault : EncodingFault) : String :=
  match fault.length with
  | some length =>
    "invalid utf-8 sequence of " ++ Nat.repr length ++ " bytes from index " ++
      Nat.repr fault.position
  | none => "incomplete utf-8 byte sequence from index " ++ Nat.repr fault.position

/-- The ranges that the bytes after a first byte have to be in. -/
def followers? (first : UInt8) : Option (List (UInt8 × UInt8)) :=
  let any : UInt8 × UInt8 := (0x80, 0xbf)
  if first < 0x80 then some []
  else if first < 0xc2 then none
  else if first < 0xe0 then some [any]
  else if first = 0xe0 then some [(0xa0, 0xbf), any]
  else if first = 0xed then some [(0x80, 0x9f), any]
  else if first < 0xf0 then some [any, any]
  else if first = 0xf0 then some [(0x90, 0xbf), any, any]
  else if first < 0xf4 then some [any, any, any]
  else if first = 0xf4 then some [(0x80, 0x8f), any, any]
  else none

/-- Follows a first byte. `length` bytes of the character have been passed; the error is how many
bytes are the start of no character, or none if the bytes end. -/
def follow (length : Nat) :
    List (UInt8 × UInt8) → List UInt8 → Except (Option Nat) (List UInt8)
  | [], rest => .ok rest
  | _ :: _, [] => .error none
  | (low, high) :: ranges, b :: rest =>
    if low ≤ b && b ≤ high then follow (length + 1) ranges rest else .error (some length)

/-- The first fault of bytes, the first of which is number `position`. `fuel` is at least the number
of bytes. -/
def encodingFaultFrom? (position : Nat) : Nat → List UInt8 → Option EncodingFault
  | 0, _ => none
  | _, [] => none
  | fuel + 1, first :: rest =>
    match followers? first with
    | none => some ⟨position, some 1⟩
    | some ranges =>
      match follow 1 ranges rest with
      | .error length => some ⟨position, length⟩
      | .ok after => encodingFaultFrom? (position + 1 + ranges.length) fuel after

/-- The first fault of bytes that are to encode a text. -/
def encodingFault? (content : List UInt8) : Option EncodingFault :=
  encodingFaultFrom? 0 content.length content

end SchemaClient.Text
