import SchemaClient.Json
import SchemaClient.Number.Shortest

/-!
# Writing JSON

The text of a JSON value, on one line with a blank after each comma and colon, or over several lines
with two blanks of indentation a level. Characters outside ASCII are written as escapes, those
outside the basic plane as two.
-/
namespace SchemaClient.Json

/-- A character of the basic plane as an escape. -/
def unitEscape (unit : Nat) : List Char :=
  '\\' :: 'u' :: Text.hexDigits 4 unit

/-- A code point as one escape or two. -/
def codeEscape (code : Nat) : List Char :=
  if code < 0x10000 then unitEscape code
  else
    let rest := code - 0x10000
    unitEscape (0xd800 + rest / 0x400) ++ unitEscape (0xdc00 + rest % 0x400)

/-- One character of a string. -/
def escapedChar (c : Char) : List Char :=
  if c = '"' || c = '\\' then ['\\', c]
  else if c = '\n' then ['\\', 'n']
  else if c = '\r' then ['\\', 'r']
  else if c = '\t' then ['\\', 't']
  else if c = '\x08' then ['\\', 'b']
  else if c = '\x0c' then ['\\', 'f']
  else if 0x20 ≤ c.toNat && c.toNat < 0x7f then [c]
  else codeEscape c.toNat

def quotedText (s : String) : String :=
  String.ofList ('"' :: s.toList.flatMap escapedChar ++ ['"'])

/-- Code points between quotes, all of them as escapes. -/
def quotedCodes (codes : List Nat) : String :=
  String.ofList ('"' :: codes.flatMap codeEscape ++ ['"'])

/-- A number; those without digits have names. -/
def floatText (x : Binary64) : String :=
  if x.isNaN then "NaN"
  else if x.isInfinite then (if x.isNegative then "-Infinity" else "Infinity")
  else x.text

/-- What separates the parts of arrays and objects: on one line, or on lines of a depth. -/
inductive Layout where
  | line
  | lines (depth : Nat)

namespace Layout

def newline (depth : Nat) : String :=
  String.ofList ('\n' :: List.replicate (2 * depth) ' ')

def inner : Layout → Layout
  | .line => .line
  | .lines depth => .lines (depth + 1)

/-- Parts between brackets. -/
def enclosed (layout : Layout) (opening closing : String) (parts : List String) : String :=
  if parts.isEmpty then opening ++ closing
  else
    match layout with
    | .line => opening ++ Text.joined ", " parts ++ closing
    | .lines depth =>
      opening ++ newline (depth + 1) ++ Text.joined ("," ++ newline (depth + 1)) parts ++
        newline depth ++ closing

end Layout

mutual

/-- The text of a JSON value in a layout. -/
def write (layout : Layout) : Json → String
  | .null => "null"
  | .bool b => if b then "true" else "false"
  | .int n => toString n
  | .float x => floatText x
  | .string s => quotedText s
  | .halved codes => quotedCodes codes
  | .array items => layout.enclosed "[" "]" (writeItems layout.inner items)
  | .object members => layout.enclosed "\x7b" "\x7d" (writeMembers layout.inner members)
  | .unnamed => layout.enclosed "\x7b" "\x7d" []

def writeItems (layout : Layout) : List Json → List String
  | [] => []
  | item :: rest => write layout item :: writeItems layout rest

def writeMembers (layout : Layout) : List (String × Json) → List String
  | [] => []
  | (name, member) :: rest =>
    (quotedText name ++ ": " ++ write layout member) :: writeMembers layout rest

end

/-- The text of a JSON value on one line. -/
def compact (json : Json) : String := json.write .line

def pretty (json : Json) : String := json.write (.lines 0)

end SchemaClient.Json
