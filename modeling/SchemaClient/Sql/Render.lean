import SchemaClient.Sql.Dialect
import SchemaClient.Sql.Layout

/-!
# Writing statements

The text of a statement. Values are kept out of it: each place has the mark of a parameter, numbered
from the left, and the values go beside the text. For display they can be written into it instead,
as literals.
-/
namespace SchemaClient.Sql

/-- Where values go. -/
inductive ValueMode where
  | bound
  | inline
  deriving DecidableEq

/-- A statement's text with the values of its parameters. -/
structure Compiled where
  sql : String
  params : Record
  dialect : Dialect

def Compiled.toRecord (c : Compiled) : Record :=
  [("sql", .text c.sql), ("params", .record c.params), ("dialect", .text c.dialect.name)]

namespace Piece

/-- The text of a piece, given what stands in the place of a value. -/
def text (slot : Value → String) : Piece → String
  | word w => w.text
  | operator o => o.word
  | star => "*"
  | comma => ","
  | opening => "("
  | closing => ")"
  | blank => " "
  | newline => "\n"
  | name s => identifier s
  | count n => toString n
  | .slot v => slot v

def value? : Piece → Option Value
  | slot v => some v
  | _ => none

end Piece

def paramName (n : Nat) : String := "param_" ++ Nat.repr n

/-- The texts of pieces in which the parameters are numbered from `next` on. -/
def boundTexts (dialect : Dialect) (next : Nat) : List Piece → List String
  | [] => []
  | .slot _ :: rest =>
    dialect.placeholder (paramName next) :: boundTexts dialect (next + 1) rest
  | piece :: rest => piece.text (fun _ => "") :: boundTexts dialect next rest

/-- The values with the names of parameters, numbered from `next` on. -/
def numbered (next : Nat) : List Value → Record
  | [] => []
  | v :: rest => (paramName next, v) :: numbered (next + 1) rest

/-- The text of a piece in which a value stands as a literal. -/
def Piece.inlineText (dialect : Dialect) : Piece → Except Fault String
  | .slot v => literal dialect v
  | piece => .ok (piece.text fun _ => "")

namespace Layout

/-- The texts of a layout and the parameters that go with them. -/
def texts (layout : Layout) (dialect : Dialect) :
    ValueMode → Except Fault (List String × Record)
  | .bound => .ok (boundTexts dialect 0 layout.pieces, numbered 0 (layout.pieces.filterMap (·.value?)))
  | .inline => (layout.pieces.mapM (Piece.inlineText dialect)).map (·, [])

def compile (layout : Layout) (dialect : Dialect) (mode : ValueMode) : Except Fault Compiled := do
  let (texts, params) ← layout.texts dialect mode
  match layout.fault with
  | some fault => .error fault
  | none => .ok ⟨String.join texts, params, dialect⟩

end Layout

def Statement.compile (statement : Statement) (dialect : Dialect) (mode : ValueMode) :
    Except Failure Compiled :=
  (statement.layout.compile dialect mode).mapError Fault.failure

/-- The dialect of a name, or the failure that there is none. -/
def Dialect.find (name : String) : Except Failure Dialect :=
  (Dialect.ofName name).mapError Fault.failure

end Sql

def Command.compile (command : Command) (dialect : Sql.Dialect) (mode : Sql.ValueMode) :
    Except Failure Sql.Compiled :=
  command.statement.compile dialect mode

end SchemaClient
