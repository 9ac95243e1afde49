import SchemaClient.Json.Reader
import SchemaClient.Problem
import SchemaClient.Value.Key
import SchemaClient.Value.WholePart

/-!
# Failures

All the ways in which an operation of this library can fail: with a problem of its own, because data
are of no model, because it was called in a way it does not allow, or because something outside
failed.
-/
namespace SchemaClient

inductive Failure where
  | problem (p : Problem)
  | rejected (r : Validation.Rejection)
  /-- Nothing has this name. -/
  | unknownName (name : String)
  /-- The client has no member of this name, and neither a table nor a routine has it. -/
  | unknownMember (name : String)
  /-- What is of this kind has no call of this name. -/
  | unknownCall (kind name : String)
  /-- What is of this kind cannot be called. -/
  | notCallable (kind : String)
  /-- The cycle of a problem has no type in it. -/
  | emptyCycle
  /-- A single name was given where a list of names belongs. -/
  | singleName (name : String)
  /-- Rows were given beside a row that stands for itself. -/
  | rowsBesideRow
  /-- A value of this kind was given where a collection belongs. -/
  | notCollection (kind : String)
  /-- A mapping was to be made of entries of which one, at this position, is no collection. -/
  | notEntry (position : Nat)
  /-- A mapping was to be made of entries of which one has not two parts but this many. -/
  | entryLength (position length : Nat)
  | notKey (fault : KeyFault)
  /-- A value cannot be cut to a whole number. -/
  | uncut (fault : CutFault)
  /-- The connection to a database or a server failed. -/
  | disconnected (message : String)
  /-- A server answered with a status that stands for an error. -/
  | badStatus (status : Int)
  /-- Bytes that encode no text. -/
  | undecodable
  /-- Bytes that encode no text but would have to be sent as one. -/
  | unsendable (fault : Text.EncodingFault)
  /-- A text beyond the limits within which texts are read. -/
  | unread (fault : Json.Fault)
  | fileMissing
  | fileIsDirectory
  /-- The path of a file goes through another file. -/
  | notDirectory (path : String)
  /-- The path of a file, or a name in it, is too long. -/
  | longPath (path : String)
  | zeroInPath
  /-- The path of a file holds halves of surrogate pairs. -/
  | unencodable (run : Text.HalfRun)
  deriving Inhabited

namespace Failure

instance : Coe Problem Failure where
  coe := problem

/-- What a person is told, where there are words for a failure. -/
def message? : Failure → Option String
  | problem p => some p.message
  | unknownName name => some (Text.quoted name)
  | unknownMember name =>
    some (if name.toList.head? = some '_' then name
      else "Schema has no table or function named '" ++ name ++ "'.")
  | unknownCall kind name => some ("'" ++ kind ++ "' object has no attribute '" ++ name ++ "'")
  | notCallable kind => some ("'" ++ kind ++ "' object is not callable")
  | emptyCycle => some "list index out of range"
  | singleName name =>
    some ("columns must be a list of names, not the string " ++ Text.quoted name)
  | rowsBesideRow => some "rows must not be given with a single row mapping"
  | notCollection kind => some ("'" ++ kind ++ "' object is not iterable")
  | notEntry position =>
    some ("cannot convert dictionary update sequence element #" ++ Nat.repr position ++
      " to a sequence")
  | entryLength position length =>
    some ("dictionary update sequence element #" ++ Nat.repr position ++ " has length " ++
      Nat.repr length ++ "; 2 is required")
  | notKey fault => some fault.message
  | uncut fault => some fault.message
  | disconnected message => some message
  | badStatus status => some (toString status ++ " error")
  | unread fault => some fault.message
  | unsendable fault => some ("Error serializing ValidationError to JSON: " ++ fault.message)
  | notDirectory path => some ("[Errno 20] Not a directory: " ++ Text.quoted path)
  | longPath path => some ("[Errno 36] File name too long: " ++ Text.quoted path)
  | zeroInPath => some "embedded null byte"
  | unencodable run => some run.message
  | rejected _ | undecodable | fileMissing | fileIsDirectory => none

/-- The result of a step whose only failures are problems. -/
def ofProblem {α : Type} : Except Problem α → Except Failure α
  | .ok a => .ok a
  | .error p => .error (.problem p)

/-- The result of reading data of a model. -/
def ofRejection {α : Type} : Except Validation.Rejection α → Except Failure α
  | .ok a => .ok a
  | .error r => .error (.rejected r)

end Failure

/-- A problem that can be told: a cycle has a type in it. -/
def Problem.checked (p : Problem) : Except Failure Problem :=
  match p with
  | .cyclicReference [] => .error .emptyCycle
  | p => .ok p

end SchemaClient
