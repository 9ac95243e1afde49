import SchemaClient.Command.Interchange
import SchemaClient.Text.Case
import SchemaClient.Transport.Basic
import SchemaClient.Transport.Route

/-!
# Serving commands

The server's side: a request is turned into a command, which a transport carries out. Requests that
have no route, no payload or a payload that is no command of the route never reach the transport.
-/
namespace SchemaClient

/-- A request: a method in any case, a path, parameters and a body. Their content is text or bytes,
if the request is well made. -/
structure ServiceRequest where
  method : String
  route : String
  query : Record
  body : Value

/-- An answer: a status, and data to be sent as JSON. -/
structure ServiceAnswer where
  status : Nat
  payload : Value

namespace ServiceAnswer

def ofParts (status : Nat) (error message : String) (details : Record) : ServiceAnswer :=
  ⟨status, .record
    [("error", .text error), ("message", .text message), ("details", .record details)]⟩

def notFound (method route : String) : ServiceAnswer :=
  ofParts 404 "NOT_FOUND" ("No route for " ++ method ++ " " ++ route ++ ".") []

def badRequest (message : String) (details : Record) : ServiceAnswer :=
  ofParts 400 "INVALID_REQUEST" message details

/-- The answer to a request without a payload. -/
def noPayload (operation : Operation) : ServiceAnswer :=
  match operation with
  | .select => badRequest "Missing query parameter 'query'." []
  | _ => badRequest "Missing request body." []

/-- The data of an issue as they are sent. Only content that is no JSON text at all can have values
that JSON does not have. -/
def issueReport (source : Validation.Source) (issue : Validation.Issue) : Record :=
  let input :=
    match issue.fault with
    | .notJsonContent => (issue.input.toJson?.map Json.toValue).getD issue.input
    | _ => issue.input
  Validation.Issue.fullReport source { issue with input := input }

/-- The bytes that an answer would have to show though they encode no text. -/
def unsendable? (r : Validation.Rejection) : Option Text.EncodingFault :=
  r.issues.findSome? fun issue =>
    match issue.input with
    | .bytes content => Text.encodingFault? content
    | _ => none

def rejected (operation : Operation) (r : Validation.Rejection) : Except Failure ServiceAnswer :=
  match unsendable? r with
  | some fault => .error (.unsendable fault)
  | none =>
    let items := r.issues.map fun issue => Value.record (issueReport r.source issue)
    .ok (badRequest ("Invalid " ++ operation.name ++ " payload.") [("errors", .list items)])

/-- The answer that a transport's result is sent as. Only problems become answers; other failures
go on. -/
def ofResult : Except Failure Value → Except Failure ServiceAnswer
  | .ok v => .ok ⟨200, v⟩
  | .error (.problem p) => .ok ⟨400, p.response⟩
  | .error failure => .error failure

end ServiceAnswer

namespace ServiceRequest

/-- The path without slashes around it. -/
def path (request : ServiceRequest) : String :=
  String.ofList (Text.trimmed (· = '/') request.route.toList)

def verb (request : ServiceRequest) : String := Text.upper request.method

def operation? (request : ServiceRequest) : Option Operation :=
  Operation.ofRoute? request.verb request.path

/-- The content that a request for an operation has: a parameter for a selection, the body for
everything else. Empty content is none. -/
def payload? (request : ServiceRequest) (operation : Operation) : Option Value :=
  let payload :=
    match operation with
    | .select => (request.query.lookup "query").getD .null
    | _ => request.body
  if payload.isNothing then none else some payload

end ServiceRequest

namespace Transport

variable {m : Type → Type} [Monad m]

/-- Answers a request. -/
def handle (transport : Transport m) (request : ServiceRequest) :
    m (Except Failure ServiceAnswer) :=
  match request.operation? with
  | none => pure (.ok (.notFound request.verb request.path))
  | some operation =>
    match request.payload? operation with
    | none => pure (.ok (.noPayload operation))
    | some payload =>
      match operation.model.readContent payload with
      | .error r => pure (ServiceAnswer.rejected operation r)
      | .ok command => do
        let result ← transport.run command
        pure (ServiceAnswer.ofResult result)

end Transport
end SchemaClient
