import SchemaClient.Command.Interchange
import SchemaClient.Json.Writer
import SchemaClient.Transport.Basic
import SchemaClient.Transport.Route

/-!
# Commands to a server

A command goes to a server as JSON: a selection as text among the parameters of the address, any
other command as the body of the request. The answer of the server is the result, unless its status
stands for an error.
-/
namespace SchemaClient

structure WebRequest where
  method : String
  url : String
  params : Option (List (String × String))
  body : Option Json
  timeout : Value

structure WebResponse where
  status : Int
  payload : Value

/-- A server, and how long to wait for it. -/
structure Server where
  baseUrl : String
  timeout : Value

namespace Server

/-- The seconds to wait unless another time is given. -/
def defaultTimeout : Value := .int 30

def contentType : String := "application/json"

/-- The server at an address, of which slashes at the end do not count. -/
def atUrl (url : String) (timeout : Value) : Server where
  baseUrl := String.ofList (url.toList.reverse.dropWhile (· = '/')).reverse
  timeout := timeout

/-- The request that carries the data of a command. -/
def request (server : Server) (operation : Operation) (json : Json) : WebRequest where
  method := operation.method
  url := server.baseUrl ++ "/" ++ operation.name
  params :=
    match operation with
    | .select => some [("query", json.compact)]
    | _ => none
  body :=
    match operation with
    | .select => none
    | _ => some json
  timeout := server.timeout

/-- What the answer of a server means. The statuses of errors are those of clients and of
servers. -/
def outcome (response : WebResponse) : Except Failure Value :=
  if 400 ≤ response.status ∧ response.status < 600 then .error (.badStatus response.status)
  else .ok response.payload

variable {m : Type → Type} [Monad m]

/-- The transport that sends commands to a server. -/
def transport (server : Server) (send : WebRequest → m (Except Failure WebResponse)) :
    Transport m where
  run command :=
    match (Value.record command.sent).toJson? with
    | none => pure (.error .undecodable)
    | some json => do
      match ← send (server.request command.operation json) with
      | .error failure => pure (.error failure)
      | .ok response => pure (outcome response)

end Server
end SchemaClient
