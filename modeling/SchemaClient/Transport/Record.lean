import SchemaClient.Transport.Database
import SchemaClient.Transport.Remote
import SchemaClient.Transport.Service

/-!
# Records of what transports do

Transports, databases and servers that reach nothing outside: they answer by a given rule and write
down, in order, what they were asked to do. A server may have a transport behind it, so that a
command can go all the way from a client to a database in one record.
-/
namespace SchemaClient

/-- Something that a transport, a database or a server did. -/
inductive Event where
  | command (c : Command)
  | connect
  | begin
  | execute (sql : String) (params : Record)
  | close
  | commit
  | rollback
  | request (r : WebRequest)
  | answer (a : ServiceAnswer)

abbrev Recorded := StateM (List Event)

def Event.note (event : Event) : Recorded Unit := modify (· ++ [event])

/-- What a program gives, and the record it leaves. -/
def Recorded.outcome {α : Type} (program : Recorded α) : α × List Event := program.run []

/-- The transport that writes commands down and answers them by a rule. -/
def Transport.recording (answer : Command → Except Failure Value) : Transport Recorded where
  run command := do
    Event.note (.command command)
    pure (answer command)

namespace Engine

/-- A block in which every statement has the same answer. -/
def recordingBlock (answer : Except Failure (List Record)) (good bad : Event) : Block Recorded where
  execute sql params := do
    Event.note (.execute sql params)
    pure (answer.map fun rows => ⟨pure (.ok rows)⟩)
  leave wentWell := Event.note (if wentWell then good else bad)

/-- A database on which every statement has the same answer. -/
def recording (dialect : String) (answer : Except Failure (List Record)) : Engine Recorded where
  dialect := dialect
  connect := do
    Event.note .connect
    pure (.ok (recordingBlock answer .close .close))
  begin := do
    Event.note .begin
    pure (.ok (recordingBlock answer .commit .rollback))

end Engine

/-- A request as it arrives: the path is what follows the last slash of the address. -/
def WebRequest.arrived (request : WebRequest) : ServiceRequest where
  method := request.method
  route := String.ofList (request.url.toList.reverse.takeWhile (· ≠ '/')).reverse
  query := (request.params.getD []).map fun (name, text) => (name, .text text)
  body := (request.body.map fun json => Value.text json.compact).getD .null

namespace Server

/-- The transport to a server that gives every request the same response. -/
def recording (server : Server) (response : WebResponse) : Transport Recorded :=
  server.transport fun request => do
    Event.note (.request request)
    pure (.ok response)

/-- The transport to a server that hands all commands to another transport, and lets be known what
it is asked and what it answers. -/
def serving {m : Type → Type} [Monad m] (server : Server) (behind : Transport m)
    (asked : WebRequest → m Unit) (answered : ServiceAnswer → m Unit) : Transport m :=
  server.transport fun request => do
    asked request
    match ← behind.handle request.arrived with
    | .error failure => pure (.error failure)
    | .ok answer => do
      answered answer
      pure (.ok ⟨answer.status, answer.payload⟩)

/-- The transport to such a server that writes both down. -/
def loopback (server : Server) (behind : Transport Recorded) : Transport Recorded :=
  server.serving behind (fun request => Event.note (.request request))
    fun answer => Event.note (.answer answer)

end Server
end SchemaClient
