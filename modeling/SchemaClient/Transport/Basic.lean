import SchemaClient.Command.Basic
import SchemaClient.Failure

/-!
# Transports

A transport carries commands out, with whatever effects that has. One that has no operation of some
kind says so.
-/
namespace SchemaClient

/-- What carries commands out. -/
structure Transport (m : Type → Type) where
  run : Command → m (Except Failure Value)

namespace Transport

variable {m : Type → Type} [Monad m]

/-- The failure of an operation that a transport does not have. -/
def notImplemented (name : String) (operation : Operation) : Failure :=
  .problem (.notImplemented operation.name (some name))

/-- The transport that has no operation, under its name. -/
def unsupported (name : String) : Transport m where
  run command := pure (.error (notImplemented name command.operation))

/-- A transport with only some of its operations, under a name. -/
def restrictedTo (operations : List Operation) (name : String) (transport : Transport m) :
    Transport m where
  run command :=
    if operations.contains command.operation then transport.run command
    else (unsupported name).run command

end Transport
end SchemaClient
