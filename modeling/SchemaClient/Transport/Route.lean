import SchemaClient.Command.Basic

/-!
# Routes

Under which method and path a server takes the commands of an operation.
-/
namespace SchemaClient.Operation

/-- The method of the requests for an operation. -/
def method : Operation → String
  | select => "GET"
  | insert => "POST"
  | update => "PATCH"
  | delete => "DELETE"
  | call => "POST"

/-- The operation of a method and a path. -/
def ofRoute? (method route : String) : Option Operation :=
  all.find? fun operation => operation.method == method && operation.name == route

end SchemaClient.Operation
