import SchemaClient.Client.Chain
import SchemaClient.Transport.Basic

/-!
# Clients

A client offers the tables and routines of a schema by name. Of tables with one name the last is
meant, of routines the first. As members of the client, tables come before routines, and its own
members before both.
-/
namespace SchemaClient

/-- A schema and the transport that its commands go to. -/
structure Client (m : Type → Type) where
  schema : Schema
  transport : Transport m

/-- What a name leads to. -/
inductive Offer where
  /-- A member of the client itself. -/
  | own
  | table (t : Table DataType)
  | function (f : Routine DataType)

def Table.shown {τ : Type} (t : Table τ) : String := "TableApi(" ++ Text.quoted t.name ++ ")"

/-- The line that tells how a routine is called. -/
def Routine.usage {τ : Type} (f : Routine τ) : String :=
  "Call " ++ f.name ++ "(" ++ Text.joined ", " (f.parameters.map (·.name)) ++ ")."

namespace Client

variable {m : Type → Type} [Monad m]

def ownMembers : List String := ["schema", "transport", "table", "function"]

/-- The members for internal use that can be asked for too: the client's own, and those that
everything has. -/
def hiddenMembers : List String :=
  ["_tables", "_functions", "__class__", "__delattr__", "__dict__", "__dir__", "__doc__", "__eq__",
    "__format__", "__ge__", "__getattr__", "__getattribute__", "__getstate__", "__gt__",
    "__hash__", "__init__", "__init_subclass__", "__le__", "__lt__", "__module__", "__ne__",
    "__new__", "__reduce__", "__reduce_ex__", "__repr__", "__setattr__", "__sizeof__", "__str__",
    "__subclasshook__", "__weakref__"]

/-- Whether a name is kept for internal use. -/
def isHidden (name : String) : Bool := name.toList.head? = some '_'

/-- The tables by name. Of those with one name the last is kept. -/
def tables (client : Client m) : List (String × Table DataType) :=
  Entries.ofList (client.schema.tables.map fun t => (t.name, t))

/-- The routines by name. Of those with one name the first is kept. -/
def functions (client : Client m) : List (String × Routine DataType) :=
  Entries.ofFirst (client.schema.functions.map fun f => (f.name, f))

def table (client : Client m) (name : String) : Except Failure (Table DataType) :=
  match client.tables.lookup name with
  | some t => .ok t
  | none => .error (.unknownName name)

def function (client : Client m) (name : String) : Except Failure (Routine DataType) :=
  match client.functions.lookup name with
  | some f => .ok f
  | none => .error (.unknownName name)

def member (client : Client m) (name : String) : Except Failure Offer :=
  if ownMembers.contains name || hiddenMembers.contains name then .ok .own
  else if isHidden name then .error (.unknownMember name)
  else
    match client.table name, client.function name with
    | .ok t, _ => .ok (.table t)
    | .error _, .ok f => .ok (.function f)
    | .error _, .error _ => .error (.unknownMember name)

/-- The names of the members, sorted, without hidden ones. -/
def memberNames (client : Client m) : List String :=
  let names := ownMembers ++ Entries.names client.tables ++ Entries.names client.functions
  ((names.filter fun name => !isHidden name).eraseDups).mergeSort fun a b => a ≤ b

/-- Calls a routine with arguments in order. -/
def call (client : Client m) (routine : Routine DataType) (arguments : List Value) :
    m (Except Failure Value) :=
  client.transport.run (.call ⟨routine.name, some arguments⟩)

/-- Calls what a name leads to with arguments in order. Only routines can be called with values. -/
def callOffer (client : Client m) (offer : Offer) (arguments : List Value) :
    m (Except Failure Value) :=
  match offer with
  | .function f => client.call f arguments
  | .table _ => pure (.error (.notCallable "TableApi"))
  | .own => pure (.error (.notCallable "Schema"))

/-- Ends a chain by the call of a name, which carries out the command. -/
def finish (client : Client m) (chain : Chain) (call : String) : m (Except Failure Value) :=
  if Chain.lastCall chain.command.operation = call then client.transport.run chain.command
  else pure (.error (chain.noSuchCall call))

end Client
end SchemaClient
