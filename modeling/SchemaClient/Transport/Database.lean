import SchemaClient.Sql.Render
import SchemaClient.Transport.Basic

/-!
# Commands on a database

The statement of a command runs in a block of its own: a plain connection for a selection and a
transaction for everything else. A transaction is committed if the statement ran and its rows could
be read, and taken back otherwise. A command is compiled before its block is opened, only a call of
a routine is compiled within.
-/
namespace SchemaClient

/-- The rows of a statement that has run. -/
structure ResultRows (m : Type → Type) where
  read : m (Except Failure (List Record))

/-- A block in which statements run. Leaving it, one says whether all went well. -/
structure Block (m : Type → Type) where
  execute : String → Record → m (Except Failure (ResultRows m))
  leave : Bool → m Unit

/-- A database that can be connected to. -/
structure Engine (m : Type → Type) where
  dialect : String
  connect : m (Except Failure (Block m))
  begin : m (Except Failure (Block m))

/-- Whether a command has rows to read: a selection and a call always, another one if it returns
columns. -/
def Command.returnsRows : Command → Bool
  | select _ | call _ => true
  | insert c => !(c.returning.getD []).isEmpty
  | update c => !(c.returning.getD []).isEmpty
  | delete c => !(c.returning.getD []).isEmpty

namespace Engine

variable {m : Type → Type} [Monad m]

def block (engine : Engine m) : Command → m (Except Failure (Block m))
  | .select _ => engine.connect
  | _ => engine.begin

/-- Runs a statement and reads its rows if it has any. -/
def runIn (block : Block m) (compiled : Sql.Compiled) (returnsRows : Bool) :
    m (Except Failure Value) := do
  match ← block.execute compiled.sql compiled.params with
  | .error failure => pure (.error failure)
  | .ok rows =>
    if returnsRows then do
      match ← rows.read with
      | .error failure => pure (.error failure)
      | .ok records => pure (.ok (.list (records.map .record)))
    else pure (.ok (.list []))

/-- Does something in a block of a command's own and leaves the block. -/
def inBlock (engine : Engine m) (command : Command)
    (act : Block m → m (Except Failure Value)) : m (Except Failure Value) := do
  match ← engine.block command with
  | .error failure => pure (.error failure)
  | .ok block => do
    let result ← act block
    block.leave result.isOk
    pure result

/-- Runs a compiled command in a block of its own. -/
def execute (engine : Engine m) (command : Command) (compiled : Sql.Compiled) :
    m (Except Failure Value) :=
  engine.inBlock command fun block => runIn block compiled command.returnsRows

/-- Compiles a command and goes on with its statement. -/
def compiling (command : Command) (dialect : Sql.Dialect)
    (next : Sql.Compiled → m (Except Failure Value)) : m (Except Failure Value) :=
  match command.compile dialect .bound with
  | .error failure => pure (.error failure)
  | .ok compiled => next compiled

/-- The transport that runs commands on a database in a dialect. -/
def transportIn (engine : Engine m) (dialect : Sql.Dialect) : Transport m where
  run command :=
    match command with
    | .call _ =>
      engine.inBlock command fun block =>
        compiling command dialect fun compiled => runIn block compiled command.returnsRows
    | _ => compiling command dialect (engine.execute command)

/-- The transport of a database: in the dialect given, or else in that of the database. -/
def transport (engine : Engine m) (dialect : Option Sql.Dialect) :
    Except Failure (Transport m) :=
  match dialect with
  | some d => .ok (engine.transportIn d)
  | none => (Sql.Dialect.find engine.dialect).map engine.transportIn

end Engine
end SchemaClient
