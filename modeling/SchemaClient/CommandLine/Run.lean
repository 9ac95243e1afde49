import SchemaClient.Catalog.Progress
import SchemaClient.Catalog.Query
import SchemaClient.CommandLine.Help
import SchemaClient.Json.Writer
import SchemaClient.Project.Connection
import SchemaClient.Project.Files
import SchemaClient.Schema.Interchange
import SchemaClient.Schema.Summary

/-!
# Runs

The program: it reads its command line and the project file, connects to the database, discovers the
schema and writes it to a file or prints it. Everything outside is reached through a `World`. The
connection is closed however the discovery ends; a problem is told in one line, and any other
failure is left to the caller.
-/
namespace SchemaClient.CommandLine

/-- A database that has been connected to: the rows of its catalog, by schema. -/
structure CatalogServer (m : Type → Type) where
  rows : String → RowSource
  close : m Unit

/-- The catalog of the schema that options name. -/
def CatalogServer.catalog {m : Type → Type} (server : CatalogServer m)
    (options : DiscoveryOptions) : Catalog :=
  (server.rows options.schemaName).catalog

/-- What a run needs of its surroundings. -/
structure World (m : Type → Type) where
  files : Files m
  environment : m (List (String × String))
  connect : DatabaseUrl → m (CatalogServer m)
  print : String → m Unit
  complain : String → m Unit

/-- How a run ends: after its command, or without one. -/
inductive Ending where
  | done (code : Nat)
  | exit (code : Nat)
  deriving DecidableEq

def Ending.code : Ending → Nat
  | done code | exit code => code

/-- The path that an option gives; an empty one is none. -/
def pathGiven (given : Option (Given String)) : Option String :=
  (given.bind (·.toOption)).filter (!·.isEmpty)

/-- The settings of the connection that options give. -/
def Settings.connectionValues (settings : Settings) : Record :=
  let given {α : Type} (name : String) (data : α → Value) (v : Option (Given α)) : Record :=
    (v.map fun v => (name, v.toValue data)).toList
  given "host" .text settings.host ++ given "port" .int settings.port ++
    given "name" .text settings.dbname ++ given "user" .text settings.user

variable {m : Type → Type} [Monad m]

/-- Tells a note to those who asked for notes. -/
def World.say (world : World m) (arguments : Arguments) (note : Note) : m Unit :=
  let verbosity := Verbosity.ofCount arguments.settings.verbosity
  if verbosity.hears note.level then world.complain (note.line ++ "\n") else pure ()

/-- The project file that was named, or else the nearest one; without any, nothing is configured. -/
def findProject (world : World m) (settings : Settings) (say : Note → m Unit) :
    ExceptT Failure m ProjectConfig := do
  match pathGiven settings.file with
  | some path => ExceptT.mk (world.files.loadProject path)
  | none =>
    match ← ExceptT.mk (world.files.findProject ".") with
    | none => pure .empty
    | some path => do
      say ⟨.info, "poststack.config", "using project file " ++ path⟩
      ExceptT.mk (world.files.loadProject path)

def Report.text : Report → Schema → String
  | summary, s => s.summary
  | json, s => (Schema.toJson s).pretty

/-- Writes a text to a file or prints it. -/
def deliver (world : World m) (say : Note → m Unit) (output : Option OutputName)
    (text : String) : ExceptT Failure m Unit := do
  match output with
  | none => world.print (text ++ "\n")
  | some (.halved codes) => throw (.unencodable (OutputName.halfRun codes))
  | some (.text path) => do
    ExceptT.mk (world.files.write (Path.ofText path).text (text ++ "\n"))
    say ⟨.info, "poststack.cli", "wrote " ++ path⟩

def report (world : World m) (say : Note → m Unit) (command : Report) (catalog : Catalog)
    (options : DiscoveryOptions) (output : Option OutputName) : ExceptT Failure m Unit := do
  let schema ← catalog.discoverTelling say options
  deliver world say output (command.text schema)

/-- What a run is to do once it knows its settings: which schema it discovers, where the report goes
and where the database is. -/
structure Plan where
  options : DiscoveryOptions
  output : Option OutputName
  url : DatabaseUrl
  deriving DecidableEq

/-- What is to be done with settings, a project file and an environment. -/
def plan (world : World m) (settings : Settings) (say : Note → m Unit) :
    ExceptT Failure m Plan := do
  let project ← findProject world settings say
  let options ← ExceptT.mk <| pure <|
    Failure.ofRejection (DiscoveryOptions.given project.udts (settings.schema.toValue .text))
  let output := ((pathGiven settings.output).map OutputName.text).or
    (project.output.filter (· ≠ .text ""))
  let environment ← world.environment
  let connection ← ExceptT.mk <| pure <|
    Failure.ofRejection (Connection.read environment settings.connectionValues)
  pure ⟨options, output, connection.url⟩

/-- Reports on a database that has been connected to, and closes the connection. -/
def inspect (world : World m) (say : Note → m Unit) (command : Report) (plan : Plan)
    (server : CatalogServer m) : ExceptT Failure m Unit := do
  let catalog := server.catalog plan.options
  let result ← ExceptT.lift (report world say command catalog plan.options plan.output).run
  server.close
  ExceptT.mk (pure result)

/-- Does what arguments ask for. -/
def perform (world : World m) (arguments : Arguments) : ExceptT Failure m Unit := do
  let say := world.say arguments
  let plan ← plan world arguments.settings say
  let server ← world.connect plan.url
  say ⟨.info, "poststack.cli", "connecting"⟩
  inspect world say arguments.command plan server

/-- The end of a run by what its command came to. -/
def conclude (world : World m) : Except Failure Unit → m (Except Failure Ending)
  | .ok () => pure (.ok (.done 0))
  | .error (.problem p) => do
    world.complain ("error: " ++ p.message ++ "\n")
    pure (.ok (.done 1))
  | .error failure => pure (.error failure)

def run (world : World m) (texts : List String) : m (Except Failure Ending) := do
  match Arguments.ofWords texts with
  | .error .help => do
    world.print help
    pure (.ok (.exit 0))
  | .error (.refused refusal) => do
    world.complain usage
    world.complain refusal.line
    pure (.ok (.exit 2))
  | .ok arguments => do conclude world (← (perform world arguments).run)

end SchemaClient.CommandLine
