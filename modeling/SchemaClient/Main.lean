import SchemaClient.Catalog.Content
import SchemaClient.CommandLine.Run
import SchemaClient.Json.Reader

/-!
# The program

The outermost layer: files, the environment and the streams as they really are. No connection to a
server is made; the rows of the catalog come as JSON from standard input, and the address of the
database is not looked at.
-/
namespace SchemaClient.CommandLine

/-- What a failure of the system is called here. -/
def systemFailure : IO.Error → Failure
  | .noFileOrDirectory .. => .fileMissing
  | .inappropriateType .. => .fileIsDirectory
  | e => .disconnected (toString e)

/-- What a person is told about a failure that the program has no line for. -/
def lastWords : Failure → String
  | .rejected r => r.summary
  | .undecodable => "a file is not UTF-8 text"
  | .fileMissing => "no such file or directory"
  | .fileIsDirectory => "a directory stands where a file should be"
  | failure => failure.message?.getD ""

/-- The result of an action that may fail. -/
def attempt {α : Type} (action : IO α) : IO (Except Failure α) := do
  try
    pure (.ok (← action))
  catch e =>
    pure (.error (systemFailure e))

def systemFiles : Files IO where
  workingDirectory := do pure ((← IO.getEnv "PWD").getD "/")
  isFile path := do pure (.ok (← attempt (IO.FS.readBinFile path)).isOk)
  read path := do pure ((← attempt (IO.FS.readBinFile path)).map ByteArray.toList)
  write path text := attempt (IO.FS.writeFile path text)

/-- The variables of the environment that settings may come from, in upper and in lower case. -/
def systemVariables : IO (List (String × String)) := do
  let names := Connection.settings.flatMap fun setting => setting.variableNames
  let both := names ++ names.map String.toUpper
  let found ← both.mapM fun name => do
    pure ((← IO.getEnv name).map fun text => (name, text))
  pure (found.filterMap id)

def systemCatalog : IO CatalogContent := do
  let text ← (← IO.getStdin).readToEnd
  match Json.readAny text with
  | .error _ => pure (.ofRecord [])
  | .ok json =>
    match json.toValue with
    | .record entries => pure (.ofRecord entries)
    | _ => pure (.ofRecord [])

def systemWorld : World IO where
  files := systemFiles
  environment := systemVariables
  connect _ := do
    let content ← systemCatalog
    pure { rows := content.source, close := pure () }
  print text := do (← IO.getStdout).putStr text
  complain text := do (← IO.getStderr).putStr text

end SchemaClient.CommandLine

open SchemaClient SchemaClient.CommandLine in
/-- Runs the command line; a failure that is none of the program's own ends it with a status of its
own. -/
def main (arguments : List String) : IO UInt32 := do
  match ← run systemWorld arguments with
  | .ok ending => pure (UInt32.ofNat ending.code)
  | .error failure => do
    systemWorld.complain (lastWords failure ++ "\n")
    pure 1
