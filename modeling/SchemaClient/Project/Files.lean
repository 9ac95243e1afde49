import SchemaClient.Project.Config
import SchemaClient.Project.Path

/-!
# Files

What is needed of a file system, and the search for a project file from a directory up to the root.
-/
namespace SchemaClient

structure Files (m : Type → Type) where
  workingDirectory : m String
  isFile : String → m (Except Failure Bool)
  read : String → m (Except Failure (List UInt8))
  write : String → String → m (Except Failure Unit)

namespace Files

variable {m : Type → Type} [Monad m]

/-- The configuration in the project file of a path. -/
def loadProject (files : Files m) (path : String) : m (Except Failure ProjectConfig) := do
  let name := (Path.ofText path).text
  match ← files.read name with
  | .error failure => pure (.error failure)
  | .ok content => pure (ProjectConfig.ofBytes name content)

/-- The first of several paths that is a file. -/
def firstFile (files : Files m) : List String → m (Except Failure (Option String))
  | [] => pure (.ok none)
  | path :: rest => do
    match ← files.isFile path with
    | .error failure => pure (.error failure)
    | .ok true => pure (.ok (some path))
    | .ok false => files.firstFile rest

/-- The places of a project file for a directory: in it and in all that it is in. -/
def projectPlaces (workingDirectory start : String) : List String :=
  let directory := (Path.ofText workingDirectory).inside (Path.ofText start)
  directory.resolved.ancestors.map fun d => (d.child ProjectConfig.fileName).text

def findProject (files : Files m) (start : String) : m (Except Failure (Option String)) := do
  files.firstFile (projectPlaces (← files.workingDirectory) start)

end Files
end SchemaClient
