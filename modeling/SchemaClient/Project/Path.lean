import SchemaClient.Text.Quoted

/-!
# Paths

Paths as a root and names. Names that are empty or a single dot say nothing and are dropped when a
path is read.
-/
namespace SchemaClient

/-- A path. Its root is empty, one slash, or two. -/
structure Path where
  root : String
  parts : List String
  deriving DecidableEq

namespace Path

/-- The root that a text starts with: two slashes count only if no third follows. -/
def rootOf : List Char → String
  | '/' :: '/' :: '/' :: _ => "/"
  | '/' :: '/' :: _ => "//"
  | '/' :: _ => "/"
  | _ => ""

def ofText (text : String) : Path where
  root := rootOf text.toList
  parts := ((text.splitOn "/").filter fun part => !part.isEmpty && part ≠ ".")

def text (path : Path) : String :=
  let names := Text.joined "/" path.parts
  if path.root.isEmpty && path.parts.isEmpty then "." else path.root ++ names

def isAbsolute (path : Path) : Bool := !path.root.isEmpty

/-- A path as it is meant inside a directory. -/
def inside (directory path : Path) : Path :=
  if path.isAbsolute then path else ⟨directory.root, directory.parts ++ path.parts⟩

/-- The names, the last one first, after one more: two dots take back the name before them. -/
def step (names : List String) (name : String) : List String :=
  if name = ".." then names.drop 1 else name :: names

/-- An absolute path without two dots in it. -/
def resolved (path : Path) : Path :=
  ⟨path.root, (path.parts.foldl step []).reverse⟩

/-- The lists that a list starts with, the longest first. -/
def leading : List String → List (List String)
  | [] => [[]]
  | name :: rest => (leading rest).map (name :: ·) ++ [[]]

/-- A path and all that it is in, up to the root. -/
def ancestors (path : Path) : List Path := (leading path.parts).map fun parts => ⟨path.root, parts⟩

def child (directory : Path) (name : String) : Path :=
  ⟨directory.root, directory.parts ++ [name]⟩

end Path
end SchemaClient
