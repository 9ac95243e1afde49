import SchemaClient.Project.Files

/-!
# Trees of files

A file system in memory. It holds files and directories by their absolute paths; whatever an entry
is in is a directory too. A path leads somewhere only if all that it goes through are directories
and its names are not too long.
-/
namespace SchemaClient

/-- Files with their contents and directories, which have none. The last of a path counts. -/
structure FileTree where
  entries : List (Path × Option (List UInt8))

namespace FileTree

def isDirectory (tree : FileTree) (path : Path) : Bool :=
  path.parts.isEmpty ||
    tree.entries.any fun (other, content) =>
      (other == path && content.isNone) ||
        (path.parts.isPrefixOf other.parts && path.parts.length < other.parts.length)

def content? (tree : FileTree) (path : Path) : Option (List UInt8) :=
  (tree.entries.reverse.lookup path).bind id

/-- The most bytes that a name of an entry and a path have. -/
def nameLimit : Nat := 255
def pathLimit : Nat := 4095

inductive PathFault where
  | missing
  | notDirectory
  | tooLong
  | zero
  deriving DecidableEq

/-- The failure to use the path of a text. -/
def PathFault.failure (text : String) : PathFault → Failure
  | missing => .fileMissing
  | notDirectory => .notDirectory text
  | tooLong => .longPath text
  | zero => .zeroInPath

/-- The place that names lead to, one after the other. All but the last are of directories. -/
def walk (tree : FileTree) (here : Path) : List String → Except PathFault Path
  | [] => .ok here
  | name :: rest =>
    if !tree.isDirectory here then
      .error (if (tree.content? here).isSome then .notDirectory else .missing)
    else if nameLimit < name.utf8ByteSize then .error .tooLong
    else tree.walk (here.child name).resolved rest

/-- The place in the tree that a path leads to from a directory. -/
def place (tree : FileTree) (directory : Path) (text : String) : Except PathFault Path :=
  let path := Path.ofText text
  let start : Path := if path.isAbsolute then ⟨path.root, []⟩ else directory
  if text.toList.contains '\x00' then .error .zero
  else if pathLimit < text.utf8ByteSize then .error .tooLong
  else tree.walk start path.parts

def read (tree : FileTree) (directory : Path) (text : String) : Except Failure (List UInt8) :=
  match tree.place directory text with
  | .error fault => .error (fault.failure text)
  | .ok place =>
    match tree.content? place with
    | some content => .ok content
    | none => .error (if tree.isDirectory place then .fileIsDirectory else .fileMissing)

/-- Whether a path leads to a file. A path that no file can have is a failure. -/
def isFile (tree : FileTree) (directory : Path) (text : String) : Except Failure Bool :=
  match tree.place directory text with
  | .error .missing | .error .notDirectory => .ok false
  | .error fault => .error (fault.failure text)
  | .ok place => .ok (tree.content? place).isSome

def write (tree : FileTree) (directory : Path) (text content : String) :
    Except Failure FileTree :=
  match tree.place directory text with
  | .error fault => .error (fault.failure text)
  | .ok place =>
    if tree.isDirectory place then .error .fileIsDirectory
    else .ok ⟨tree.entries ++ [(place, some content.toUTF8.toList)]⟩

/-- The operations on a tree that a program keeps as a state. -/
def files {m : Type → Type} [Monad m] [MonadStateOf FileTree m] (directory : Path) : Files m where
  workingDirectory := pure directory.text
  isFile path := do
    let tree : FileTree ← get
    pure (tree.isFile directory path)
  read path := do
    let tree : FileTree ← get
    pure (tree.read directory path)
  write path text := do
    let tree : FileTree ← get
    match tree.write directory path text with
    | .error failure => pure (.error failure)
    | .ok after => do
      set after
      pure (.ok ())

end FileTree
end SchemaClient
