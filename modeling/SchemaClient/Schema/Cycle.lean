import SchemaClient.Entries
import SchemaClient.Schema.Basic

/-!
# Cycles among composite types

A composite type refers to those its attributes have, through any number of arrays. A depth-first
walk finds a way along these references that comes back to where it was, if there is one.
-/
namespace SchemaClient

/-- The composite types a type refers to: one or none. -/
def DataType.composites (type : DataType) : List String :=
  match type.target? with
  | some (.composite name) => [name]
  | _ => []

/-- The composite types that the attributes of a composite type refer to, in order. -/
def Composite.mentions (t : Composite DataType) : List String :=
  t.attributes.flatMap fun a => DataType.composites a.type

namespace Cycle

/-- The names of things with the names they refer to. -/
abbrev Graph := List (String × List String)

/-- The names a name refers to; none if the graph does not have it. -/
def Graph.next (graph : Graph) (name : String) : List String := (graph.lookup name).getD []

/-- The references among composite types. Of types with one name the last counts. -/
def Graph.ofTypes (types : List (Composite DataType)) : Graph :=
  Entries.ofList (types.map fun t => (t.name, t.mentions))

/-- The way that comes back to `name`, when `path`, the latest name first, leads to it again. -/
def closing (path : List String) (name : String) : List String :=
  name :: ((path.takeWhile (· ≠ name)).reverse ++ [name])

/-- Goes on from a name that `path` leads to. The names from which no cycle can be reached are kept
in `done`; the error is a cycle. `depth` bounds the length of the path. -/
def visit (graph : Graph) : Nat → List String → List String → String →
    Except (List String) (List String)
  | 0, _, done, _ => .ok done
  | depth + 1, path, done, name =>
    if done.contains name then .ok done
    else if path.contains name then .error (closing path name)
    else
      ((graph.next name).foldlM (visit graph depth (name :: path)) done).map (name :: ·)

/-- A cycle that is reached from the first name, in order, from which one is reached. A path without
a repetition has at most one name that the graph does not have. -/
def Graph.cycle? (graph : Graph) : Option (List String) :=
  match (Entries.names graph).foldlM (visit graph (graph.length + 2) []) [] with
  | .ok _ => none
  | .error cycle => some cycle

end Cycle

/-- A cycle among the composite types of a schema. -/
def Schema.cycle? (s : Schema) : Option (List String) :=
  (Cycle.Graph.ofTypes s.types).cycle?

end SchemaClient
