import SchemaClient.Catalog.Discovery
import SchemaClient.Note

/-!
# Discovery with notes

The discovery of a schema, stage by stage, with notes of what is being looked for, of what was found
and of what each name was found to refer to. The notes are all that this adds to a discovery.
-/
namespace SchemaClient

namespace Slot

/-- The note of what the name of a slot refers to, if it has one that is known. -/
def lookupNote? (names : KnownNames) (slot : Slot DraftType) : Option Note :=
  match slot.type.target? with
  | some (.unresolved name) =>
    (names.find? name).map fun target =>
      let kind :=
        match target with
        | .enum _ => "enum"
        | .composite _ => "composite"
      ⟨.debug, "poststack.inspect.resolver",
        slot.owner ++ "." ++ slot.name ++ " -> " ++ kind ++ " " ++ name⟩
  | _ => none

end Slot

namespace Draft

/-- The slots up to the first whose name is not known. -/
def visitedSlots (draft : Draft) : List (Slot DraftType) :=
  draft.slots.takeWhile fun slot => (slot.type.resolve draft.knownNames).isOk

/-- The notes of a resolution: of every name that was looked up, and, if nothing failed, of their
number. -/
def resolutionNotes (draft : Draft) : List Note :=
  (visitedSlots draft).filterMap (Slot.lookupNote? draft.knownNames) ++
    match Draft.resolve draft with
    | .ok r =>
      [⟨.debug, "poststack.inspect.resolver",
        "resolved " ++ Nat.repr r.resolved ++ " forward references"⟩]
    | .error _ => []

end Draft

namespace Catalog

variable {m : Type → Type} [Monad m] {α : Type}

def discoveryNote (text : String) : Note := ⟨.info, "poststack.inspect.discover", text⟩

/-- A stage of a discovery, with notes before and after it. -/
def stage (say : Note → m Unit) (things : String) (found : Except Failure (List α)) :
    ExceptT Failure m (List α) := do
  say (discoveryNote ("discovering " ++ things))
  let items ← ExceptT.mk (pure found)
  say (discoveryNote ("found " ++ Nat.repr items.length ++ " " ++ things))
  pure items

/-- The schema that a catalog describes, with notes. -/
def discoverTelling (say : Note → m Unit) (catalog : Catalog) (options : DiscoveryOptions) :
    ExceptT Failure m Schema := do
  let enums ← stage say "enum types" catalog.enumerations
  let types ← stage say "composite types" (catalog.compositeTypes options.udts)
  let tables ← stage say "tables" (catalog.tables options.udts)
  let functions ← stage say "functions" (catalog.functions options.udts)
  let draft : Draft := ⟨enums, types, tables, functions⟩
  say (discoveryNote "resolving types")
  (Draft.resolutionNotes draft).forM fun note => say note
  let resolution ← ExceptT.mk (pure (Failure.ofProblem (Draft.resolve draft)))
  say (discoveryNote ("resolved " ++ Nat.repr resolution.resolved ++ " attribute types"))
  pure resolution.schema

end Catalog
end SchemaClient
