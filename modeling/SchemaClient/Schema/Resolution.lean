import SchemaClient.Problem
import SchemaClient.Schema.Cycle

/-!
# Resolution

Every name that a draft leaves to be looked up is looked up among the draft's composite types and
then among its enumerations. The first slot whose name is neither stops the resolution; after that
the composite types must not contain each other.
-/
namespace SchemaClient

/-- The names that references are looked up among. -/
structure KnownNames where
  composites : List String
  enums : List String

def Draft.knownNames (draft : Draft) : KnownNames :=
  ⟨draft.types.map (·.name), draft.enums.map (·.name)⟩

/-- What a name refers to; a composite type comes before an enumeration. -/
def KnownNames.find? (names : KnownNames) (name : String) : Option Target :=
  if names.composites.contains name then some (.composite name)
  else if names.enums.contains name then some (.enum name)
  else none

/-- The type with its name looked up, and whether it had one to look up; or the name that is not
known. -/
def DraftType.resolve (names : KnownNames) : DraftType → Except String (DataType × Bool)
  | .boolean => .ok (.boolean, false)
  | .number => .ok (.number, false)
  | .string => .ok (.string, false)
  | .date => .ok (.date, false)
  | .array element => do
    let (element, changed) ← DraftType.resolve names element
    pure (.array element, changed)
  | .reference (.known target) => .ok (.reference target, false)
  | .reference (.unresolved name) =>
    match names.find? name with
    | some target => .ok (.reference target, true)
    | none => .error name

/-- Steps of a resolution, with the number of slots so far whose names were looked up. -/
abbrev Counting := StateT Nat (Except Problem)

/-- The type of a slot, which is counted if its name was looked up. A name that is not known is
reported with the slot. -/
def Slot.resolve (names : KnownNames) (slot : Slot DraftType) : Counting DataType :=
  match slot.type.resolve names with
  | .ok (type, changed) => do
    if changed then modify (· + 1)
    pure type
  | .error name =>
    throw (.unresolvedReference name (some slot.owner) (some slot.name))

/-- A resolved schema and the number of slots whose names were looked up. -/
structure Resolution where
  schema : Schema
  resolved : Nat

/-- The draft with all names looked up. -/
def Draft.resolve (draft : Draft) : Except Problem Resolution := do
  let (schema, resolved) ← (draft.retype (Slot.resolve draft.knownNames)).run 0
  match Schema.cycle? schema with
  | some cycle => .error (.cyclicReference cycle)
  | none => .ok ⟨schema, resolved⟩

end SchemaClient
