import SchemaClient.Number.Binary64
import SchemaClient.Schema.DataType

/-!
# Schemas

The enumerations, composite types, tables and routines of a database, each collection in the order
of the catalog. Nothing keeps two of a collection from having one name; the first of a name is the
one that is found. A schema and a draft differ only in the types of their attributes.
-/
namespace SchemaClient

/-- A label of an enumeration with its place in the order of the labels. -/
structure EnumLabel where
  name : String
  order : Binary64
  deriving DecidableEq

structure Enumeration where
  name : String
  displayName : String
  fields : List EnumLabel
  deriving DecidableEq

/-- A column, an attribute of a composite type or a parameter of a routine. -/
structure Attribute (τ : Type) where
  name : String
  order : Int
  nullable : Bool
  type : τ
  deriving DecidableEq

structure Composite (τ : Type) where
  name : String
  displayName : String
  attributes : List (Attribute τ)
  deriving DecidableEq

structure Table (τ : Type) where
  name : String
  displayName : String
  columns : List (Attribute τ)
  deriving DecidableEq

structure Routine (τ : Type) where
  name : String
  parameters : List (Attribute τ)
  returnType : τ
  deriving DecidableEq

structure SchemaOf (τ : Type) where
  enums : List Enumeration
  types : List (Composite τ)
  tables : List (Table τ)
  functions : List (Routine τ)
  deriving DecidableEq

/-- A schema in which every reference is known. -/
abbrev Schema := SchemaOf DataType

/-- A schema in which references may still have to be looked up. -/
abbrev Draft := SchemaOf DraftType

def Enumeration.labels (e : Enumeration) : List String := e.fields.map (·.name)

namespace Table

variable {τ : Type}

def columnNames (t : Table τ) : List String := t.columns.map (·.name)

def column? (t : Table τ) (name : String) : Option (Attribute τ) :=
  t.columns.find? (·.name == name)

end Table

namespace SchemaOf

variable {τ : Type}

def enum? (s : SchemaOf τ) (name : String) : Option Enumeration :=
  s.enums.find? (·.name == name)

def type? (s : SchemaOf τ) (name : String) : Option (Composite τ) :=
  s.types.find? (·.name == name)

def table? (s : SchemaOf τ) (name : String) : Option (Table τ) :=
  s.tables.find? (·.name == name)

def function? (s : SchemaOf τ) (name : String) : Option (Routine τ) :=
  s.functions.find? (·.name == name)

def tableNames (s : SchemaOf τ) : List String := s.tables.map (·.name)

end SchemaOf

/-- A place of a schema that has a type: the thing it belongs to, its name there and the type. -/
structure Slot (τ : Type) where
  owner : String
  name : String
  type : τ

/-- The name of the slot that holds what a routine returns. -/
def returnSlot : String := "<return>"

namespace SchemaOf

variable {τ σ : Type} {m : Type → Type}

def attributeSlots (owner : String) (attributes : List (Attribute τ)) : List (Slot τ) :=
  attributes.map fun a => ⟨owner, a.name, a.type⟩

/-- The slots of a schema: those of the types, of the tables and of the routines, of each routine
the parameters and then what it returns. -/
def slots (s : SchemaOf τ) : List (Slot τ) :=
  (s.types.flatMap fun t => attributeSlots t.name t.attributes) ++
    (s.tables.flatMap fun t => attributeSlots t.name t.columns) ++
    s.functions.flatMap fun f =>
      attributeSlots f.name f.parameters ++ [⟨f.name, returnSlot, f.returnType⟩]

/-- The attributes with new types, found one after the other. -/
def retypeAttributes [Monad m] (f : Slot τ → m σ) (owner : String)
    (attributes : List (Attribute τ)) : m (List (Attribute σ)) :=
  attributes.mapM fun a => do
    let type ← f ⟨owner, a.name, a.type⟩
    pure ⟨a.name, a.order, a.nullable, type⟩

/-- The schema with new types, found slot by slot. -/
def retype [Monad m] (f : Slot τ → m σ) (s : SchemaOf τ) : m (SchemaOf σ) := do
  let types ← s.types.mapM fun t => do
    pure ⟨t.name, t.displayName, ← retypeAttributes f t.name t.attributes⟩
  let tables ← s.tables.mapM fun t => do
    pure ⟨t.name, t.displayName, ← retypeAttributes f t.name t.columns⟩
  let functions ← s.functions.mapM fun r => do
    let parameters ← retypeAttributes f r.name r.parameters
    pure ⟨r.name, parameters, ← f ⟨r.name, returnSlot, r.returnType⟩⟩
  pure ⟨s.enums, types, tables, functions⟩

/-- The schema with every type replaced. -/
def map (f : τ → σ) (s : SchemaOf τ) : SchemaOf σ where
  enums := s.enums
  types := s.types.map fun t => ⟨t.name, t.displayName, t.attributes.map (retyped f)⟩
  tables := s.tables.map fun t => ⟨t.name, t.displayName, t.columns.map (retyped f)⟩
  functions := s.functions.map fun r => ⟨r.name, r.parameters.map (retyped f), f r.returnType⟩
where
  retyped (f : τ → σ) (a : Attribute τ) : Attribute σ := ⟨a.name, a.order, a.nullable, f a.type⟩

end SchemaOf

/-- The draft of a schema that is already resolved. -/
def Schema.toDraft (s : Schema) : Draft := s.map DataType.toDraft

end SchemaClient
