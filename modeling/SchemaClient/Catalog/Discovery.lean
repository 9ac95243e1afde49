import SchemaClient.Catalog.Typing
import SchemaClient.Schema.Resolution
import SchemaClient.Sorting
import SchemaClient.Text.Case

/-!
# Discovery

The schema that a catalog describes. Collections keep the order of the catalog, attributes are
sorted by their ordinal positions and labels by their sort orders, equal ones as the catalog has
them. The rows of all things of a kind are read before the first of them is given types.
-/
namespace SchemaClient

/-- The attributes in the order of their positions. -/
def sortedAttributes {τ : Type} (attributes : List (Attribute τ)) : List (Attribute τ) :=
  attributes.mergeSort fun a b => a.order ≤ b.order

/-- The labels in their sort order. Only where a sort order is NaN, and no order is right, does it
matter how they are sorted. -/
def sortedLabels (labels : List EnumLabel) : List EnumLabel :=
  if labels.any (·.order.isNaN) then Sorting.sorted (fun a b => a.order.lt b.order) labels
  else labels.mergeSort fun a b => !b.order.lt a.order

/-- The enumerations that labels belong to, in the order in which their first labels come. -/
def groupLabels (rows : List EnumLabelRow) : List Enumeration :=
  (rows.map (·.enumName)).eraseDups.map fun name =>
    let labels := (rows.filter (·.enumName == name)).map fun row => ⟨row.name, row.order⟩
    ⟨name, Text.pascalCase name, sortedLabels labels⟩

namespace Catalog

variable {α : Type}

/-- The rows of each of several things. -/
def fetchAll (names : List String) (fetch : String → Except Failure α) :
    Except Failure (List α) := names.mapM fetch

def attributes (lists : AllowLists) (rows : List AttributeRow) :
    Except Failure (List (Attribute DraftType)) := do
  pure (sortedAttributes (← Failure.ofProblem (rows.mapM (AttributeRow.attr lists))))

def parameters (lists : AllowLists) (rows : List ParameterRow) :
    Except Failure (List (Attribute DraftType)) := do
  pure (sortedAttributes (← Failure.ofProblem (rows.mapM (ParameterRow.attr lists))))

def enumerations (catalog : Catalog) : Except Failure (List Enumeration) := do
  pure (groupLabels (← catalog.enumLabels))

def compositeTypes (catalog : Catalog) (lists : AllowLists) :
    Except Failure (List (Composite DraftType)) := do
  let names ← catalog.typeNames
  let rows ← fetchAll names catalog.typeAttributes
  (names.zip rows).mapM fun (name, rows) => do
    pure ⟨name, Text.pascalCase name, ← attributes lists rows⟩

def tables (catalog : Catalog) (lists : AllowLists) :
    Except Failure (List (Table DraftType)) := do
  let names ← catalog.tableNames
  let rows ← fetchAll names catalog.tableColumns
  (names.zip rows).mapM fun (name, rows) => do
    pure ⟨name, Text.pascalCase name, ← attributes lists rows⟩

def functions (catalog : Catalog) (lists : AllowLists) :
    Except Failure (List (Routine DraftType)) := do
  let routines ← catalog.routines
  let rows ← fetchAll (routines.map (·.specificName)) catalog.routineParameters
  (routines.zip rows).mapM fun (routine, rows) => do
    let parameters ← parameters lists rows
    pure ⟨routine.name, parameters, ← Failure.ofProblem (routine.returnType lists)⟩

def draft (catalog : Catalog) (options : DiscoveryOptions) : Except Failure Draft := do
  let enums ← catalog.enumerations
  let types ← catalog.compositeTypes options.udts
  let tables ← catalog.tables options.udts
  let functions ← catalog.functions options.udts
  pure ⟨enums, types, tables, functions⟩

def discover (catalog : Catalog) (options : DiscoveryOptions) : Except Failure Schema := do
  let draft ← catalog.draft options
  pure (← Failure.ofProblem (Draft.resolve draft)).schema

end Catalog
end SchemaClient
