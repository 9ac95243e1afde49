import SchemaClient.Catalog.Query

/-!
# Catalogs in memory

The rows of a catalog, held by what they are about. The catalog is of one schema; of every other
schema it knows nothing. As data it is a record with a member for each kind of rows, all of which
may be absent.
-/
namespace SchemaClient

abbrev NamedRows := List (String × List Record)

structure CatalogContent where
  schemaName : String
  enumLabels : List Record
  types : NamedRows
  tables : NamedRows
  routines : List Record
  parameters : NamedRows

namespace CatalogContent

/-- The rows about a thing; the last of a name counts. -/
def about (rows : NamedRows) (name : String) : List Record := (rows.reverse.lookup name).getD []

def nameRows (rows : NamedRows) : List Record :=
  rows.map fun entry => [("name", .text entry.1)]

/-- The rows that answer a query about a schema. -/
def source (content : CatalogContent) (schemaName : String) : RowSource := fun query =>
  if content.schemaName ≠ schemaName then []
  else
    match query with
    | .enumLabels => content.enumLabels
    | .typeNames => nameRows content.types
    | .typeAttributes name => about content.types name
    | .tableNames => nameRows content.tables
    | .tableColumns name => about content.tables name
    | .routines => content.routines
    | .routineParameters name => about content.parameters name

/-- The rows in a list; what is no record is a row without members. -/
def rowsOf : Value → List Record
  | .list items =>
    items.map fun item =>
      match item with
      | .record entries => entries
      | _ => []
  | _ => []

/-- The rows in a list of pairs of a name and rows. -/
def namedRowsOf : Value → NamedRows
  | .list items =>
    items.filterMap fun item =>
      match item with
      | .list [.text name, rows] => some (name, rowsOf rows)
      | _ => none
  | _ => []

def ofRecord (entries : Record) : CatalogContent :=
  let member (name : String) : Value := (entries.lookup name).getD .null
  let schemaName :=
    match member "schema" with
    | .text s => s
    | _ => "public"
  ⟨schemaName, rowsOf (member "enum_labels"), namedRowsOf (member "types"),
    namedRowsOf (member "tables"), rowsOf (member "routines"), namedRowsOf (member "parameters")⟩

end CatalogContent
end SchemaClient
