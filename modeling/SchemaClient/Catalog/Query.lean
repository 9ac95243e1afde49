import SchemaClient.Catalog.Rows

/-!
# Catalog queries

The statements that ask PostgreSQL about itself, and the reading of their answers. Names go into a
statement only as bound parameters.
-/
namespace SchemaClient

inductive CatalogQuery where
  | enumLabels
  | typeNames
  | typeAttributes (typeName : String)
  | tableNames
  | tableColumns (tableName : String)
  | routines
  | routineParameters (specificName : String)
  deriving DecidableEq

namespace CatalogQuery

def sql : CatalogQuery → String
  | enumLabels =>
    "select e.enumlabel as name, e.enumsortorder as \"order\", t.typname as enum_name " ++
      "from pg_catalog.pg_enum e " ++
      "join pg_catalog.pg_type t on e.enumtypid = t.oid " ++
      "join pg_catalog.pg_namespace n on t.typnamespace = n.oid " ++
      "where n.nspname = :schema order by t.typname, e.enumsortorder"
  | typeNames =>
    "select i.user_defined_type_name as name from information_schema.user_defined_types i " ++
      "where i.user_defined_type_schema = :schema order by i.user_defined_type_name"
  | typeAttributes _ =>
    "select i.attribute_name as name, i.ordinal_position as \"order\", " ++
      "i.is_nullable = 'YES' as nullable, i.data_type, i.attribute_udt_name as udt_name " ++
      "from information_schema.attributes i " ++
      "where i.udt_schema = :schema and i.udt_name = :name order by i.ordinal_position"
  | tableNames =>
    "select table_name as name from information_schema.tables " ++
      "where table_schema = :schema order by table_name"
  | tableColumns _ =>
    "select i.column_name as name, i.ordinal_position as \"order\", " ++
      "i.is_nullable = 'YES' as nullable, i.data_type, " ++
      "case when i.data_type in ('USER-DEFINED', 'ARRAY') then i.udt_name " ++
      "else coalesce(i.domain_name, i.udt_name) end as udt_name " ++
      "from information_schema.columns i " ++
      "where i.table_schema = :schema and i.table_name = :name order by i.ordinal_position"
  | routines =>
    "select routine_name as name, data_type, udt_name, specific_name " ++
      "from information_schema.routines " ++
      "where specific_schema = :schema order by routine_name, specific_name"
  | routineParameters _ =>
    "select parameter_name as name, data_type, udt_name, ordinal_position as \"order\" " ++
      "from information_schema.parameters " ++
      "where specific_schema = :schema and specific_name = :name order by ordinal_position"

/-- What a query is about, if it is about a single thing. -/
def subject : CatalogQuery → Option String
  | typeAttributes name | tableColumns name | routineParameters name => some name
  | enumLabels | typeNames | tableNames | routines => none

def params (schemaName : String) (query : CatalogQuery) : Record :=
  ("schema", .text schemaName) :: (query.subject.map fun name => ("name", .text name)).toList

end CatalogQuery

abbrev RowSource := CatalogQuery → List Record

namespace RowSource

/-- The rows of an answer as data of a model; the first that is not of the model stops. -/
def readRows {α : Type} (model : Validation.Model α) (rows : List Record) :
    Except Failure (List α) :=
  rows.mapM fun row => Failure.ofRejection (model.read (.record row))

/-- The member `name` of each row. -/
def nameValues (rows : List Record) : Except Failure (List Value) :=
  rows.mapM fun row =>
    match row.lookup "name" with
    | some v => .ok v
    | none => .error (.unknownName "name")

/-- The names that an answer lists. -/
def names (rows : List Record) : Except Failure (List String) := do
  (← nameValues rows).mapM fun v =>
    match v with
    | .text s => .ok s
    | v => .error (.unknownCall v.kindName "split")

def catalog (source : RowSource) : Catalog where
  enumLabels := readRows EnumLabelRow.model (source .enumLabels)
  typeNames := names (source .typeNames)
  typeAttributes name := readRows AttributeRow.model (source (.typeAttributes name))
  tableNames := names (source .tableNames)
  tableColumns name := readRows AttributeRow.model (source (.tableColumns name))
  routines := readRows RoutineRow.model (source .routines)
  routineParameters name := readRows ParameterRow.model (source (.routineParameters name))

end RowSource
end SchemaClient
