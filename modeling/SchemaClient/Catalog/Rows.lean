import SchemaClient.Failure
import SchemaClient.Validation.Model

/-!
# Catalogs

What a database says about itself, as rows. A catalog answers seven questions, some of them about a
single type, table or routine.
-/
namespace SchemaClient

open Validation
open Validation.Fields (required withDefault)

structure EnumLabelRow where
  enumName : String
  name : String
  order : Binary64

/-- A column of a table or an attribute of a composite type, with the raw name of its type and the
name of the type that underlies it. -/
structure AttributeRow where
  name : String
  order : Int
  nullable : Bool
  dataType : String
  udtName : Option String

/-- A routine. The specific name tells routines of one name apart. -/
structure RoutineRow where
  name : String
  specificName : String
  dataType : String
  udtName : Option String

structure ParameterRow where
  name : Option String
  order : Int
  dataType : String
  udtName : Option String

/-- The underlying type, which a row need not have. -/
def udtNameField : Fields (Option String) :=
  withDefault "udt_name" none (Decoder.optional Decoder.text)

def EnumLabelRow.model : Model EnumLabelRow :=
  ⟨"EnumLabelRecord",
    EnumLabelRow.mk <$> required "enum_name" Decoder.text <*> required "name" Decoder.text <*>
      required "order" Decoder.real⟩

def AttributeRow.model : Model AttributeRow :=
  ⟨"AttributeRecord",
    AttributeRow.mk <$> required "name" Decoder.text <*> required "order" Decoder.integer <*>
      required "nullable" Decoder.flag <*> required "data_type" Decoder.text <*> udtNameField⟩

def RoutineRow.model : Model RoutineRow :=
  ⟨"RoutineRecord",
    RoutineRow.mk <$> required "name" Decoder.text <*> required "specific_name" Decoder.text <*>
      required "data_type" Decoder.text <*> udtNameField⟩

def ParameterRow.model : Model ParameterRow :=
  ⟨"ParameterRecord",
    ParameterRow.mk <$> required "name" (Decoder.optional Decoder.text) <*>
      required "order" Decoder.integer <*> required "data_type" Decoder.text <*> udtNameField⟩

def EnumLabelRow.toRecord (row : EnumLabelRow) : Record :=
  [("enum_name", .text row.enumName), ("name", .text row.name), ("order", .float row.order)]

def AttributeRow.toRecord (row : AttributeRow) : Record :=
  [("name", .text row.name), ("order", .int row.order), ("nullable", .bool row.nullable),
    ("data_type", .text row.dataType), ("udt_name", .optionalText row.udtName)]

def RoutineRow.toRecord (row : RoutineRow) : Record :=
  [("name", .text row.name), ("specific_name", .text row.specificName),
    ("data_type", .text row.dataType), ("udt_name", .optionalText row.udtName)]

def ParameterRow.toRecord (row : ParameterRow) : Record :=
  [("name", .optionalText row.name), ("order", .int row.order), ("data_type", .text row.dataType),
    ("udt_name", .optionalText row.udtName)]

/-- The answers of a database about itself. -/
structure Catalog where
  enumLabels : Except Failure (List EnumLabelRow)
  typeNames : Except Failure (List String)
  typeAttributes : String → Except Failure (List AttributeRow)
  tableNames : Except Failure (List String)
  tableColumns : String → Except Failure (List AttributeRow)
  routines : Except Failure (List RoutineRow)
  routineParameters : String → Except Failure (List ParameterRow)

end SchemaClient
