import SchemaClient.Schema.Basic
import SchemaClient.Text.Quoted

/-!
# Summaries of schemas

A schema for people: a line for each enumeration, composite type, table and routine, with the types
of what belongs to it. A question mark follows what may be null.
-/
namespace SchemaClient

def Attribute.text (a : Attribute DataType) : String :=
  a.name ++ " " ++ a.type.text ++ (if a.nullable then "?" else "")

namespace Schema

def attributeTexts (attributes : List (Attribute DataType)) : String :=
  Text.joined ", " (attributes.map Attribute.text)

def summaryLines (s : Schema) : List String :=
  (s.enums.map fun e => "enum " ++ e.name ++ ": " ++ Text.joined ", " e.labels) ++
    (s.types.map fun t => "type " ++ t.name ++ ": " ++ attributeTexts t.attributes) ++
    (s.tables.map fun t => "table " ++ t.name ++ ": " ++ attributeTexts t.columns) ++
    s.functions.map fun f =>
      "function " ++ f.name ++ "(" ++ attributeTexts f.parameters ++ ") -> " ++ f.returnType.text

def summary (s : Schema) : String := Text.joined "\n" (summaryLines s)

end Schema
end SchemaClient
