import SchemaClient.Schema.Basic
import SchemaClient.Validation.Model

/-!
# Schemas as data

Schemas and drafts are exchanged as records. A type is a record whose member `kind` tells what it
is; the types of a draft have one kind more, and the two are read by different models, so that data
with a name still to be looked up are no schema.
-/
namespace SchemaClient.Interchange

open Validation
open Validation.Fields (required withDefault)

/-- What a kind of type needs beside its name: nothing, an element, or a name to refer to. -/
inductive Form (ρ : Type) where
  | simple (type : TypeShape ρ)
  | array
  | named (reference : String → ρ)

/-- A kind of type: the word for it, the model of its data and what they hold. -/
structure Kind (ρ : Type) where
  word : String
  title : String
  form : Form ρ

variable {ρ : Type}

/-- The members of data of a kind, given how the element of an array is read. -/
def Kind.fields (kind : Kind ρ) (element : Fields (TypeShape ρ)) : Fields (TypeShape ρ) :=
  let word := withDefault "kind" () (Decoder.onlyText kind.word)
  match kind.form with
  | .simple type => (fun _ => type) <$> word
  | .array => (fun _ type => .array type) <$> word <*> element
  | .named reference =>
    (fun _ name => .reference (reference name)) <$> word <*> required "name" Decoder.text

def Kind.tag (kind : Kind ρ) : Tag (Kind ρ) := .ofText kind.word kind

mutual

/-- The type that data hold, of one of the kinds. -/
def decodeType (kinds : List (Kind ρ)) (source : Source) : Value → Validated (TypeShape ρ)
  | .record entries =>
    match Tag.find "kind" (kinds.map Kind.tag) (.record entries) with
    | .error issues => .error issues
    | .ok tag =>
      let element := Fields.given "element" (decodeMembers kinds source entries)
      ((tag.case.fields element).readAll source entries).under tag.step
  | v => Validated.fail .notTagged v

/-- The types that the members of a record hold. -/
def decodeMembers (kinds : List (Kind ρ)) (source : Source) :
    List (String × Value) → List (String × Validated (TypeShape ρ))
  | [] => []
  | (name, v) :: rest => (name, decodeType kinds source v) :: decodeMembers kinds source rest

end

/-- The kinds of types that refer to nothing. -/
def simpleKinds : List (Kind ρ) :=
  [⟨"boolean", "BooleanType", .simple .boolean⟩, ⟨"number", "NumberType", .simple .number⟩,
    ⟨"string", "StringType", .simple .string⟩, ⟨"date", "DateType", .simple .date⟩]

def dataKinds : List (Kind Target) :=
  simpleKinds ++
    [⟨"array", "ArrayType", .array⟩, ⟨"enum", "EnumRef", .named .enum⟩,
      ⟨"composite", "CompositeRef", .named .composite⟩]

def draftKinds : List (Kind Reference) :=
  simpleKinds ++
    [⟨"array", "DraftArrayType", .array⟩, ⟨"enum", "EnumRef", .named (.known ∘ .enum)⟩,
      ⟨"composite", "CompositeRef", .named (.known ∘ .composite)⟩,
      ⟨"unresolved", "UnresolvedUdt", .named .unresolved⟩]

def Kind.model (kinds : List (Kind ρ)) (kind : Kind ρ) : Model (TypeShape ρ) :=
  ⟨kind.title, kind.fields (required "element" (decodeType kinds))⟩

/-- How schemas and drafts differ as data: in the types, in the kind of their collections and in the
names of the models. -/
structure Variant (τ : Type) where
  type : Decoder τ
  collection : {α : Type} → Decoder α → Decoder (List α)
  attributeTitle : String
  compositeTitle : String
  tableTitle : String
  routineTitle : String
  schemaTitle : String

def schemaVariant : Variant DataType where
  type := decodeType dataKinds
  collection := Decoder.fixed
  attributeTitle := "Attribute"
  compositeTitle := "CompositeType"
  tableTitle := "Table"
  routineTitle := "Routine"
  schemaTitle := "Schema"

def draftVariant : Variant DraftType where
  type := decodeType draftKinds
  collection := Decoder.list
  attributeTitle := "DraftAttribute"
  compositeTitle := "DraftCompositeType"
  tableTitle := "DraftTable"
  routineTitle := "DraftRoutine"
  schemaTitle := "SchemaDraft"

def enumLabelModel : Model EnumLabel :=
  ⟨"EnumField", EnumLabel.mk <$> required "name" Decoder.text <*> required "order" Decoder.real⟩

def enumerationModel : Model Enumeration :=
  ⟨"EnumType",
    Enumeration.mk <$> required "name" Decoder.text <*> required "display_name" Decoder.text <*>
      withDefault "fields" [] (Decoder.fixed enumLabelModel.decoder)⟩

namespace Variant

variable {τ : Type} (variant : Variant τ)

def attributeModel : Model (Attribute τ) :=
  ⟨variant.attributeTitle,
    Attribute.mk <$> required "name" Decoder.text <*> required "order" Decoder.integer <*>
      withDefault "nullable" true Decoder.flag <*> required "type" variant.type⟩

def attributes (name : String) : Fields (List (Attribute τ)) :=
  withDefault name [] (variant.collection variant.attributeModel.decoder)

def compositeModel : Model (Composite τ) :=
  ⟨variant.compositeTitle,
    Composite.mk <$> required "name" Decoder.text <*> required "display_name" Decoder.text <*>
      variant.attributes "attributes"⟩

def tableModel : Model (Table τ) :=
  ⟨variant.tableTitle,
    Table.mk <$> required "name" Decoder.text <*> required "display_name" Decoder.text <*>
      variant.attributes "columns"⟩

def routineModel : Model (Routine τ) :=
  ⟨variant.routineTitle,
    Routine.mk <$> required "name" Decoder.text <*> variant.attributes "parameters" <*>
      required "return_type" variant.type⟩

def schemaModel : Model (SchemaOf τ) :=
  ⟨variant.schemaTitle,
    SchemaOf.mk <$>
      withDefault "enums" [] (variant.collection enumerationModel.decoder) <*>
      withDefault "types" [] (variant.collection variant.compositeModel.decoder) <*>
      withDefault "tables" [] (variant.collection variant.tableModel.decoder) <*>
      withDefault "functions" [] (variant.collection variant.routineModel.decoder)⟩

end Variant

/-- The data of a type, given the kind and the name of what it refers to. -/
def typeJson (leaf : ρ → String × String) : TypeShape ρ → Json
  | .boolean => .texts [("kind", "boolean")]
  | .number => .texts [("kind", "number")]
  | .string => .texts [("kind", "string")]
  | .date => .texts [("kind", "date")]
  | .array element => .object [("kind", .string "array"), ("element", typeJson leaf element)]
  | .reference target => .texts [("kind", (leaf target).1), ("name", (leaf target).2)]

def targetKind : Target → String × String
  | .enum name => ("enum", name)
  | .composite name => ("composite", name)

def referenceKind : Reference → String × String
  | .known target => targetKind target
  | .unresolved name => ("unresolved", name)

def dataTypeJson : DataType → Json := typeJson targetKind

def draftTypeJson : DraftType → Json := typeJson referenceKind

def enumLabelJson (label : EnumLabel) : Json :=
  .object [("name", .string label.name), ("order", .float label.order)]

def enumerationJson (e : Enumeration) : Json :=
  .object
    [("name", .string e.name), ("display_name", .string e.displayName),
      ("fields", .array (e.fields.map enumLabelJson))]

variable {τ : Type}

def attributeJson (type : τ → Json) (a : Attribute τ) : Json :=
  .object
    [("name", .string a.name), ("order", .int a.order), ("nullable", .bool a.nullable),
      ("type", type a.type)]

def attributesJson (type : τ → Json) (attributes : List (Attribute τ)) : Json :=
  .array (attributes.map (attributeJson type))

def compositeJson (type : τ → Json) (t : Composite τ) : Json :=
  .object
    [("name", .string t.name), ("display_name", .string t.displayName),
      ("attributes", attributesJson type t.attributes)]

def tableJson (type : τ → Json) (t : Table τ) : Json :=
  .object
    [("name", .string t.name), ("display_name", .string t.displayName),
      ("columns", attributesJson type t.columns)]

def routineJson (type : τ → Json) (f : Routine τ) : Json :=
  .object
    [("name", .string f.name), ("parameters", attributesJson type f.parameters),
      ("return_type", type f.returnType)]

def schemaJson (type : τ → Json) (s : SchemaOf τ) : Json :=
  .object
    [("enums", .array (s.enums.map enumerationJson)),
      ("types", .array (s.types.map (compositeJson type))),
      ("tables", .array (s.tables.map (tableJson type))),
      ("functions", .array (s.functions.map (routineJson type)))]

end Interchange

def Schema.toJson (s : Schema) : Json := Interchange.schemaJson Interchange.dataTypeJson s

def Draft.toJson (d : Draft) : Json := Interchange.schemaJson Interchange.draftTypeJson d

def Schema.read (v : Value) : Except Validation.Rejection Schema :=
  Interchange.schemaVariant.schemaModel.read v

def Draft.read (v : Value) : Except Validation.Rejection Draft :=
  Interchange.draftVariant.schemaModel.read v

end SchemaClient
