import SchemaClient.Catalog.Options
import SchemaClient.Catalog.Rows
import SchemaClient.Schema.Basic

/-!
# Types of catalog attributes

The rules that give an attribute a type by the raw name of its type and the name of the type that
underlies it. The rules are tried in a fixed order: flags, numbers, texts, dates, user-defined
types, arrays.
-/
namespace SchemaClient

namespace TypeNames

/-- The raw type of attributes whose types users have defined. -/
def userDefined : String := "USER-DEFINED"

/-- The raw type of arrays, whose underlying name tells of the element. -/
def array : String := "ARRAY"

/-- The end of the name of a domain that does not hold null. -/
def notNullSuffix : List Char := "_not_null".toList

/-- The start of the name of an array type; the name of the element follows. -/
def elementMark : Char := '_'

def flags : List String := ["boolean", "bool"]

def numbers : List String :=
  ["int2", "int4", "int8", "smallint", "integer", "bigint", "money", "numeric", "real",
    "double precision", "float4", "float8"]

def texts : List String :=
  ["text", "text_not_blank", "uuid", "citext", "character varying", "varchar", "character",
    "bpchar", "name"]

def dates : List String :=
  ["date", "timestamp", "timestamptz", "timestamp without time zone",
    "timestamp with time zone"]

end TypeNames

/-- Whether one of the names is among those known. -/
def namesMatch (known names : List String) : Bool := names.any known.contains

namespace AllowLists

/-- The type that one of the names stands for by itself. -/
def simpleType? (lists : AllowLists) (names : List String) : Option DraftType :=
  if namesMatch TypeNames.flags names then some .boolean
  else if namesMatch TypeNames.numbers names || namesMatch lists.number names then some .number
  else if namesMatch TypeNames.texts names || namesMatch lists.string names then some .string
  else if namesMatch TypeNames.dates names then some .date
  else none

/-- The type of an array by its underlying name: a mark for each further array, then the name of the
element, which is looked up later unless it stands for itself. -/
def arrayType (lists : AllowLists) (udtName : List Char) : DraftType :=
  match lists.simpleType? [TypeNames.array] with
  | some type => type
  | none =>
    match udtName with
    | '_' :: rest => .array (lists.arrayType rest)
    | element =>
      let name := String.ofList element
      .array ((lists.simpleType? [name]).getD (.reference (.unresolved name)))

/-- The type of an attribute, if a rule gives it one. -/
def typeOf? (lists : AllowLists) (dataType : String) (udtName : Option String) :
    Option DraftType :=
  if dataType = TypeNames.array then
    match udtName with
    | some name => some (lists.arrayType name.toList)
    | none => lists.simpleType? [TypeNames.array]
  else
    match lists.simpleType? (dataType :: udtName.toList) with
    | some type => some type
    | none =>
      if dataType = TypeNames.userDefined then
        udtName.map fun name => .reference (.unresolved name)
      else none

/-- The type of an attribute that has to have one. -/
def typeOf (lists : AllowLists) (dataType : String) (udtName attr : Option String) :
    Except Problem DraftType :=
  match lists.typeOf? dataType udtName with
  | some type => .ok type
  | none => .error (.unsupportedType dataType udtName attr)

end AllowLists

/-- The text without an ending. -/
def dropSuffix? (suffix text : List Char) : Option (List Char) :=
  if suffix.isSuffixOf text then some (text.take (text.length - suffix.length)) else none

/-- The text without one mark of an array in front. -/
def dropElementMark (text : List Char) : List Char :=
  match text with
  | c :: rest => if c = TypeNames.elementMark then rest else text
  | [] => []

/-- The name of an underlying type without its markers, and whether null is allowed: the ending of a
domain that does not hold null goes first, then one mark of an array. -/
def normalizeName (udtName : Option String) (nullable : Bool) : Option String × Bool :=
  match udtName with
  | none => (none, nullable)
  | some name =>
    match dropSuffix? TypeNames.notNullSuffix name.toList with
    | some rest => (some (String.ofList (dropElementMark rest)), false)
    | none => (some (String.ofList (dropElementMark name.toList)), nullable)

def AttributeRow.attr (lists : AllowLists) (row : AttributeRow) :
    Except Problem (Attribute DraftType) := do
  let (udtName, nullable) := normalizeName row.udtName row.nullable
  let type ← lists.typeOf row.dataType udtName (some row.name)
  pure ⟨row.name, row.order, nullable, type⟩

/-- The name of a parameter; one without a name is called after its place. -/
def ParameterRow.label (row : ParameterRow) : String :=
  match row.name with
  | none | some "" => "arg" ++ toString row.order
  | some name => name

/-- The parameter that a row describes; parameters are never null. -/
def ParameterRow.attr (lists : AllowLists) (row : ParameterRow) :
    Except Problem (Attribute DraftType) := do
  let type ← lists.typeOf row.dataType (normalizeName row.udtName false).1 (some row.label)
  pure ⟨row.label, row.order, false, type⟩

def RoutineRow.returnType (lists : AllowLists) (row : RoutineRow) : Except Problem DraftType :=
  lists.typeOf row.dataType (normalizeName row.udtName false).1 (some row.name)

end SchemaClient
