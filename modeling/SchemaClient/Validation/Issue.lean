import SchemaClient.Value.Display

/-!
# Issues

What is wrong with data that were to become a value of some model: where it lies, what the fault is
and which value has it. The wording depends on whether the data were given as values or as JSON
text, because the two have different words for their containers.
-/
namespace SchemaClient.Validation

inductive Source where
  | values
  | jsonText
  deriving DecidableEq

/-- One step into data: to a member or a tag, or to an item, a tag or a key that is a number. -/
inductive Step where
  | name (s : String)
  | number (n : Int)
  deriving DecidableEq

inductive Fault where
  /-- A member that a model needs is absent. -/
  | missing
  /-- A member that a model does not have. -/
  | unexpected
  | notRecord
  /-- Not a record where a model's data were expected. -/
  | notModel (model : String)
  | notText
  | undecodableText
  | notInteger
  | unreadableInteger
  | integerTooLong
  | fractionalInteger
  | notFinite
  | belowMinimum (minimum : Int)
  | notReal
  | unreadableReal
  | notFlag
  | unreadableFlag
  | notList
  | notTuple
  | tooShort (minimum actual : Nat)
  /-- None of the texts or numbers that are allowed. -/
  | notAllowed (expected : String)
  /-- Not a record where the member `discriminator` tells which model the data are of. -/
  | notTagged
  | noTag (discriminator : String)
  | unknownTag (discriminator tag expected : String)
  | notJson
  /-- Neither a text nor bytes where JSON text was expected. -/
  | notJsonContent
  deriving DecidableEq

namespace Fault

/-- What identifies a fault to a program. -/
def code (source : Source) : Fault → String
  | missing => "missing"
  | unexpected => "extra_forbidden"
  | notRecord => "dict_type"
  | notModel _ => "model_type"
  | notText => "string_type"
  | undecodableText => "string_unicode"
  | notInteger => "int_type"
  | unreadableInteger => "int_parsing"
  | integerTooLong => "int_parsing_size"
  | fractionalInteger => "int_from_float"
  | notFinite => "finite_number"
  | belowMinimum _ => "greater_than_equal"
  | notReal => "float_type"
  | unreadableReal => "float_parsing"
  | notFlag => "bool_type"
  | unreadableFlag => "bool_parsing"
  | notList => "list_type"
  | notTuple => "tuple_type"
  | tooShort .. => "too_short"
  | notAllowed _ => "literal_error"
  | notTagged =>
    match source with
    | .values => "model_attributes_type"
    | .jsonText => "dict_type"
  | noTag _ => "union_tag_not_found"
  | unknownTag .. => "union_tag_invalid"
  | notJson => "json_invalid"
  | notJsonContent => "json_type"

/-- What a person is told of a fault. -/
def message (source : Source) : Fault → String
  | missing => "Field required"
  | unexpected => "Extra inputs are not permitted"
  | notRecord =>
    match source with
    | .values => "Input should be a valid dictionary"
    | .jsonText => "Input should be an object"
  | notModel model =>
    match source with
    | .values => "Input should be a valid dictionary or instance of " ++ model
    | .jsonText => "Input should be an object"
  | notText => "Input should be a valid string"
  | undecodableText =>
    "Input should be a valid string, unable to parse raw data as a unicode string"
  | notInteger => "Input should be a valid integer"
  | unreadableInteger =>
    "Input should be a valid integer, unable to parse string as an integer"
  | integerTooLong =>
    "Unable to parse input string as an integer, exceeded maximum size"
  | fractionalInteger =>
    "Input should be a valid integer, got a number with a fractional part"
  | notFinite => "Input should be a finite number"
  | belowMinimum minimum =>
    "Input should be greater than or equal to " ++ toString minimum
  | notReal => "Input should be a valid number"
  | unreadableReal => "Input should be a valid number, unable to parse string as a number"
  | notFlag => "Input should be a valid boolean"
  | unreadableFlag => "Input should be a valid boolean, unable to interpret input"
  | notList =>
    match source with
    | .values => "Input should be a valid list"
    | .jsonText => "Input should be a valid array"
  | notTuple =>
    match source with
    | .values => "Input should be a valid tuple"
    | .jsonText => "Input should be a valid array"
  | tooShort minimum actual =>
    "List should have at least " ++ Nat.repr minimum ++ " item" ++
      (if minimum = 1 then "" else "s") ++ " after validation, not " ++ Nat.repr actual
  | notAllowed expected => "Input should be " ++ expected
  | notTagged =>
    match source with
    | .values =>
      "Input should be a valid dictionary or object to extract fields from"
    | .jsonText => "Input should be an object"
  | noTag discriminator =>
    "Unable to extract tag using discriminator " ++ discriminator
  | unknownTag discriminator tag expected =>
    "Input tag '" ++ tag ++ "' found using " ++ discriminator ++
      " does not match any of the expected tags: " ++ expected
  | notJson => "Invalid JSON"
  | notJsonContent => "JSON input should be string, bytes or bytearray"

def context : Fault → Record
  | notModel model => [("class_name", .text model)]
  | belowMinimum minimum => [("ge", .int minimum)]
  | tooShort minimum actual =>
    [("field_type", .text "List"), ("min_length", .int minimum), ("actual_length", .int actual)]
  | notAllowed expected => [("expected", .text expected)]
  | noTag discriminator => [("discriminator", .text discriminator)]
  | unknownTag discriminator tag expected =>
    [("discriminator", .text discriminator), ("tag", .text tag),
      ("expected_tags", .text expected)]
  | _ => []

end Fault

structure Issue where
  path : List Step
  fault : Fault
  input : Value

/-- Data that were not accepted: the model they were to be of, how they were given, and all that is
wrong with them. -/
structure Rejection where
  model : String
  source : Source
  issues : List Issue

def Step.toValue : Step → Value
  | name s => .text s
  | number n => .int n

/-- An issue as data: the fault, the place and, but for a text that is no JSON at all, the words. -/
def Issue.report (source : Source) (issue : Issue) : Record :=
  [("type", .text (issue.fault.code source)), ("loc", .list (issue.path.map Step.toValue))] ++
    match issue.fault with
    | .notJson => []
    | fault => [("msg", .text (fault.message source))]

/-- An issue as data, with the value it is about and the data that go with the words. -/
def Issue.fullReport (source : Source) (issue : Issue) : Record :=
  issue.report source ++
    match issue.fault with
    | .notJson => []
    | fault =>
      ("input", issue.input) ::
        if fault.context.isEmpty then [] else [("ctx", .record fault.context)]

/-- How much is wrong, and with data of which model. -/
def Rejection.summary (r : Rejection) : String :=
  Nat.repr r.issues.length ++ " validation error" ++ (if r.issues.length = 1 then "" else "s") ++
    " for " ++ r.model

end SchemaClient.Validation
