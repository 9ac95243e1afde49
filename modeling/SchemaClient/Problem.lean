import SchemaClient.Validation.Issue

/-!
# Problems

The failures this library reports on its own account. A problem names its cause; its code, its words
and its details follow from the cause, and together they are the report a client receives.
-/
namespace SchemaClient

inductive Problem where
  /-- A failure without a kind of its own. -/
  | general (message : String) (code : Option String) (details : Record)
  /-- No rule gives an attribute's raw type a type. -/
  | unsupportedType (dataType : String) (udtName attr : Option String)
  /-- A type is referred to that the schema does not have. -/
  | unresolvedReference (typeName : String) (owner attr : Option String)
  /-- Composite types contain each other. -/
  | cyclicReference (cycle : List String)
  | invalidDirection (direction : Value)
  | invalidOperator (operator : Value) (allowed : List String)
  | unknownColumn (table : String) (column : Value) (allowed : List String)
  /-- A command that cannot be written as a statement. -/
  | invalidCommand (message command : String)
  /-- A transport was asked for an operation it does not have. -/
  | notImplemented (operation : String) (transport : Option String)
  /-- A statement whose text cannot be written. -/
  | uncompilable (message : String) (clause : Option String)
  /-- A project file that cannot be used. -/
  | badProject (message path : String)
  /-- A project file whose data are of the wrong shape. -/
  | misshapenProject (path : String) (rejection : Validation.Rejection)
  deriving Inhabited

namespace Problem

/-- The word for a text that may be absent. -/
def plainText (s : Option String) : String := (Value.optionalText s).plain

/-- What identifies the kind of a problem to a program. -/
def code : Problem → String
  | general _ code _ => code.getD "POSTSTACK_ERROR"
  | unsupportedType .. => "UNSUPPORTED_TYPE"
  | unresolvedReference .. => "UNRESOLVED_REFERENCE"
  | cyclicReference .. => "CYCLIC_REFERENCE"
  | invalidDirection .. => "INVALID_ORDER_DIRECTION"
  | invalidOperator .. => "INVALID_OPERATOR"
  | unknownColumn .. => "UNKNOWN_COLUMN"
  | invalidCommand .. => "INVALID_COMMAND"
  | notImplemented .. => "NOT_IMPLEMENTED"
  | uncompilable .. => "COMPILATION_ERROR"
  | badProject .. | misshapenProject .. => "PROJECT_CONFIG"

/-- What a person is told. The attribute of an unsupported type, the owner of a reference and the
transport are named only if their names are not empty. -/
def message : Problem → String
  | general message _ _ => message
  | unsupportedType dataType udtName attr =>
    let place :=
      match attr with
      | none | some "" => ""
      | some name => " for attribute '" ++ name ++ "'"
    "Unhandled type '" ++ dataType ++ "/" ++ plainText udtName ++ "'" ++ place ++ "."
  | unresolvedReference typeName owner attr =>
    let place :=
      match owner with
      | none | some "" => ""
      | some name => " (referenced by '" ++ name ++ "." ++ plainText attr ++ "')"
    "Can't resolve type '" ++ typeName ++ "'" ++ place ++ "."
  | cyclicReference cycle =>
    "Cyclic composite type reference: " ++ Text.joined " -> " cycle ++ "."
  | invalidDirection direction => "Invalid order_by direction: " ++ direction.shown ++ "."
  | invalidOperator operator _ => "Invalid condition operator: " ++ operator.shown ++ "."
  | unknownColumn table column _ =>
    "Column '" ++ column.plain ++ "' does not exist on table '" ++ table ++ "'."
  | invalidCommand message _ => message
  | notImplemented operation transport =>
    let agent :=
      match transport with
      | none | some "" => ""
      | some name => " by " ++ name
    "Operation '" ++ operation ++ "' is not implemented" ++ agent ++ "."
  | uncompilable message _ => message
  | badProject message _ => message
  | misshapenProject path rejection =>
    "Invalid project file " ++ path ++ ": " ++ rejection.summary

def details : Problem → Record
  | general _ _ details => details
  | unsupportedType dataType udtName attr =>
    [("data_type", .text dataType), ("udt_name", Value.optionalText udtName),
      ("attribute", Value.optionalText attr)]
  | unresolvedReference typeName owner attr =>
    [("type_name", .text typeName), ("owner", Value.optionalText owner),
      ("attribute", Value.optionalText attr)]
  | cyclicReference cycle => [("cycle", Value.texts cycle)]
  | invalidDirection direction =>
    [("direction", direction), ("allowed", Value.texts ["asc", "desc"])]
  | invalidOperator operator allowed =>
    [("operator", operator), ("allowed", Value.texts allowed)]
  | unknownColumn table column allowed =>
    [("table", .text table), ("column", column), ("allowed_columns", Value.texts allowed)]
  | invalidCommand _ command => [("command", .text command)]
  | notImplemented operation transport =>
    [("operation", .text operation), ("transport", Value.optionalText transport)]
  | uncompilable _ clause => [("clause", Value.optionalText clause)]
  | badProject _ path | misshapenProject path _ => [("path", .text path)]

/-- The report of a problem: its code, its words and its details. -/
def response (p : Problem) : Value :=
  .record
    [("error", .text p.code), ("message", .text p.message), ("details", .record p.details)]

end Problem
end SchemaClient
