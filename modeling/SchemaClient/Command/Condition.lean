import SchemaClient.Validation.Model

/-!
# Conditions

A condition says of a column that it is null or not, or compares it with a value. As data the two
are told apart by the number of their operands.
-/
namespace SchemaClient

open Validation
open Validation.Fields (required withDefault)

inductive UnaryOperator where
  | isNull
  | isNotNull
  deriving DecidableEq

inductive BinaryOperator where
  | equal
  | greater
  | less
  | greaterOrEqual
  | lessOrEqual
  deriving DecidableEq

namespace UnaryOperator

def all : List UnaryOperator := [isNull, isNotNull]

def word : UnaryOperator → String
  | isNull => "is null"
  | isNotNull => "is not null"

def words : List (String × UnaryOperator) := all.map fun o => (o.word, o)

def ofWord? (word : String) : Option UnaryOperator := words.lookup word

end UnaryOperator

namespace BinaryOperator

def all : List BinaryOperator := [equal, greater, less, greaterOrEqual, lessOrEqual]

def word : BinaryOperator → String
  | equal => "="
  | greater => ">"
  | less => "<"
  | greaterOrEqual => ">="
  | lessOrEqual => "<="

def words : List (String × BinaryOperator) := all.map fun o => (o.word, o)

def ofWord? (word : String) : Option BinaryOperator := words.lookup word

end BinaryOperator

inductive Condition where
  | unary (column : String) (operator : UnaryOperator)
  | binary (column : String) (operator : BinaryOperator) (value : Value)

namespace Condition

def column : Condition → String
  | unary column _ => column
  | binary column _ _ => column

/-- The value that the column is compared with. -/
def value? : Condition → Option Value
  | unary .. => none
  | binary _ _ value => some value

def unaryModel : Model Condition :=
  ⟨"UnaryCondition",
    (fun column _ operator => unary column operator) <$> required "column" Decoder.text <*>
      withDefault "arity" () (Decoder.only 1) <*>
      required "operator" (Decoder.choice UnaryOperator.words)⟩

def binaryModel : Model Condition :=
  ⟨"BinaryCondition",
    (fun column _ operator value => binary column operator value) <$>
      required "column" Decoder.text <*> withDefault "arity" () (Decoder.only 2) <*>
      required "operator" (Decoder.choice BinaryOperator.words) <*>
      required "value" Decoder.value⟩

/-- The two models by the number of operands. -/
def tags : List (Tag (Model Condition)) :=
  [.ofNumber 1 unaryModel, .ofNumber 2 binaryModel]

def decoder : Decoder Condition := fun source v =>
  match Tag.find "arity" tags v with
  | .error issues => .error issues
  | .ok tag => (tag.case.decoder source v).under tag.step

def toValue : Condition → Value
  | unary column operator =>
    .record [("column", .text column), ("arity", .int 1), ("operator", .text operator.word)]
  | binary column operator value =>
    .record
      [("column", .text column), ("arity", .int 2), ("operator", .text operator.word),
        ("value", value)]

end Condition
end SchemaClient
