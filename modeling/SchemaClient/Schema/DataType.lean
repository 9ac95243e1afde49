/-!
# Types of attributes

An attribute is a flag, a number, a text, a date, an array of one of these, or refers to an
enumeration or a composite type by name. Until a schema is resolved it may also refer to a type of
which only the name is known.
-/
namespace SchemaClient

/-- A type whose leaves may refer to things of kind `ρ`. -/
inductive TypeShape (ρ : Type) where
  | boolean
  | number
  | string
  | date
  | array (element : TypeShape ρ)
  | reference (target : ρ)
  deriving DecidableEq, Inhabited

/-- What a resolved type may refer to. -/
inductive Target where
  | enum (name : String)
  | composite (name : String)
  deriving DecidableEq

/-- What a type may refer to before it is resolved: a known target, or a name to be looked up. -/
inductive Reference where
  | known (target : Target)
  | unresolved (name : String)
  deriving DecidableEq

abbrev DataType := TypeShape Target

abbrev DraftType := TypeShape Reference

namespace TypeShape

variable {ρ σ : Type}

/-- The type with its reference replaced, under any number of arrays. -/
def map (f : ρ → σ) : TypeShape ρ → TypeShape σ
  | boolean => boolean
  | number => number
  | string => string
  | date => date
  | array element => array (element.map f)
  | reference target => reference (f target)

/-- What the type refers to, under any number of arrays. -/
def target? : TypeShape ρ → Option ρ
  | array element => element.target?
  | reference target => some target
  | _ => none

/-- The text of a type, given the texts of what it may refer to: two brackets for each array. -/
def describe (leaf : ρ → String) : TypeShape ρ → String
  | boolean => "boolean"
  | number => "number"
  | string => "string"
  | date => "date"
  | array element => element.describe leaf ++ "[]"
  | reference target => leaf target

end TypeShape

def Target.name : Target → String
  | enum name => name
  | composite name => name

/-- The text of a reference; a question mark stands before a name still to be looked up. -/
def Reference.text : Reference → String
  | known target => target.name
  | unresolved name => "?" ++ name

def DataType.text (type : DataType) : String := type.describe Target.name

def DraftType.text (type : DraftType) : String := type.describe Reference.text

/-- The type as one that might have been unresolved. -/
def DataType.toDraft (type : DataType) : DraftType := type.map .known

def DraftType.isUnresolved (type : DraftType) : Bool :=
  match type.target? with
  | some (.unresolved _) => true
  | _ => false

end SchemaClient
