import SchemaClient.Command.Condition

/-!
# Commands

What a client asks of a database: to select, insert, update or delete rows of a table, or to call a
routine. Fields that may be absent keep an empty list apart from none.
-/
namespace SchemaClient

inductive Direction where
  | asc
  | desc
  deriving DecidableEq

namespace Direction

def word : Direction → String
  | asc => "asc"
  | desc => "desc"

def words : List (String × Direction) := [asc, desc].map fun d => (d.word, d)

end Direction

structure OrderBy where
  columns : List String
  direction : Direction
  columns_ne_nil : columns ≠ []
  deriving DecidableEq

/-- A selection of rows. No columns at all stand for all of them. -/
structure Select where
  table : String
  selected : Option (List String)
  conditions : Option (List Condition)
  limit : Option Nat
  offset : Option Nat
  orderBy : Option OrderBy

/-- Rows to insert; each has to have the listed columns. -/
structure Insert where
  table : String
  columns : List String
  rows : List Record
  returning : Option (List String)

structure Update where
  table : String
  values : Record
  conditions : Option (List Condition)
  returning : Option (List String)

structure Delete where
  table : String
  conditions : Option (List Condition)
  returning : Option (List String)

/-- A call of a routine with its arguments in order. -/
structure Call where
  procedure : String
  parameters : Option (List Value)

inductive Operation where
  | select
  | insert
  | update
  | delete
  | call
  deriving DecidableEq

namespace Operation

def all : List Operation := [select, insert, update, delete, call]

def name : Operation → String
  | select => "select"
  | insert => "insert"
  | update => "update"
  | delete => "delete"
  | call => "call"

def ofName? (name : String) : Option Operation := all.find? (·.name == name)

end Operation

inductive Command where
  | select (query : Select)
  | insert (command : Insert)
  | update (command : Update)
  | delete (command : Delete)
  | call (command : Call)

def Command.operation : Command → Operation
  | select _ => .select
  | insert _ => .insert
  | update _ => .update
  | delete _ => .delete
  | call _ => .call

end SchemaClient
