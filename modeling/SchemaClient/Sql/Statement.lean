import SchemaClient.Command.Basic
import SchemaClient.Failure

/-!
# Statements

What is to be written as SQL, before anything is known to be right about it: operators and
directions are texts, counts are values, and a condition may be of a kind that has no SQL. Every
command is a statement; in it an absent list and an empty one are the same.
-/
namespace SchemaClient.Sql

/-- A condition that has not been checked. -/
inductive Test where
  | unary (column operator : String)
  | binary (column operator : String) (value : Value)
  /-- A condition of another kind, known by the name of the kind only. -/
  | foreign (kind : String)

structure Ordering where
  columns : List String
  direction : String

inductive Statement where
  | select (table : String) (selected : List String) (tests : List Test)
      (ordering : Option Ordering) (limit offset : Value)
  | insert (table : String) (columns : List String) (rows : List Record)
      (returning : List String)
  | update (table : String) (values : Record) (tests : List Test) (returning : List String)
  | delete (table : String) (tests : List Test) (returning : List String)
  | call (procedure : String) (parameters : List Value)

def Test.ofCondition : Condition → Test
  | .unary column operator => .unary column operator.word
  | .binary column operator value => .binary column operator.word value

def testsOf (conditions : Option (List Condition)) : List Test :=
  (conditions.getD []).map Test.ofCondition

def countOf : Option Nat → Value
  | none => .null
  | some n => .int n

def Ordering.ofOrderBy (o : OrderBy) : Ordering := ⟨o.columns, o.direction.word⟩

end Sql

def Command.statement : Command → Sql.Statement
  | select q =>
    .select q.table (q.selected.getD []) (Sql.testsOf q.conditions)
      (q.orderBy.map Sql.Ordering.ofOrderBy) (Sql.countOf q.limit) (Sql.countOf q.offset)
  | insert c => .insert c.table c.columns c.rows (c.returning.getD [])
  | update c => .update c.table c.values (Sql.testsOf c.conditions) (c.returning.getD [])
  | delete c => .delete c.table (Sql.testsOf c.conditions) (c.returning.getD [])
  | call c => .call c.procedure (c.parameters.getD [])

namespace Sql

inductive Fault where
  | noColumns
  | noRows
  | missingColumns (row : Nat) (columns : List String)
  | noValues
  | unknownOperator (operator : String)
  | unknownTest (kind : String)
  | unknownDirection (direction : String)
  | noOrderColumns
  | notCount (fault : CutFault)
  /-- A whole number that is no count and has more digits than are written. -/
  | notWritten (fault : CutFault)
  | notFinite (v : Value)
  | noLiteral (kind : String)
  | unknownDialect (name : String) (known : List String)

def Fault.failure : Fault → Failure
  | noColumns => .problem (.invalidCommand "Insert has no columns." "insert")
  | noRows => .problem (.invalidCommand "Insert has no rows." "insert")
  | missingColumns row columns =>
    .problem <| .invalidCommand
      ("Insert row " ++ Nat.repr row ++ " is missing columns: " ++ Text.quotedList columns ++ ".")
      "insert"
  | noValues => .problem (.invalidCommand "Update has no values." "update")
  | unknownOperator operator => uncompilable ("Unknown operator '" ++ operator ++ "'.") "WHERE"
  | unknownTest kind => uncompilable ("Unknown condition type: " ++ kind) "WHERE"
  | unknownDirection direction =>
    uncompilable ("Invalid order direction '" ++ direction ++ "'.") "ORDER BY"
  | noOrderColumns => uncompilable "ORDER BY has no columns." "ORDER BY"
  | notCount fault | notWritten fault => .uncut fault
  | notFinite v => uncompilable ("Cannot format non-finite number " ++ v.shown ++ ".") none
  | noLiteral kind =>
    uncompilable ("Cannot format value of type " ++ kind ++ " as a SQL literal.") none
  | unknownDialect name known =>
    uncompilable
      ("Unsupported dialect: '" ++ name ++ "'. Registered dialects: " ++ Text.quotedList known ++
        ".")
      none
where
  uncompilable (message : String) (clause : Option String) : Failure :=
    .problem (.uncompilable message clause)

end SchemaClient.Sql
