import SchemaClient.Command.Interchange
import SchemaClient.Failure
import SchemaClient.Schema.Basic

/-!
# Chains

A chain is a command for a table that is put together call by call. Names of columns are checked
against the table when they are given, so that a wrong one fails where it stands. A call that fails
leaves the command as it was, but for one thing: the list of conditions, once a condition for a
column of the table was tried, is there and empty instead of absent.
-/
namespace SchemaClient

open Validation (Validated Decoder)

/-- What a collection consists of; of a record, the names. -/
def Value.parts? : Value → Option (List Value)
  | .list items | .tuple items => some items
  | .record entries => some (entries.map fun entry => .text entry.1)
  | .text s => some (s.toList.map fun c => .text (String.singleton c))
  | .bytes content => some (content.map fun b => .int b.toNat)
  | _ => none

/-- The parts of a value that has to be a collection. -/
def Value.parts (v : Value) : Except Failure (List Value) :=
  match v.parts? with
  | some items => .ok items
  | none => .error (.notCollection v.kindName)

/-- The names in a collection; a single name is not taken for a collection of its letters. -/
def Value.nameList (v : Value) : Except Failure (List Value) :=
  match v with
  | .text s => .error (.singleName s)
  | v => v.parts

def allColumns : String := "*"

def Value.isAllColumns : Value → Bool
  | .text s => s == allColumns
  | _ => false

namespace Table

variable {τ : Type}

/-- The name of a column of the table. -/
def checkColumn (t : Table τ) (column : Value) : Except Failure String :=
  match column with
  | .text s =>
    if t.columnNames.contains s then .ok s
    else .error (.problem (.unknownColumn t.name column t.columnNames))
  | v => .error (.problem (.unknownColumn t.name v t.columnNames))

/-- The names of columns of the table, up to the first that is none. -/
def checkColumns (t : Table τ) (columns : List Value) : Except Failure (List String) :=
  columns.mapM t.checkColumn

end Table

namespace Condition

/-- The condition of a column that two or three arguments describe: a value that the column is equal
to, a unary operator, or a binary operator and a value. -/
def ofArguments (column : String) (operator : Value) (value : Option Value) :
    Except Problem Condition :=
  let word? : Option String :=
    match operator with
    | .text s => some s
    | _ => none
  match value with
  | some v =>
    match word?.bind BinaryOperator.ofWord? with
    | some o => .ok (.binary column o v)
    | none => .error (.invalidOperator operator (BinaryOperator.all.map (·.word)))
  | none =>
    match word?.bind UnaryOperator.ofWord? with
    | some o => .ok (.unary column o)
    | none => .ok (.binary column .equal operator)

def modelOf : Condition → Validation.Model Condition
  | unary .. => unaryModel
  | binary .. => binaryModel

/-- The condition that arguments describe, for a column that need not be a name. -/
def ofValues (column operator : Value) (value : Option Value) : Except Failure Condition := do
  let shape ← Failure.ofProblem (ofArguments "" operator value)
  match shape.toValue with
  | .record entries =>
    Failure.ofRejection (shape.modelOf.read (.record (Entries.put entries "column" column)))
  | v => Failure.ofRejection (shape.modelOf.read v)

end Condition

/-- A command for a table, on its way. -/
structure Chain where
  table : Table DataType
  command : Command

namespace Chain

/-- A selection of columns, or of all of them. -/
def select (table : Table DataType) (columns : Value) : Except Failure Chain := do
  let selected ←
    if columns.isAllColumns then pure none
    else some <$> (columns.nameList >>= table.checkColumns)
  pure ⟨table, .select ⟨table.name, selected, none, none, none, none⟩⟩

/-- A row as a mapping of its own. A collection of pairs is one too, and the parts of any collection
of two are a pair. -/
def rowOf (v : Value) : Except Failure Mapping :=
  match v with
  | .record entries => .ok (entries.map fun (name, value) => (.text name, value))
  | v => v.parts >>= addPairs [] 0
where
  /-- Adds the pairs from number `position` on to the entries of a mapping. -/
  addPairs (entries : Mapping) (position : Nat) : List Value → Except Failure Mapping
    | [] => .ok entries
    | item :: rest =>
      match item.parts? with
      | none => .error (.notEntry position)
      | some [key, value] =>
        match key.keyFault? with
        | some fault => .error (.notKey fault)
        | none => addPairs (entries.put key value) (position + 1) rest
      | some parts => .error (.entryLength position parts.length)

/-- The rows in a collection; nothing stands for none. -/
def rowsOf (v : Value) : Except Failure (List Mapping) :=
  if v.isNothing then .ok [] else v.parts >>= List.mapM rowOf

/-- A command of a model, of which only the rows have to be read. -/
def withRows {α : Type} (operation : Operation) (rows : Validated α) (command : α → Command) :
    Except Failure Command :=
  (Failure.ofRejection (operation.model.conclude .values rows)).map command

/-- An insertion of one row, or of columns and rows that have them. -/
def insert (table : Table DataType) (rowOrColumns rows : Value) : Except Failure Chain := do
  let (columns, mappings) ←
    match rowOrColumns, rows with
    | .record entries, .null =>
      pure (entries.map fun entry => Value.text entry.1, [← rowOf rowOrColumns])
    | .record _, _ => .error .rowsBesideRow
    | columns, rows => pure (← columns.nameList, ← rowsOf rows)
  let names ← table.checkColumns columns
  let records := (Decoder.itemsFrom Decoder.mapping 0 mappings).under (.name "rows")
  let command ← withRows .insert records fun rows => .insert ⟨table.name, names, rows, none⟩
  pure ⟨table, command⟩

def update (table : Table DataType) (row : Value) : Except Failure Chain := do
  let _ ← row.parts >>= table.checkColumns
  let values := (Decoder.mapping (← rowOf row)).under (.name "values")
  let command ← withRows .update values fun values => .update ⟨table.name, values, none, none⟩
  pure ⟨table, command⟩

def delete (table : Table DataType) : Chain := ⟨table, .delete ⟨table.name, none, none⟩⟩

inductive Step where
  | condition (column operator : Value) (value : Option Value)
  | limit (n : Value)
  | offset (n : Value)
  | order (columns direction : Value)
  | returning (columns : Value)

/-- The conditions of a command that may have some. -/
def conditions? : Command → Option (Option (List Condition))
  | .select q => some q.conditions
  | .update c => some c.conditions
  | .delete c => some c.conditions
  | .insert _ | .call _ => none

def withConditions (conditions : List Condition) : Command → Command
  | .select q => .select { q with conditions := some conditions }
  | .update c => .update { c with conditions := some conditions }
  | .delete c => .delete { c with conditions := some conditions }
  | command => command

def withReturning (columns : List String) : Command → Option Command
  | .insert c => some (.insert { c with returning := some columns })
  | .update c => some (.update { c with returning := some columns })
  | .delete c => some (.delete { c with returning := some columns })
  | .select _ | .call _ => none

/-- The columns of a table to return: all of them, or those of a collection. -/
def returningColumns (table : Table DataType) (columns : Value) : Except Failure (List String) :=
  if columns.isAllColumns then .ok [allColumns]
  else columns.nameList >>= table.checkColumns

def countField (name : String) (n : Value) : Except Failure (Option Nat) :=
  Failure.ofRejection <| Select.model.conclude .values <|
    (Validation.Decoder.optional Validation.Decoder.count .values n).under (.name name)

/-- The ordering by columns, of which there has to be one. -/
def orderedBy (direction : Direction) : List String → Except Failure OrderBy
  | [] =>
    let empty := Value.record [("columns", .list []), ("direction", .text direction.word)]
    Failure.ofRejection (OrderBy.model.read empty)
  | first :: rest => .ok ⟨first :: rest, direction, List.cons_ne_nil first rest⟩

/-- The ordering by columns of a table. The direction is looked at first. -/
def ordering (table : Table DataType) (columns direction : Value) : Except Failure OrderBy := do
  let word ←
    match direction with
    | .text s =>
      match Direction.words.lookup s with
      | some d => pure d
      | none => .error (.problem (.invalidDirection direction))
    | v => .error (.problem (.invalidDirection v))
  orderedBy word (← columns.nameList >>= table.checkColumns)

/-- What messages call a chain by the operation of its command. -/
def kindName : Operation → String
  | .select => "SelectBuilder"
  | .insert => "InsertBuilder"
  | .update => "UpdateBuilder"
  | .delete => "DeleteBuilder"
  | .call => "CallBuilder"

/-- The failure of a call that a chain does not have. -/
def noSuchCall (chain : Chain) (name : String) : Failure :=
  .unknownCall (kindName chain.command.operation) name

def addCondition (chain : Chain) (column operator : Value) (value : Option Value) :
    Chain × Except Failure Unit :=
  match conditions? chain.command with
  | none => (chain, .error (chain.noSuchCall "where"))
  | some conditions =>
    match chain.table.checkColumn column with
    | .error failure => (chain, .error failure)
    | .ok name =>
      let before := conditions.getD []
      match Condition.ofArguments name operator value with
      | .error p =>
        ({ chain with command := withConditions before chain.command }, .error (.problem p))
      | .ok condition =>
        ({ chain with command := withConditions (before ++ [condition]) chain.command }, .ok ())

/-- The chain with a field of its selection set to a result, if there is one. -/
def setSelection {α : Type} (chain : Chain) (name : String) (result : Except Failure α)
    (set : α → Select → Select) : Chain × Except Failure Unit :=
  match chain.command with
  | .select q =>
    match result with
    | .ok a => ({ chain with command := .select (set a q) }, .ok ())
    | .error failure => (chain, .error failure)
  | _ => (chain, .error (chain.noSuchCall name))

/-- The chain after a call, and whether the call failed. -/
def apply (chain : Chain) : Step → Chain × Except Failure Unit
  | .condition column operator value => chain.addCondition column operator value
  | .limit n =>
    chain.setSelection "limit" (countField "limit" n) fun limit q => { q with limit := limit }
  | .offset n =>
    chain.setSelection "offset" (countField "offset" n) fun offset q => { q with offset := offset }
  | .order columns direction =>
    chain.setSelection "order_by" (ordering chain.table columns direction) fun orderBy q =>
      { q with orderBy := some orderBy }
  | .returning columns =>
    match withReturning [] chain.command, returningColumns chain.table columns with
    | none, _ => (chain, .error (chain.noSuchCall "returning"))
    | some _, .error failure => (chain, .error failure)
    | some _, .ok names =>
      ({ chain with command := (withReturning names chain.command).getD chain.command }, .ok ())

/-- The name of the call that ends a chain. -/
def lastCall : Operation → String
  | .select => "fetch"
  | _ => "execute"

/-- The chain after several calls, of which some may have failed. -/
def run (chain : Chain) (steps : List Step) : Chain :=
  steps.foldl (fun chain step => (chain.apply step).1) chain

end Chain
end SchemaClient
