import SchemaClient.Command.Basic

/-!
# Commands as data

The models of the data of commands, and the data of a command: all of them, or, for a server, only
the fields that are not null. Null among the values of a row, of an update or of a call is a value
and always kept.
-/
namespace SchemaClient

open Validation
open Validation.Fields (required withDefault)

/-- Names of columns, of which there has to be one. -/
def OrderBy.columnsDecoder : Decoder { columns : List String // columns ≠ [] } :=
  fun source v =>
    match Decoder.list Decoder.text source v with
    | .error issues => .error issues
    | .ok [] => Validated.fail (.tooShort 1 0) v
    | .ok (first :: rest) => .ok ⟨first :: rest, List.cons_ne_nil first rest⟩

def OrderBy.model : Model OrderBy :=
  ⟨"OrderBy",
    (fun columns direction => ⟨columns.1, direction, columns.2⟩) <$>
      required "columns" OrderBy.columnsDecoder <*>
      withDefault "direction" .asc (Decoder.choice Direction.words)⟩

namespace Command

/-- A member that may be absent or null. -/
def optionalField {α : Type} (name : String) (decoder : Decoder α) : Fields (Option α) :=
  withDefault name none (Decoder.optional decoder)

def columnsField (name : String) : Fields (Option (List String)) :=
  optionalField name (Decoder.list Decoder.text)

def conditionsField : Fields (Option (List Condition)) :=
  optionalField "conditions" (Decoder.list Condition.decoder)

end Command

open Command (optionalField columnsField conditionsField)

def Select.model : Model Select :=
  ⟨"SelectQuery",
    Select.mk <$> required "table" Decoder.text <*> columnsField "selected" <*>
      conditionsField <*> optionalField "limit" Decoder.count <*>
      optionalField "offset" Decoder.count <*> optionalField "order_by" OrderBy.model.decoder⟩

def Insert.model : Model Insert :=
  ⟨"InsertCommand",
    Insert.mk <$> required "table" Decoder.text <*>
      withDefault "columns" [] (Decoder.list Decoder.text) <*>
      withDefault "rows" [] (Decoder.list Decoder.record) <*> columnsField "returning"⟩

def Update.model : Model Update :=
  ⟨"UpdateCommand",
    Update.mk <$> required "table" Decoder.text <*> withDefault "values" [] Decoder.record <*>
      conditionsField <*> columnsField "returning"⟩

def Delete.model : Model Delete :=
  ⟨"DeleteCommand",
    Delete.mk <$> required "table" Decoder.text <*> conditionsField <*>
      columnsField "returning"⟩

def Call.model : Model Call :=
  ⟨"CallCommand",
    Call.mk <$> required "procedure" Decoder.text <*>
      optionalField "parameters" (Decoder.list Decoder.value)⟩

def Operation.model : Operation → Model Command
  | .select => Select.model.map .select
  | .insert => Insert.model.map .insert
  | .update => Update.model.map .update
  | .delete => Delete.model.map .delete
  | .call => Call.model.map .call

def OrderBy.toValue (o : OrderBy) : Value :=
  .record
    [("columns", .texts o.columns), ("direction", .text o.direction.word)]

namespace Command

/-- What a field holds, or null. -/
def orNull {α : Type} (write : α → Value) (a : Option α) : Value := (a.map write).getD .null

def columnsValue (columns : Option (List String)) : Value :=
  orNull .texts columns

def countValue (n : Option Nat) : Value := orNull (fun n => .int (n : Int)) n

end Command

open Command (orNull columnsValue countValue)

/-- A way to write conditions. -/
abbrev ConditionWriter := Condition → Value

/-- Conditions, or null. -/
def ConditionWriter.list (write : ConditionWriter) (conditions : Option (List Condition)) : Value :=
  orNull (fun list => .list (list.map write)) conditions

def Select.fields (write : ConditionWriter) (q : Select) : Record :=
  [("table", .text q.table), ("selected", columnsValue q.selected),
    ("conditions", write.list q.conditions), ("limit", countValue q.limit),
    ("offset", countValue q.offset), ("order_by", orNull OrderBy.toValue q.orderBy)]

def Insert.fields (c : Insert) : Record :=
  [("table", .text c.table), ("columns", .texts c.columns),
    ("rows", .list (c.rows.map .record)), ("returning", columnsValue c.returning)]

def Update.fields (write : ConditionWriter) (c : Update) : Record :=
  [("table", .text c.table), ("values", .record c.values),
    ("conditions", write.list c.conditions), ("returning", columnsValue c.returning)]

def Delete.fields (write : ConditionWriter) (c : Delete) : Record :=
  [("table", .text c.table), ("conditions", write.list c.conditions),
    ("returning", columnsValue c.returning)]

def Call.fields (c : Call) : Record :=
  [("procedure", .text c.procedure), ("parameters", orNull .list c.parameters)]

/-- The fields of a command in the order of its model. -/
def Command.fields (write : ConditionWriter) : Command → Record
  | select q => q.fields write
  | insert c => c.fields
  | update c => c.fields write
  | delete c => c.fields write
  | call c => c.fields

def Command.toValue (c : Command) : Value := .record (c.fields Condition.toValue)

/-- The entries that are not null. -/
def withoutNulls (entries : Record) : Record :=
  entries.filter fun entry =>
    match entry.2 with
    | .null => false
    | _ => true

/-- The condition as it is sent, without a value that is null. -/
def Condition.sent (c : Condition) : Value :=
  match c.toValue with
  | .record entries => .record (withoutNulls entries)
  | v => v

/-- The command as it is sent, without the fields that are null. -/
def Command.sent (c : Command) : Record := withoutNulls (c.fields Condition.sent)

end SchemaClient
