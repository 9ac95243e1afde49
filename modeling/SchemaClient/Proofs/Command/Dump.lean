import SchemaClient.Proofs.Command.Interchange

/-!
# Commands that are written and read

With all its fields in it, null or not, a command as data is read as the command it was: its own
model takes it as it is.
-/
namespace SchemaClient

open Validation
open Validation.Fields (required withDefault outcome_required outcome_withDefault outcome_readAll
  outcome_map outcome_seq)

section Parts

variable {source : Source}

theorem outcome_optionalField {α : Type} {entries : Record} {name : String} {decoder : Decoder α}
    (write : α → Value) {held : Option α}
    (hv : entries.lookup name = some (Command.orNull write held))
    (hnull : ∀ a, (write a).notNull? = some (write a))
    (h : ∀ a, Outcome False (decoder source (write a)) a) :
    Outcome False ((Command.optionalField name decoder).read source entries) held := by
  refine outcome_withDefault hv ?_
  cases held with
  | none => exact .of_ok rfl
  | some a =>
    have ha := (h a).map some
    rwa [← optional_of_notNull (hnull a)] at ha

theorem outcome_columnsField {entries : Record} (name : String) {columns : Option (List String)}
    (hv : entries.lookup name = some (Command.columnsValue columns)) :
    Outcome False ((Command.columnsField name).read source entries) columns :=
  outcome_optionalField .texts hv (fun _ => rfl) outcome_texts

theorem outcome_countField {entries : Record} (name : String) {n : Option Nat}
    (hv : entries.lookup name = some (Command.countValue n)) :
    Outcome False ((Command.optionalField name Decoder.count).read source entries) n :=
  outcome_optionalField (fun n : Nat => .int n) (hv.trans (congrArg some (countValue_eq n)))
    (fun _ => rfl) outcome_count

theorem outcome_binaryWritten (column : String) (operator : BinaryOperator) (v : Value) :
    Outcome False (Condition.decoder source (Condition.binary column operator v).toValue)
      (.binary column operator v) := by
  let entries := (Condition.binary column operator v).entries
  have hcolumn : Outcome False ((required "column" Decoder.text).read source entries) column :=
    outcome_required rfl (outcome_text column)
  have harity : Outcome False ((withDefault "arity" () (Decoder.only 2)).read source entries) () :=
    outcome_withDefault rfl (outcome_only 2)
  have hoperator : Outcome False
      ((required "operator" (Decoder.choice BinaryOperator.words)).read source entries) operator :=
    outcome_required rfl (outcome_binaryOperator operator)
  have hvalue : Outcome False ((required "value" Decoder.value).read source entries) v :=
    outcome_required rfl (outcome_value v)
  have hread := outcome_seq (outcome_seq (outcome_seq
    (outcome_map hcolumn fun column _ operator v => Condition.binary column operator v) harity)
    hoperator) hvalue
  have hnames : ∀ name ∈ ["column", "arity", "operator", "value"],
      name ∈ Condition.binaryModel.fields.names := by decide
  have hdecoded := (outcome_readAll hread hnames).under (.number 2)
  have hwritten : (Condition.binary column operator v).toValue = .record entries := rfl
  rw [hwritten, Condition.decoder, find_binary rfl]
  exact hdecoded.congr (by simp)

/-- Unlike a condition that is sent, one that is written keeps the value that it compares with. -/
theorem outcome_conditionWritten (c : Condition) :
    Outcome False (Condition.decoder source c.toValue) c := by
  cases c with
  | unary column operator => exact outcome_unary column operator
  | binary column operator v => exact outcome_binaryWritten column operator v

theorem outcome_conditionsField {entries : Record} {conditions : Option (List Condition)}
    (hv : entries.lookup "conditions" = some (ConditionWriter.list Condition.toValue conditions)) :
    Outcome False (Command.conditionsField.read source entries) conditions :=
  outcome_optionalField (fun list : List Condition => .list (list.map Condition.toValue)) hv
    (fun _ => rfl) fun _ => (outcome_list fun c _ => outcome_conditionWritten c).congr (by simp)

theorem outcome_selectFields (q : Select) :
    Outcome False (Select.model.fields.read source (q.fields Condition.toValue)) q := by
  have htable : Outcome False
      ((required "table" Decoder.text).read source (q.fields Condition.toValue)) q.table :=
    outcome_required rfl (outcome_text q.table)
  have horder : Outcome False ((Command.optionalField "order_by" OrderBy.model.decoder).read source
      (q.fields Condition.toValue)) q.orderBy :=
    outcome_optionalField OrderBy.toValue rfl (fun _ => rfl) outcome_orderBy
  have hread := outcome_seq (outcome_seq (outcome_seq (outcome_seq (outcome_seq
    (outcome_map htable Select.mk) (outcome_columnsField "selected" rfl))
    (outcome_conditionsField rfl)) (outcome_countField "limit" rfl))
    (outcome_countField "offset" rfl)) horder
  exact hread.congr (by simp)

theorem outcome_insertFields (c : Insert) :
    Outcome False (Insert.model.fields.read source c.fields) c := by
  have htable : Outcome False ((required "table" Decoder.text).read source c.fields) c.table :=
    outcome_required rfl (outcome_text c.table)
  have hcolumns : Outcome False
      ((withDefault "columns" [] (Decoder.list Decoder.text)).read source c.fields) c.columns :=
    outcome_withDefault rfl (outcome_texts c.columns)
  have hrows : Outcome False
      ((withDefault "rows" [] (Decoder.list Decoder.record)).read source c.fields) c.rows :=
    outcome_withDefault rfl (outcome_records c.rows)
  have hread := outcome_seq (outcome_seq (outcome_seq
    (outcome_map htable Insert.mk) hcolumns) hrows) (outcome_columnsField "returning" rfl)
  exact hread.congr (by simp)

theorem outcome_updateFields (c : Update) :
    Outcome False (Update.model.fields.read source (c.fields Condition.toValue)) c := by
  have htable : Outcome False
      ((required "table" Decoder.text).read source (c.fields Condition.toValue)) c.table :=
    outcome_required rfl (outcome_text c.table)
  have hvalues : Outcome False
      ((withDefault "values" [] Decoder.record).read source (c.fields Condition.toValue)) c.values :=
    outcome_withDefault rfl (outcome_record c.values)
  have hread := outcome_seq (outcome_seq (outcome_seq
    (outcome_map htable Update.mk) hvalues) (outcome_conditionsField rfl))
    (outcome_columnsField "returning" rfl)
  exact hread.congr (by simp)

theorem outcome_deleteFields (c : Delete) :
    Outcome False (Delete.model.fields.read source (c.fields Condition.toValue)) c := by
  have htable : Outcome False
      ((required "table" Decoder.text).read source (c.fields Condition.toValue)) c.table :=
    outcome_required rfl (outcome_text c.table)
  have hread := outcome_seq (outcome_seq
    (outcome_map htable Delete.mk) (outcome_conditionsField rfl))
    (outcome_columnsField "returning" rfl)
  exact hread.congr (by simp)

theorem outcome_callFields (c : Call) :
    Outcome False (Call.model.fields.read source c.fields) c := by
  have hprocedure : Outcome False
      ((required "procedure" Decoder.text).read source c.fields) c.procedure :=
    outcome_required rfl (outcome_text c.procedure)
  have hparameters : Outcome False
      ((Command.optionalField "parameters" (Decoder.list Decoder.value)).read source c.fields)
      c.parameters :=
    outcome_optionalField .list rfl (fun _ => rfl) outcome_values
  have hread := outcome_seq (outcome_map hprocedure Call.mk) hparameters
  exact hread.congr (by simp)

end Parts

/-- The data of a command hold the command. -/
theorem Command.outcome_written (c : Command) (source : Source) :
    Outcome False (c.operation.model.decoder source c.toValue) c := by
  cases c with
  | select q =>
    have hnames : ∀ name ∈ ["table", "selected", "conditions", "limit", "offset", "order_by"],
        name ∈ (Operation.select.model).fields.names := by decide
    exact outcome_readAll (outcome_map (outcome_selectFields q) Command.select) hnames
  | insert c =>
    have hnames : ∀ name ∈ ["table", "columns", "rows", "returning"],
        name ∈ (Operation.insert.model).fields.names := by decide
    exact outcome_readAll (outcome_map (outcome_insertFields c) Command.insert) hnames
  | update c =>
    have hnames : ∀ name ∈ ["table", "values", "conditions", "returning"],
        name ∈ (Operation.update.model).fields.names := by decide
    exact outcome_readAll (outcome_map (outcome_updateFields c) Command.update) hnames
  | delete c =>
    have hnames : ∀ name ∈ ["table", "conditions", "returning"],
        name ∈ (Operation.delete.model).fields.names := by decide
    exact outcome_readAll (outcome_map (outcome_deleteFields c) Command.delete) hnames
  | call c =>
    have hnames : ∀ name ∈ ["procedure", "parameters"],
        name ∈ (Operation.call.model).fields.names := by decide
    exact outcome_readAll (outcome_map (outcome_callFields c) Command.call) hnames

theorem Command.read_toValue (c : Command) : c.operation.model.read c.toValue = .ok c := by
  rw [Model.read, (c.outcome_written .values).accepted not_false]
  rfl

end SchemaClient
