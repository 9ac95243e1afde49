import SchemaClient.Command.Interchange
import SchemaClient.Proofs.Validation.Outcome

/-!
# Commands that are sent and read

What a server reads of a command as it is sent. Fields that are null are not sent and are read as
absent ones, which is what they were; but a comparison with null loses its value, and without one it
is no comparison any more.
-/
namespace SchemaClient

open Validation
open Validation.Fields (required withDefault outcome_required outcome_withDefault outcome_absent
  outcome_readAll outcome_map outcome_seq refused_absent)

/-- The value, if it is not null. -/
def Value.notNull? : Value → Option Value
  | .null => none
  | v => some v

theorem withoutNulls_cons (name : String) (v : Value) (rest : Record) :
    withoutNulls ((name, v) :: rest) =
      (v.notNull?.map fun v => (name, v)).toList ++ withoutNulls rest := by
  cases v <;> rfl

theorem mem_names_withoutNulls {entries : Record} {name : String}
    (h : name ∈ Entries.names (withoutNulls entries)) : name ∈ Entries.names entries := by
  obtain ⟨entry, hentry, rfl⟩ := List.mem_map.mp h
  exact List.mem_map_of_mem (List.mem_filter.mp hentry).1

theorem lookup_entry (key name : String) (v? : Option Value) :
    (v?.map fun v => (key, v)).toList.lookup name = if name = key then v? else none := by
  cases v? with
  | none => simp
  | some v =>
    by_cases h : name = key
    · simp [h]
    · simp [beq_false_of_ne h, h, List.lookup_cons]

theorem lookup_withoutNulls {entries : Record} (h : (Entries.names entries).Nodup) (name : String) :
    (withoutNulls entries).lookup name = (entries.lookup name).bind Value.notNull? := by
  induction entries with
  | nil => rfl
  | cons entry rest ih =>
    obtain ⟨key, v⟩ := entry
    rw [Entries.names, List.map_cons, List.nodup_cons] at h
    obtain ⟨hkey, hrest⟩ := h
    rw [withoutNulls_cons, List.lookup_append, lookup_entry, List.lookup_cons, ih hrest]
    by_cases hname : name = key
    · subst hname
      have habsent : rest.lookup name = none := by
        rw [← Option.not_isSome_iff_eq_none, Entries.lookup_isSome_iff_mem]
        exact hkey
      simp [habsent]
    · simp [beq_false_of_ne hname, hname]

theorem withoutNulls_fst {entries : Record} {names : List String}
    (h : ∀ name ∈ Entries.names entries, name ∈ names) :
    ∀ name ∈ Entries.names (withoutNulls entries), name ∈ names :=
  fun name hname => h name (mem_names_withoutNulls hname)

theorem Select.nodup_fields (q : Select) (write : ConditionWriter) : (Entries.names (q.fields write)).Nodup := by
  change ["table", "selected", "conditions", "limit", "offset", "order_by"].Nodup
  decide

theorem Insert.nodup_fields (c : Insert) : (Entries.names c.fields).Nodup := by
  change ["table", "columns", "rows", "returning"].Nodup
  decide

theorem Update.nodup_fields (c : Update) (write : ConditionWriter) : (Entries.names (c.fields write)).Nodup := by
  change ["table", "values", "conditions", "returning"].Nodup
  decide

theorem Delete.nodup_fields (c : Delete) (write : ConditionWriter) : (Entries.names (c.fields write)).Nodup := by
  change ["table", "conditions", "returning"].Nodup
  decide

theorem Call.nodup_fields (c : Call) : (Entries.names c.fields).Nodup := by
  change ["procedure", "parameters"].Nodup
  decide

/-- The members of a condition as data. -/
def Condition.entries : Condition → Record
  | .unary column operator =>
    [("column", .text column), ("arity", .int 1), ("operator", .text operator.word)]
  | .binary column operator value =>
    [("column", .text column), ("arity", .int 2), ("operator", .text operator.word), ("value", value)]

theorem Condition.sent_eq (c : Condition) : c.sent = .record (withoutNulls c.entries) := by
  cases c <;> rfl

theorem Condition.nodup_entries (c : Condition) : (Entries.names c.entries).Nodup := by
  cases c with
  | unary =>
    change ["column", "arity", "operator"].Nodup
    decide
  | binary =>
    change ["column", "arity", "operator", "value"].Nodup
    decide

section Fields

variable {α : Type} {p : Prop} {entries : Record} {name : String} {source : Source}
  {decoder : Decoder α} {a : α}

theorem outcome_requiredSent (hnames : (Entries.names entries).Nodup) {v : Value}
    (hv : entries.lookup name = some v) (hnull : v.notNull? = some v)
    (h : Outcome p (decoder source v) a) :
    Outcome p ((required name decoder).read source (withoutNulls entries)) a := by
  refine outcome_required ?_ h
  rw [lookup_withoutNulls hnames, hv]
  exact hnull

theorem outcome_defaultSent (hnames : (Entries.names entries).Nodup) {default : α} {v : Value}
    (hv : entries.lookup name = some v) (hnull : v.notNull? = some v)
    (h : Outcome p (decoder source v) a) :
    Outcome p ((withDefault name default decoder).read source (withoutNulls entries)) a := by
  refine outcome_withDefault ?_ h
  rw [lookup_withoutNulls hnames, hv]
  exact hnull

theorem optional_of_notNull {v : Value} (h : v.notNull? = some v) :
    Decoder.optional decoder source v = (decoder source v).map some := by
  cases v with
  | null => cases h
  | _ => rfl

/-- A field that holds nothing is not sent and read as absent; any other is read as what it
holds. -/
theorem outcome_optionalSent (hnames : (Entries.names entries).Nodup) (write : α → Value)
    {held : Option α} {faulty : α → Prop}
    (hv : entries.lookup name = some (Command.orNull write held))
    (hnull : ∀ a, (write a).notNull? = some (write a))
    (h : ∀ a ∈ held, Outcome (faulty a) (decoder source (write a)) a) :
    Outcome (∃ a ∈ held, faulty a)
      ((Command.optionalField name decoder).read source (withoutNulls entries)) held := by
  have hlookup := lookup_withoutNulls hnames name
  rw [hv] at hlookup
  cases held with
  | none => exact (outcome_absent hlookup).congr (by simp)
  | some a =>
    have ha : Outcome (faulty a) (Decoder.optional decoder source (write a)) (some a) := by
      rw [optional_of_notNull (hnull a)]
      exact (h a rfl).map some
    have hsent : (withoutNulls entries).lookup name = some (write a) := hlookup.trans (hnull a)
    exact (outcome_withDefault hsent ha).congr (by simp)

theorem outcome_faultlessSent (hnames : (Entries.names entries).Nodup) (write : α → Value)
    {held : Option α} (hv : entries.lookup name = some (Command.orNull write held))
    (hnull : ∀ a, (write a).notNull? = some (write a))
    (h : ∀ a, Outcome False (decoder source (write a)) a) :
    Outcome False ((Command.optionalField name decoder).read source (withoutNulls entries)) held :=
  (outcome_optionalSent hnames write hv hnull fun a _ => h a).congr (by simp)

end Fields

section Parts

variable {source : Source}

theorem outcome_text (s : String) : Outcome False (Decoder.text source (.text s)) s := .of_ok rfl

theorem outcome_texts (texts : List String) :
    Outcome False (Decoder.list Decoder.text source (Value.texts texts)) texts :=
  (outcome_list fun s _ => outcome_text s).congr (by simp)

theorem outcome_count (n : Nat) : Outcome False (Decoder.count source (.int (n : Int))) n := .of_ok rfl

theorem outcome_record (entries : Record) :
    Outcome False (Decoder.record source (.record entries)) entries := .of_ok rfl

theorem outcome_records (rows : List Record) :
    Outcome False (Decoder.list Decoder.record source (.list (rows.map .record))) rows :=
  (outcome_list fun row _ => outcome_record row).congr (by simp)

theorem outcome_values (values : List Value) :
    Outcome False (Decoder.list Decoder.value source (.list values)) values := by
  have hvalue : ∀ v ∈ values, Outcome False (Decoder.value source (id v)) v := fun v _ => .of_ok rfl
  have hall := outcome_list hvalue
  rw [List.map_id] at hall
  exact hall.congr (by simp)

theorem outcome_direction (d : Direction) :
    Outcome False (Decoder.choice Direction.words source (.text d.word)) d := by
  cases d <;> exact .of_ok rfl

theorem outcome_columns (o : OrderBy) :
    Outcome False (OrderBy.columnsDecoder source (Value.texts o.columns))
      ⟨o.columns, o.columns_ne_nil⟩ := by
  obtain ⟨columns, direction, hne⟩ := o
  obtain ⟨first, rest, rfl⟩ := List.exists_cons_of_ne_nil hne
  have hlist : Decoder.list Decoder.text source (Value.texts (first :: rest)) = .ok (first :: rest) :=
    (outcome_texts (first :: rest)).accepted not_false
  refine .of_ok ?_
  rw [OrderBy.columnsDecoder, hlist]

theorem outcome_orderBy (o : OrderBy) : Outcome False (OrderBy.model.decoder source o.toValue) o := by
  let entries : Record := [("columns", .texts o.columns), ("direction", .text o.direction.word)]
  have hcolumns : Outcome False ((required "columns" OrderBy.columnsDecoder).read source entries)
      ⟨o.columns, o.columns_ne_nil⟩ :=
    outcome_required rfl (outcome_columns o)
  have hdirection : Outcome False
      ((withDefault "direction" .asc (Decoder.choice Direction.words)).read source entries)
      o.direction :=
    outcome_withDefault rfl (outcome_direction o.direction)
  have hread := outcome_seq
    (outcome_map hcolumns fun columns direction => (⟨columns.1, direction, columns.2⟩ : OrderBy))
    hdirection
  have hnames : ∀ name ∈ ["columns", "direction"], name ∈ OrderBy.model.fields.names := by decide
  exact (outcome_readAll hread hnames).congr (by simp)

/-- Whether a condition compares a column with null. -/
def Condition.ComparesNull : Condition → Prop
  | .binary _ _ .null => True
  | _ => False

theorem outcome_unaryOperator (o : UnaryOperator) :
    Outcome False (Decoder.choice UnaryOperator.words source (.text o.word)) o := by
  cases o <;> exact .of_ok rfl

theorem outcome_binaryOperator (o : BinaryOperator) :
    Outcome False (Decoder.choice BinaryOperator.words source (.text o.word)) o := by
  cases o <;> exact .of_ok rfl

theorem outcome_only (n : Nat) : Outcome False (Decoder.only n source (.int n)) () := by
  refine .of_ok ?_
  rw [Decoder.only, Decoder.isNumber, if_pos]
  exact beq_self_eq_true _

/-- The tag of a condition is found by the number of its operands. -/
theorem find_unary {entries : Record} (h : entries.lookup "arity" = some (.int 1)) :
    Tag.find "arity" Condition.tags (.record entries) = .ok (.ofNumber 1 Condition.unaryModel) := by
  rw [Tag.find]
  simp only [h]
  rfl

theorem find_binary {entries : Record} (h : entries.lookup "arity" = some (.int 2)) :
    Tag.find "arity" Condition.tags (.record entries) = .ok (.ofNumber 2 Condition.binaryModel) := by
  rw [Tag.find]
  simp only [h]
  rfl

theorem outcome_unary (column : String) (operator : UnaryOperator) :
    Outcome False (Condition.decoder source (Condition.unary column operator).sent)
      (.unary column operator) := by
  let entries := (Condition.unary column operator).entries
  have hcolumn : Outcome False ((required "column" Decoder.text).read source entries) column :=
    outcome_required rfl (outcome_text column)
  have harity : Outcome False ((withDefault "arity" () (Decoder.only 1)).read source entries) () :=
    outcome_withDefault rfl (outcome_only 1)
  have hoperator : Outcome False
      ((required "operator" (Decoder.choice UnaryOperator.words)).read source entries) operator :=
    outcome_required rfl (outcome_unaryOperator operator)
  have hread := outcome_seq (outcome_seq
    (outcome_map hcolumn fun column _ operator => Condition.unary column operator) harity) hoperator
  have hnames : ∀ name ∈ ["column", "arity", "operator"],
      name ∈ Condition.unaryModel.fields.names := by decide
  have hdecoded := (outcome_readAll hread hnames).under (.number 1)
  have hsent : (Condition.unary column operator).sent = .record entries := rfl
  rw [hsent, Condition.decoder, find_unary rfl]
  exact hdecoded.congr (by simp)

theorem outcome_value (v : Value) : Outcome False (Decoder.value source v) v := .of_ok rfl

/-- A comparison is read as it was, unless its value is null and has not been sent. -/
theorem outcome_binary (column : String) (operator : BinaryOperator) (v : Value) :
    Outcome (v = .null) (Condition.decoder source (Condition.binary column operator v).sent)
      (.binary column operator v) := by
  let entries := (Condition.binary column operator v).entries
  have hdistinct : (Entries.names entries).Nodup := Condition.nodup_entries _
  have hcolumn : Outcome False
      ((required "column" Decoder.text).read source (withoutNulls entries)) column :=
    outcome_requiredSent hdistinct rfl rfl (outcome_text column)
  have harity : Outcome False
      ((withDefault "arity" () (Decoder.only 2)).read source (withoutNulls entries)) () :=
    outcome_defaultSent hdistinct rfl rfl (outcome_only 2)
  have hoperator : Outcome False
      ((required "operator" (Decoder.choice BinaryOperator.words)).read source
        (withoutNulls entries)) operator :=
    outcome_requiredSent hdistinct rfl rfl (outcome_binaryOperator operator)
  have hvalue : Outcome (v = .null)
      ((required "value" Decoder.value).read source (withoutNulls entries)) v := by
    constructor
    · intro hv
      have hkept : v.notNull? = some v := by
        cases v with
        | null => exact absurd rfl hv
        | _ => rfl
      exact (outcome_requiredSent hdistinct rfl hkept (outcome_value v)).accepted not_false
    · -- Null is dropped like a field that holds nothing, but here the field has to be there.
      rintro rfl
      exact refused_absent rfl
  have hread := outcome_seq (outcome_seq (outcome_seq
    (outcome_map hcolumn fun column _ operator v => Condition.binary column operator v) harity)
    hoperator) hvalue
  have hnames : ∀ name ∈ ["column", "arity", "operator", "value"],
      name ∈ Condition.binaryModel.fields.names := by decide
  have hdecoded := (outcome_readAll hread (withoutNulls_fst hnames)).under (.number 2)
  have htag : (withoutNulls entries).lookup "arity" = some (.int 2) := rfl
  rw [Condition.sent_eq, Condition.decoder, find_binary htag]
  exact hdecoded.congr (by simp)

theorem outcome_condition (c : Condition) :
    Outcome c.ComparesNull (Condition.decoder source c.sent) c := by
  cases c with
  | unary column operator => exact outcome_unary column operator
  | binary column operator v =>
    refine (outcome_binary column operator v).congr ?_
    cases v <;> simp [Condition.ComparesNull]

theorem outcome_conditions (conditions : List Condition) :
    Outcome (∃ c ∈ conditions, c.ComparesNull)
      (Decoder.list Condition.decoder source (.list (conditions.map Condition.sent))) conditions :=
  outcome_list fun c _ => outcome_condition c

theorem countValue_eq (n : Option Nat) :
    Command.countValue n = Command.orNull (fun n : Nat => .int n) n := by
  cases n <;> rfl

/-- Whether one of the conditions of a command, if it has any, compares a column with null. -/
def AnyComparesNull (conditions : Option (List Condition)) : Prop :=
  ∃ list ∈ conditions, ∃ c ∈ list, c.ComparesNull

theorem outcome_conditionsSent {entries : Record} (hnames : (Entries.names entries).Nodup)
    {conditions : Option (List Condition)}
    (hv : entries.lookup "conditions" = some (ConditionWriter.list Condition.sent conditions)) :
    Outcome (AnyComparesNull conditions)
      (Command.conditionsField.read source (withoutNulls entries)) conditions :=
  outcome_optionalSent hnames (fun list : List Condition => .list (list.map Condition.sent)) hv
    (fun _ => rfl) fun list _ => outcome_conditions list

theorem outcome_select (q : Select) :
    Outcome (AnyComparesNull q.conditions)
      (Select.model.fields.read source (withoutNulls (q.fields Condition.sent))) q := by
  have hdistinct := q.nodup_fields Condition.sent
  have htable : Outcome False ((required "table" Decoder.text).read source
      (withoutNulls (q.fields Condition.sent))) q.table :=
    outcome_requiredSent hdistinct rfl rfl (outcome_text q.table)
  have hselected : Outcome False ((Command.columnsField "selected").read source
      (withoutNulls (q.fields Condition.sent))) q.selected :=
    outcome_faultlessSent hdistinct .texts rfl (fun _ => rfl) outcome_texts
  have hconditions : Outcome (AnyComparesNull q.conditions) (Command.conditionsField.read source
      (withoutNulls (q.fields Condition.sent))) q.conditions :=
    outcome_conditionsSent hdistinct rfl
  have hlimit : Outcome False ((Command.optionalField "limit" Decoder.count).read source
      (withoutNulls (q.fields Condition.sent))) q.limit :=
    outcome_faultlessSent hdistinct _ (congrArg some (countValue_eq q.limit)) (fun _ => rfl)
      outcome_count
  have hoffset : Outcome False ((Command.optionalField "offset" Decoder.count).read source
      (withoutNulls (q.fields Condition.sent))) q.offset :=
    outcome_faultlessSent hdistinct _ (congrArg some (countValue_eq q.offset)) (fun _ => rfl)
      outcome_count
  have horder : Outcome False ((Command.optionalField "order_by" OrderBy.model.decoder).read source
      (withoutNulls (q.fields Condition.sent))) q.orderBy :=
    outcome_faultlessSent hdistinct OrderBy.toValue rfl (fun _ => rfl) outcome_orderBy
  have hread := outcome_seq (outcome_seq (outcome_seq (outcome_seq (outcome_seq
    (outcome_map htable Select.mk) hselected) hconditions) hlimit) hoffset) horder
  exact hread.congr (by simp)

theorem outcome_insert (c : Insert) :
    Outcome False (Insert.model.fields.read source (withoutNulls c.fields)) c := by
  have hdistinct := c.nodup_fields
  have htable : Outcome False
      ((required "table" Decoder.text).read source (withoutNulls c.fields)) c.table :=
    outcome_requiredSent hdistinct rfl rfl (outcome_text c.table)
  have hcolumns : Outcome False ((withDefault "columns" [] (Decoder.list Decoder.text)).read source
      (withoutNulls c.fields)) c.columns :=
    outcome_defaultSent hdistinct rfl rfl (outcome_texts c.columns)
  have hrows : Outcome False ((withDefault "rows" [] (Decoder.list Decoder.record)).read source
      (withoutNulls c.fields)) c.rows :=
    outcome_defaultSent hdistinct rfl rfl (outcome_records c.rows)
  have hreturning : Outcome False
      ((Command.columnsField "returning").read source (withoutNulls c.fields)) c.returning :=
    outcome_faultlessSent hdistinct .texts rfl (fun _ => rfl) outcome_texts
  have hread := outcome_seq (outcome_seq (outcome_seq
    (outcome_map htable Insert.mk) hcolumns) hrows) hreturning
  exact hread.congr (by simp)

theorem outcome_update (c : Update) :
    Outcome (AnyComparesNull c.conditions)
      (Update.model.fields.read source (withoutNulls (c.fields Condition.sent))) c := by
  have hdistinct := c.nodup_fields Condition.sent
  have htable : Outcome False ((required "table" Decoder.text).read source
      (withoutNulls (c.fields Condition.sent))) c.table :=
    outcome_requiredSent hdistinct rfl rfl (outcome_text c.table)
  have hvalues : Outcome False ((withDefault "values" [] Decoder.record).read source
      (withoutNulls (c.fields Condition.sent))) c.values :=
    outcome_defaultSent hdistinct rfl rfl (outcome_record c.values)
  have hconditions : Outcome (AnyComparesNull c.conditions) (Command.conditionsField.read source
      (withoutNulls (c.fields Condition.sent))) c.conditions :=
    outcome_conditionsSent hdistinct rfl
  have hreturning : Outcome False ((Command.columnsField "returning").read source
      (withoutNulls (c.fields Condition.sent))) c.returning :=
    outcome_faultlessSent hdistinct .texts rfl (fun _ => rfl) outcome_texts
  have hread := outcome_seq (outcome_seq (outcome_seq
    (outcome_map htable Update.mk) hvalues) hconditions) hreturning
  exact hread.congr (by simp)

theorem outcome_delete (c : Delete) :
    Outcome (AnyComparesNull c.conditions)
      (Delete.model.fields.read source (withoutNulls (c.fields Condition.sent))) c := by
  have hdistinct := c.nodup_fields Condition.sent
  have htable : Outcome False ((required "table" Decoder.text).read source
      (withoutNulls (c.fields Condition.sent))) c.table :=
    outcome_requiredSent hdistinct rfl rfl (outcome_text c.table)
  have hconditions : Outcome (AnyComparesNull c.conditions) (Command.conditionsField.read source
      (withoutNulls (c.fields Condition.sent))) c.conditions :=
    outcome_conditionsSent hdistinct rfl
  have hreturning : Outcome False ((Command.columnsField "returning").read source
      (withoutNulls (c.fields Condition.sent))) c.returning :=
    outcome_faultlessSent hdistinct .texts rfl (fun _ => rfl) outcome_texts
  have hread := outcome_seq (outcome_seq (outcome_map htable Delete.mk) hconditions) hreturning
  exact hread.congr (by simp)

theorem outcome_call (c : Call) :
    Outcome False (Call.model.fields.read source (withoutNulls c.fields)) c := by
  have hdistinct := c.nodup_fields
  have hprocedure : Outcome False
      ((required "procedure" Decoder.text).read source (withoutNulls c.fields)) c.procedure :=
    outcome_requiredSent hdistinct rfl rfl (outcome_text c.procedure)
  have hparameters : Outcome False
      ((Command.optionalField "parameters" (Decoder.list Decoder.value)).read source
        (withoutNulls c.fields)) c.parameters :=
    outcome_faultlessSent hdistinct .list rfl (fun _ => rfl) outcome_values
  have hread := outcome_seq (outcome_map hprocedure Call.mk) hparameters
  exact hread.congr (by simp)

end Parts

/-- The conditions of a command, if it can have any. -/
def Command.conditions? : Command → Option (List Condition)
  | select q => q.conditions
  | insert _ => none
  | update c => c.conditions
  | delete c => c.conditions
  | call _ => none

/-- Whether a command compares a column with null. -/
def Command.ComparesNull (c : Command) : Prop := AnyComparesNull c.conditions?

/-- A command as it is sent is read as itself, unless it compares a column with null. -/
theorem Command.outcome_sent (c : Command) (source : Source) :
    Outcome c.ComparesNull (c.operation.model.decoder source (.record c.sent)) c := by
  cases c with
  | select q =>
    have hnames : ∀ name ∈ ["table", "selected", "conditions", "limit", "offset", "order_by"],
        name ∈ (Operation.select.model).fields.names := by decide
    exact outcome_readAll (outcome_map (outcome_select q) Command.select) (withoutNulls_fst hnames)
  | insert c =>
    have hnames : ∀ name ∈ ["table", "columns", "rows", "returning"],
        name ∈ (Operation.insert.model).fields.names := by decide
    exact (outcome_readAll (outcome_map (outcome_insert c) Command.insert)
      (withoutNulls_fst hnames)).congr (by simp [ComparesNull, conditions?, AnyComparesNull])
  | update c =>
    have hnames : ∀ name ∈ ["table", "values", "conditions", "returning"],
        name ∈ (Operation.update.model).fields.names := by decide
    exact outcome_readAll (outcome_map (outcome_update c) Command.update) (withoutNulls_fst hnames)
  | delete c =>
    have hnames : ∀ name ∈ ["table", "conditions", "returning"],
        name ∈ (Operation.delete.model).fields.names := by decide
    exact outcome_readAll (outcome_map (outcome_delete c) Command.delete) (withoutNulls_fst hnames)
  | call c =>
    have hnames : ∀ name ∈ ["procedure", "parameters"],
        name ∈ (Operation.call.model).fields.names := by decide
    exact (outcome_readAll (outcome_map (outcome_call c) Command.call)
      (withoutNulls_fst hnames)).congr (by simp [ComparesNull, conditions?, AnyComparesNull])

end SchemaClient
