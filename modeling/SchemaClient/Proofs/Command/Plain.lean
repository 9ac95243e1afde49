import SchemaClient.Proofs.Command.Interchange
import SchemaClient.Proofs.Value.Plain

/-!
# Plain commands

A command is plain if the values in it are, with room for the lists and records that stand around
them when the command is sent. Then all that is sent is plain.
-/
namespace SchemaClient

open Json (NumberLimit)

/-- The values that columns are compared with; each is sent inside three lists and records. -/
def Condition.freeValues (conditions : Option (List Condition)) : List (Nat × Value) :=
  (conditions.getD []).filterMap fun c => c.value?.map fun v => (3, v)

namespace Command

/-- The values of a command that may be of any kind, each with the number of lists and records that
stand around it when the command is sent. -/
def freeValues : Command → List (Nat × Value)
  | select q => Condition.freeValues q.conditions
  | insert c => c.rows.map fun row => (2, .record row)
  | update c => (1, .record c.values) :: Condition.freeValues c.conditions
  | delete c => Condition.freeValues c.conditions
  | call c => (c.parameters.getD []).map fun v => (2, v)

/-- The numbers of rows that a command names. -/
def counts : Command → List Nat
  | select q => q.limit.toList ++ q.offset.toList
  | _ => []

/-- Plain values within so many levels, and numbers that are read. -/
structure IsPlain (numbers : NumberLimit) (levels : Nat) (c : Command) : Prop where
  values : ∀ entry ∈ c.freeValues, entry.2.Plain numbers (levels - entry.1)
  counts : ∀ n ∈ c.counts, numbers.Admits n

end Command

variable {numbers : NumberLimit} {levels : Nat}

open Value (Plain)

theorem plain_sent {entries : Record} (hnames : (Entries.names entries).Nodup)
    (h : ∀ entry ∈ entries, entry.2.Plain numbers levels) :
    (Value.record (withoutNulls entries)).Plain numbers (levels + 1) := by
  refine .record ?_ fun entry hmem => h entry (List.mem_filter.mp hmem).1
  exact hnames.sublist (List.filter_sublist.map _)

theorem plain_orNull {α : Type} {write : α → Value} {held : Option α}
    (h : ∀ a ∈ held, (write a).Plain numbers levels) :
    (Command.orNull write held).Plain numbers levels := by
  cases held with
  | none => exact .null _
  | some a => exact h a rfl

theorem plain_columns (columns : Option (List String)) :
    (Command.columnsValue columns).Plain numbers (levels + 1) :=
  plain_orNull fun texts _ => Value.plain_texts texts

theorem plain_count {n : Option Nat} (h : ∀ k ∈ n, numbers.Admits k) :
    (Command.countValue n).Plain numbers levels := by
  rw [countValue_eq]
  exact plain_orNull fun k hk => .int _ (h k hk)

theorem plain_orderBy (o : OrderBy) : o.toValue.Plain numbers (levels + 2) := by
  refine .record ?_ ?_
  · change ["columns", "direction"].Nodup
    decide
  · simp only [List.forall_mem_cons, List.not_mem_nil, false_imp_iff, implies_true, and_true]
    exact ⟨Value.plain_texts o.columns, .text _ _⟩

theorem plain_condition {c : Condition} (harity : numbers.Admits 1 ∧ numbers.Admits 2)
    (h : ∀ v ∈ c.value?, v.Plain numbers levels) : c.sent.Plain numbers (levels + 1) := by
  rw [Condition.sent_eq]
  refine plain_sent c.nodup_entries ?_
  cases c with
  | unary column operator =>
    simp only [Condition.entries, List.forall_mem_cons, List.not_mem_nil, false_imp_iff,
      implies_true, and_true]
    exact ⟨.text _ _, .int _ harity.1, .text _ _⟩
  | binary column operator v =>
    simp only [Condition.entries, List.forall_mem_cons, List.not_mem_nil, false_imp_iff,
      implies_true, and_true]
    exact ⟨.text _ _, .int _ harity.2, .text _ _, h v rfl⟩

theorem plain_conditions {conditions : Option (List Condition)}
    (harity : numbers.Admits 1 ∧ numbers.Admits 2)
    (h : ∀ entry ∈ Condition.freeValues conditions,
      entry.2.Plain numbers (levels + 3 - entry.1)) :
    (ConditionWriter.list Condition.sent conditions).Plain numbers (levels + 2) := by
  refine plain_orNull fun list hlist => .list fun sent hsent => ?_
  obtain ⟨c, hc, rfl⟩ := List.mem_map.mp hsent
  refine plain_condition harity fun v hv => h (3, v) ?_
  rw [Condition.freeValues, hlist, Option.getD_some, List.mem_filterMap]
  exact ⟨c, hc, by rw [hv, Option.map_some]⟩

theorem plain_select {q : Select} (harity : numbers.Admits 1 ∧ numbers.Admits 2)
    (h : (Command.select q).IsPlain numbers (levels + 3)) :
    (Value.record (withoutNulls (q.fields Condition.sent))).Plain numbers (levels + 3) := by
  refine plain_sent (q.nodup_fields Condition.sent) ?_
  have hlimit : ∀ n ∈ q.limit, numbers.Admits n :=
    fun n hn => h.counts n (List.mem_append_left _ (Option.mem_toList.mpr hn))
  have hoffset : ∀ n ∈ q.offset, numbers.Admits n :=
    fun n hn => h.counts n (List.mem_append_right _ (Option.mem_toList.mpr hn))
  simp only [Select.fields, List.forall_mem_cons, List.not_mem_nil, false_imp_iff, implies_true,
    and_true]
  exact ⟨.text _ _, plain_columns q.selected, plain_conditions harity h.values,
    plain_count hlimit, plain_count hoffset, plain_orNull fun o _ => plain_orderBy o⟩

theorem plain_insert {c : Insert} (h : (Command.insert c).IsPlain numbers (levels + 3)) :
    (Value.record (withoutNulls c.fields)).Plain numbers (levels + 3) := by
  have hrows : ∀ row ∈ c.rows.map Value.record, row.Plain numbers (levels + 1) := by
    intro row hrow
    obtain ⟨entries, hentries, rfl⟩ := List.mem_map.mp hrow
    exact h.values (2, .record entries) (List.mem_map_of_mem hentries)
  refine plain_sent c.nodup_fields ?_
  simp only [Insert.fields, List.forall_mem_cons, List.not_mem_nil, false_imp_iff, implies_true,
    and_true]
  exact ⟨.text _ _, Value.plain_texts c.columns, .list hrows, plain_columns c.returning⟩

theorem plain_update {c : Update} (harity : numbers.Admits 1 ∧ numbers.Admits 2)
    (h : (Command.update c).IsPlain numbers (levels + 3)) :
    (Value.record (withoutNulls (c.fields Condition.sent))).Plain numbers (levels + 3) := by
  obtain ⟨hvalues, hconditions⟩ := List.forall_mem_cons.mp h.values
  refine plain_sent (c.nodup_fields Condition.sent) ?_
  simp only [Update.fields, List.forall_mem_cons, List.not_mem_nil, false_imp_iff, implies_true,
    and_true]
  exact ⟨.text _ _, hvalues, plain_conditions harity hconditions, plain_columns c.returning⟩

theorem plain_delete {c : Delete} (harity : numbers.Admits 1 ∧ numbers.Admits 2)
    (h : (Command.delete c).IsPlain numbers (levels + 3)) :
    (Value.record (withoutNulls (c.fields Condition.sent))).Plain numbers (levels + 3) := by
  refine plain_sent (c.nodup_fields Condition.sent) ?_
  simp only [Delete.fields, List.forall_mem_cons, List.not_mem_nil, false_imp_iff, implies_true,
    and_true]
  exact ⟨.text _ _, plain_conditions harity h.values, plain_columns c.returning⟩

theorem plain_call {c : Call} (h : (Command.call c).IsPlain numbers (levels + 3)) :
    (Value.record (withoutNulls c.fields)).Plain numbers (levels + 3) := by
  refine plain_sent c.nodup_fields ?_
  simp only [Call.fields, List.forall_mem_cons, List.not_mem_nil, false_imp_iff, implies_true,
    and_true]
  refine ⟨.text _ _, plain_orNull fun values hvalues => .list fun v hv => ?_⟩
  refine h.values (2, v) ?_
  rw [Command.freeValues, hvalues, Option.getD_some]
  exact List.mem_map_of_mem hv

/-- All that is sent of a plain command is plain. -/
theorem Command.IsPlain.sent {c : Command} (harity : numbers.Admits 1 ∧ numbers.Admits 2)
    (h : c.IsPlain numbers (levels + 3)) : (Value.record c.sent).Plain numbers (levels + 3) := by
  cases c with
  | select q => exact plain_select harity h
  | insert c => exact plain_insert h
  | update c => exact plain_update harity h
  | delete c => exact plain_delete harity h
  | call c => exact plain_call h

end SchemaClient
