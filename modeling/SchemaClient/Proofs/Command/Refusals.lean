import Mathlib.Algebra.Group.Nat.Defs
import SchemaClient.Proofs.Command.Dump
import SchemaClient.Proofs.Sql.Parameters

/-!
# Commands that are refused

What a command needs so that it can be written with bound values, and how it is refused if it does
not have it. Operators, directions and orderings are never at fault: a command has none but right
ones.
-/
namespace SchemaClient

namespace Sql

namespace Layout

theorem fault_append (first second : Layout) :
    (first ++ second).fault = first.fault.or second.fault := by
  obtain ⟨pieces, fault⟩ := first
  cases fault <;> rfl

/-- A row of layouts has the first of their faults. -/
theorem fault_joined (separator : List Piece) (layouts : List Layout) :
    (joined separator layouts).fault = layouts.findSome? Layout.fault := by
  induction layouts with
  | nil => rfl
  | cons layout layouts ih =>
    cases layouts with
    | nil => cases h : layout.fault <;> simp [joined, h]
    | cons other layouts =>
      have hseparator : (ofPieces separator).fault = none := rfl
      rw [joined, fault_append, fault_append, ih, hseparator, Option.none_or]
      · cases h : layout.fault <;> simp [h]
      · exact List.cons_ne_nil _ _

end Layout

open Layout (fault_append fault_joined)

theorem fault_items {α : Type} {layoutOf : α → Layout} {separator : List Piece} {items : List α}
    (h : ∀ a ∈ items, (layoutOf a).fault = none) :
    (Layout.joined separator (items.map layoutOf)).fault = none := by
  rw [fault_joined, List.findSome?_eq_none_iff]
  exact List.forall_mem_map.mpr h

theorem fault_names (columns : List String) : (names columns).fault = none :=
  fault_items fun _ _ => rfl

theorem fault_slots (values : List Value) : (slots values).fault = none :=
  fault_items fun _ _ => rfl

theorem fault_columnList (columns : List String) : (columnList columns).fault = none := by
  rw [columnList]
  split
  · rfl
  · exact fault_names columns

theorem fault_test (c : Condition) : (test (.ofCondition c)).fault = none := by
  cases c with
  | unary column o => cases o <;> rfl
  | binary column o v => cases o <;> rfl

theorem fault_where (conditions : Option (List Condition)) :
    (whereClause (testsOf conditions)).findSome? Layout.fault = none := by
  rw [whereClause]
  split
  · rfl
  · have htests :
        (Layout.joined [.blank, .word .and, .blank] ((testsOf conditions).map test)).fault = none := by
      rw [testsOf, List.map_map]
      exact fault_items fun c _ => fault_test c
    simp [fault_append, htests, Layout.ofPieces]

theorem fault_order (orderBy : Option OrderBy) :
    (orderClause (orderBy.map Ordering.ofOrderBy)).findSome? Layout.fault = none := by
  cases orderBy with
  | none => rfl
  | some o =>
    obtain ⟨columns, direction, hne⟩ := o
    have hcolumns : columns.isEmpty = false := List.isEmpty_eq_false_iff.mpr hne
    cases direction <;>
      simp [orderClause, Ordering.ofOrderBy, Direction.word, directionWord?, hcolumns, fault_append,
        fault_names, Layout.ofPieces]

theorem fault_returning (returning : List String) :
    (returningClause returning).findSome? Layout.fault = none := by
  rw [returningClause]
  split
  · rfl
  · simp [fault_append, fault_columnList, Layout.ofPieces]

/-- A number is at fault only if it has too many digits to be written. -/
theorem fault_count (w : Word) (n : Option Nat) :
    (countClause w (countOf n)).findSome? Layout.fault =
      if n.getD 0 < 10 ^ Numeral.digitLimit then none else some (.notCount .tooLong) := by
  have hpositive : 0 < 10 ^ Numeral.digitLimit := Nat.pow_pos (by decide)
  rcases n with _ | _ | n
  · rw [Option.getD_none, if_pos hpositive]
    rfl
  · rw [Option.getD_some, if_pos hpositive]
    rfl
  · have hsomething : ¬ (countOf (some (n + 1))).isNothing := by
      simp only [countOf, Value.isNothing, beq_iff_eq]
      omega
    have hsize : ((n + 1 : Nat) : Int).natAbs = n + 1 := Int.natAbs_natCast _
    rw [countClause, if_neg hsomething, countOf, Value.wholePart, Option.getD_some]
    by_cases hn : n + 1 < 10 ^ Numeral.digitLimit
    · rw [Value.writable_of_lt (hsize ▸ hn), if_pos hn]
      rfl
    · rw [Value.writable_of_le (hsize ▸ Nat.not_lt.mp hn), if_neg hn]
      rfl

/-- The listed columns that a row lacks, in their order. -/
def lacking (columns : List String) (row : Record) : List String :=
  columns.filter fun c => (row.lookup c).isNone

theorem lacking_eq_nil_iff {columns : List String} {row : Record} :
    lacking columns row = [] ↔ ∀ c ∈ columns, (row.lookup c).isSome := by
  simp [lacking, List.filter_eq_nil_iff, Option.isSome_iff_ne_none]

theorem lacking_ne_nil_iff {columns : List String} {row : Record} :
    lacking columns row ≠ [] ↔ ∃ c ∈ columns, row.lookup c = none := by
  rw [Ne, lacking_eq_nil_iff]
  simp only [not_forall, exists_prop, Bool.not_eq_true, Option.isSome_eq_false_iff,
    Option.isNone_iff_eq_none]

theorem fault_rowTuple (columns : List String) (index : Nat) (row : Record) :
    (rowTuple columns index row).fault =
      if lacking columns row = [] then none
      else some (.missingColumns index (lacking columns row)) := by
  rw [rowTuple, ← lacking]
  by_cases h : lacking columns row = []
  · simp [h, fault_append, fault_slots, Layout.ofPieces]
  · simp [h, Layout.fail]

theorem fault_rowTuples_none {columns : List String} {rows : List Record} {index : Nat} :
    (rowTuples columns index rows).findSome? Layout.fault = none ↔
      ∀ row ∈ rows, lacking columns row = [] := by
  induction rows generalizing index with
  | nil => simp [rowTuples]
  | cons row rest ih =>
    rw [rowTuples, List.findSome?_cons, fault_rowTuple, List.forall_mem_cons]
    by_cases h : lacking columns row = []
    · simp [h, ih]
    · simp [h]

/-- The fault of rows is that of the first one that lacks a column. -/
theorem fault_rowTuples_some {columns : List String} {rows : List Record} {index : Nat}
    {fault : Fault} :
    (rowTuples columns index rows).findSome? Layout.fault = some fault ↔
      ∃ before row after, rows = before ++ row :: after ∧
        (∀ earlier ∈ before, lacking columns earlier = []) ∧ lacking columns row ≠ [] ∧
        fault = .missingColumns (index + before.length) (lacking columns row) := by
  induction rows generalizing index with
  | nil => simp [rowTuples]
  | cons first rest ih =>
    rw [rowTuples, List.findSome?_cons, fault_rowTuple]
    by_cases hfirst : lacking columns first = []
    · rw [if_pos hfirst]
      dsimp only
      rw [ih]
      constructor
      · rintro ⟨before, row, after, rfl, hbefore, hrow, rfl⟩
        refine ⟨first :: before, row, after, rfl, ?_, hrow, ?_⟩
        · exact List.forall_mem_cons.mpr ⟨hfirst, hbefore⟩
        · rw [List.length_cons, Nat.add_assoc, Nat.add_comm 1]
      · rintro ⟨before, row, after, hrows, hbefore, hrow, rfl⟩
        cases before with
        | nil =>
          cases hrows
          exact absurd hfirst hrow
        | cons other before =>
          cases hrows
          refine ⟨before, row, after, rfl, (List.forall_mem_cons.mp hbefore).2, hrow, ?_⟩
          rw [List.length_cons, Nat.add_assoc, Nat.add_comm 1]
    · rw [if_neg hfirst]
      dsimp only
      constructor
      · intro h
        cases h
        exact ⟨[], first, rest, rfl, List.forall_mem_nil _, hfirst, rfl⟩
      · rintro ⟨before, row, after, hrows, hbefore, hrow, rfl⟩
        cases before with
        | nil =>
          cases hrows
          rfl
        | cons other before =>
          cases hrows
          exact absurd (hbefore first List.mem_cons_self) hfirst

namespace Statement

variable {statement : Statement}

theorem exists_compile (h : statement.layout.fault = none) (dialect : Dialect) :
    ∃ compiled, statement.compile dialect .bound = .ok compiled := by
  rw [compile, Layout.compile, Layout.texts]
  dsimp only [bind, Except.bind]
  rw [h]
  exact ⟨_, rfl⟩

theorem compile_of_fault {fault : Fault} (h : statement.layout.fault = some fault)
    (dialect : Dialect) : statement.compile dialect .bound = .error fault.failure := by
  rw [compile, Layout.compile, Layout.texts]
  dsimp only [bind, Except.bind]
  rw [h]
  rfl

end Statement
end Sql

open Sql
open Sql.Layout (fault_append fault_joined)

theorem Select.fault_eq (q : Select) :
    (Command.select q).statement.layout.fault =
      if q.limit.getD 0 < 10 ^ Numeral.digitLimit ∧ q.offset.getD 0 < 10 ^ Numeral.digitLimit
      then none else some (.notCount .tooLong) := by
  have hopening : [Layout.ofPieces [.word .select, .blank] ++ columnList (q.selected.getD []),
      Layout.ofPieces [.word .from, .blank, .name q.table]].findSome? Layout.fault = none := by
    simp [fault_append, fault_columnList, Layout.ofPieces]
  rw [Command.statement, Statement.layout, lines, fault_joined]
  simp only [List.findSome?_append, hopening, fault_where, fault_order, fault_count, Option.none_or]
  by_cases hlimit : q.limit.getD 0 < 10 ^ Numeral.digitLimit
  · simp only [hlimit, if_true, true_and, Option.none_or]
  · simp only [hlimit, if_false, false_and, Option.some_or]

theorem Insert.fault_eq (c : Insert) :
    (Command.insert c).statement.layout.fault =
      if c.columns = [] then some .noColumns
      else if c.rows = [] then some .noRows
      else (rowTuples c.columns 0 c.rows).findSome? Layout.fault := by
  rw [Command.statement, Statement.layout]
  simp only [List.isEmpty_iff]
  split_ifs with hcolumns hrows
  · rfl
  · rfl
  · rw [lines, fault_joined]
    simp only [List.findSome?_append, fault_returning, Option.or_none]
    cases h : (rowTuples c.columns 0 c.rows).findSome? Layout.fault <;>
      simp [fault_append, fault_names, fault_joined, Layout.ofPieces, h]

theorem Update.fault_eq (c : Update) :
    (Command.update c).statement.layout.fault =
      if c.values = [] then some .noValues else none := by
  have hassignments : (Layout.joined listSeparator (c.values.map assignment)).fault = none :=
    fault_items fun _ _ => rfl
  rw [Command.statement, Statement.layout]
  simp only [List.isEmpty_iff]
  split_ifs with hvalues
  · rfl
  · rw [lines, fault_joined]
    simp only [List.findSome?_append, fault_where, fault_returning, Option.or_none]
    simp [fault_append, hassignments, Layout.ofPieces]

theorem Delete.fault_eq (c : Delete) : (Command.delete c).statement.layout.fault = none := by
  rw [Command.statement, Statement.layout, lines, fault_joined]
  simp only [List.findSome?_append, fault_where, fault_returning, Option.or_none]
  simp [Layout.ofPieces]

theorem Call.fault_eq (c : Call) : (Command.call c).statement.layout.fault = none := by
  rw [Command.statement, Statement.layout]
  simp [fault_append, fault_slots, Layout.ofPieces]

namespace Command

/-- A command with all that is needed to write it. -/
def Renderable : Command → Prop
  | select q =>
    q.limit.getD 0 < 10 ^ Numeral.digitLimit ∧ q.offset.getD 0 < 10 ^ Numeral.digitLimit
  | insert c =>
    c.columns ≠ [] ∧ c.rows ≠ [] ∧ ∀ row ∈ c.rows, ∀ column ∈ c.columns, (row.lookup column).isSome
  | update c => c.values ≠ []
  | delete _ | call _ => True

/-- What is said of a row that lacks columns. -/
def lackingMessage (index : Nat) (columns : List String) : String :=
  "Insert row " ++ Nat.repr index ++ " is missing columns: " ++ Text.quotedList columns ++ "."

/-- The failures with which commands are refused. -/
inductive Refused : Command → Failure → Prop
  | noColumns {c : Insert} (columns : c.columns = []) :
      Refused (insert c) (.problem (.invalidCommand "Insert has no columns." "insert"))
  | noRows {c : Insert} (columns : c.columns ≠ []) (rows : c.rows = []) :
      Refused (insert c) (.problem (.invalidCommand "Insert has no rows." "insert"))
  /-- The first row that lacks a column is at fault, for all that it lacks. -/
  | lacking {c : Insert} {before after : List Record} {row : Record} (columns : c.columns ≠ [])
      (rows : c.rows = before ++ row :: after)
      (complete : ∀ earlier ∈ before, ∀ column ∈ c.columns, (earlier.lookup column).isSome)
      (incomplete : ∃ column ∈ c.columns, row.lookup column = none) :
      Refused (insert c) (.problem (.invalidCommand
        (lackingMessage before.length (c.columns.filter fun column => (row.lookup column).isNone))
        "insert"))
  | noValues {c : Update} (values : c.values = []) :
      Refused (update c) (.problem (.invalidCommand "Update has no values." "update"))
  /-- A number that has too many digits to be written. -/
  | tooLong {q : Select} (number : 10 ^ Numeral.digitLimit ≤ q.limit.getD 0 ∨
      10 ^ Numeral.digitLimit ≤ q.offset.getD 0) :
      Refused (select q) (.uncut .tooLong)

theorem fault_eq_none_iff (c : Command) : c.statement.layout.fault = none ↔ c.Renderable := by
  cases c with
  | select q =>
    rw [Select.fault_eq, Renderable]
    split_ifs with h <;> simp [h]
  | insert c =>
    rw [Insert.fault_eq, Renderable]
    split_ifs with hcolumns hrows
    · simp [hcolumns]
    · simp [hrows]
    · simp only [fault_rowTuples_none, lacking_eq_nil_iff, ne_eq, hcolumns, hrows, not_false_eq_true,
        true_and]
  | update c =>
    rw [Update.fault_eq, Renderable]
    split_ifs with h <;> simp [h]
  | delete c => simp [Delete.fault_eq, Renderable]
  | call c => simp [Call.fault_eq, Renderable]

theorem exists_fault_iff (c : Command) (failure : Failure) :
    (∃ fault, c.statement.layout.fault = some fault ∧ fault.failure = failure) ↔
      c.Refused failure := by
  constructor
  · rintro ⟨fault, hfault, rfl⟩
    cases c with
    | select q =>
      rw [Select.fault_eq] at hfault
      split_ifs at hfault with h
      cases hfault
      rw [not_and_or, Nat.not_lt, Nat.not_lt] at h
      exact .tooLong h
    | insert c =>
      rw [Insert.fault_eq] at hfault
      split_ifs at hfault with hcolumns hrows
      · cases hfault; exact .noColumns hcolumns
      · cases hfault; exact .noRows hcolumns hrows
      · obtain ⟨before, row, after, hlist, hbefore, hrow, rfl⟩ := fault_rowTuples_some.mp hfault
        rw [Nat.zero_add]
        exact .lacking hcolumns hlist
          (fun earlier hearlier => lacking_eq_nil_iff.mp (hbefore earlier hearlier))
          (lacking_ne_nil_iff.mp hrow)
    | update c =>
      rw [Update.fault_eq] at hfault
      split_ifs at hfault with h
      cases hfault
      exact .noValues h
    | delete c => rw [Delete.fault_eq] at hfault; cases hfault
    | call c => rw [Call.fault_eq] at hfault; cases hfault
  · intro h
    cases h with
    | noColumns hcolumns => exact ⟨.noColumns, by rw [Insert.fault_eq, if_pos hcolumns], rfl⟩
    | noRows hcolumns hrows =>
      exact ⟨.noRows, by rw [Insert.fault_eq, if_neg hcolumns, if_pos hrows], rfl⟩
    | @lacking c before after row hcolumns hlist hcomplete hincomplete =>
      have hrows : c.rows ≠ [] := by
        rw [hlist]
        exact List.append_ne_nil_of_right_ne_nil _ (List.cons_ne_nil _ _)
      refine ⟨.missingColumns before.length (Sql.lacking c.columns row), ?_, rfl⟩
      rw [Insert.fault_eq, if_neg hcolumns, if_neg hrows, fault_rowTuples_some]
      refine ⟨before, row, after, hlist, ?_, lacking_ne_nil_iff.mpr hincomplete, ?_⟩
      · exact fun earlier hearlier => lacking_eq_nil_iff.mpr (hcomplete earlier hearlier)
      · rw [Nat.zero_add]
    | noValues h => exact ⟨.noValues, by rw [Update.fault_eq, if_pos h], rfl⟩
    | tooLong h =>
      refine ⟨.notCount .tooLong, ?_, rfl⟩
      rw [Select.fault_eq, if_neg]
      rwa [not_and_or, Nat.not_lt, Nat.not_lt]

/-- A command compiles with bound values exactly if it has what is needed to write it, and otherwise
it is refused for the first thing that it lacks. -/
theorem compile_bound_iff (c : Command) (dialect : Dialect) :
    ((∃ compiled, c.compile dialect .bound = .ok compiled) ↔ c.Renderable) ∧
      ∀ failure, c.compile dialect .bound = .error failure ↔ c.Refused failure := by
  simp only [← fault_eq_none_iff, ← exists_fault_iff, compile]
  cases hfault : c.statement.layout.fault with
  | none =>
    obtain ⟨compiled, hcompiled⟩ := Statement.exists_compile hfault dialect
    simp [hcompiled]
  | some fault => simp [Statement.compile_of_fault hfault dialect]

/-- A selection with the smallest limit that is too long to be written. -/
def endless : Command := .select ⟨"people", none, none, some (10 ^ Numeral.digitLimit), none, none⟩

/-- The model of selections takes any limit that is not negative, and one that is too long is
refused all the same. -/
theorem endless_refused :
    endless.operation.model.read endless.toValue = .ok endless ∧
      ∀ dialect, endless.compile dialect .bound = .error (.uncut .tooLong) := by
  refine ⟨read_toValue _, fun dialect => ?_⟩
  have hfault : endless.statement.layout.fault = some (.notCount .tooLong) := by
    rw [endless, Select.fault_eq, if_neg]
    exact fun hboth => Nat.lt_irrefl _ hboth.1
  exact Statement.compile_of_fault hfault dialect

end Command
end SchemaClient
