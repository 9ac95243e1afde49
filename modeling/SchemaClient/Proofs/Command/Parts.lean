import SchemaClient.Proofs.Sql.Unambiguous

/-!
# The parts of commands

A command as the parts of its statement, clause by clause. A clause is left out where there is
nothing to say: for an absent list and for an empty one, for an absent number and for zero.
-/
namespace SchemaClient

open Sql
open Sql.Part (word mark name count)

/-- A list that may be absent, and is if it is empty. -/
def unlessEmpty {α : Type} (list : Option (List α)) : Option (List α) :=
  list.filter fun items => !items.isEmpty

/-- A number that may be absent, and is if it is zero. -/
def unlessZero (n : Option Nat) : Option Nat := n.filter (· != 0)

theorem getD_unlessEmpty {α : Type} (list : Option (List α)) :
    (unlessEmpty list).getD [] = list.getD [] := by
  rcases list with _ | _ | ⟨a, rest⟩ <;> rfl

theorem unlessEmpty_some_getD {α : Type} (list : Option (List α)) :
    unlessEmpty (some (list.getD [])) = unlessEmpty list := by
  cases list <;> rfl

theorem unlessEmpty_cons {α : Type} (a : α) (rest : List α) :
    unlessEmpty (some (a :: rest)) = some (a :: rest) := rfl

theorem mem_unlessEmpty {α : Type} {list : Option (List α)} {items : List α}
    (h : items ∈ unlessEmpty list) : items ≠ [] := by
  obtain ⟨-, hitems⟩ := Option.mem_filter_iff.mp h
  rintro rfl
  cases hitems

/-- The number of a clause, unless it has too many digits to be written. -/
def numberParts (n : Nat) : List Part :=
  ((Value.int n).wholePart.toOption.map fun m => [count m]).getD []

def Direction.keyword : Direction → Word
  | asc => .asc
  | desc => .desc

/-- The parts of an ordering behind its first word. -/
def OrderBy.parts (o : OrderBy) : List Part :=
  word .by :: (nameParts o.columns ++ [word o.direction.keyword])

def conditionsParts (conditions : List Condition) : List Part :=
  separated (word .and) conditionParts conditions

theorem parts_where (conditions : Option (List Condition)) :
    (whereParts (testsOf conditions)).flatten =
      clauseParts .where conditionsParts (unlessEmpty conditions) := by
  rcases conditions with _ | _ | ⟨c, rest⟩
  · rfl
  · rfl
  · have htests : testsOf (some (c :: rest)) = .ofCondition c :: rest.map .ofCondition := rfl
    rw [htests, unlessEmpty_cons, whereParts, if_neg (List.cons_ne_nil _ _), List.flatten_singleton,
      ← List.map_cons, List.map_map]
    rfl

theorem parts_order (orderBy : Option OrderBy) :
    (orderParts (orderBy.map Ordering.ofOrderBy)).flatten =
      clauseParts .order OrderBy.parts orderBy := by
  cases orderBy with
  | none => rfl
  | some o =>
    obtain ⟨columns, direction, hne⟩ := o
    cases direction <;> simp [orderParts, Ordering.ofOrderBy, Direction.word, Direction.keyword,
      clauseParts, OrderBy.parts]

theorem parts_count (w : Word) (n : Option Nat) :
    (countParts w (countOf n)).flatten = clauseParts w numberParts (unlessZero n) := by
  rcases n with _ | _ | n
  · rfl
  · have hnothing : (countOf (some 0)).isNothing := rfl
    rw [countParts, if_pos hnothing]
    rfl
  · have hsomething : ¬ (countOf (some (n + 1))).isNothing := by
      simp only [countOf, Value.isNothing, beq_iff_eq]
      omega
    rw [countParts, if_neg hsomething, List.flatten_singleton]
    rfl

theorem parts_returning (returning : Option (List String)) :
    (returningParts (returning.getD [])).flatten =
      clauseParts .returning columnParts (unlessEmpty returning) := by
  rcases returning with _ | _ | ⟨c, rest⟩
  · rfl
  · rfl
  · rw [unlessEmpty_cons, Option.getD_some, returningParts, if_neg (List.cons_ne_nil _ _),
      List.flatten_singleton]
    rfl

/-- A number that is laid out is written. -/
theorem numberParts_of_clause {w : Word} {n : Option Nat}
    (h : ∀ layout ∈ countClause w (countOf n), layout.fault = none) :
    ∀ m ∈ unlessZero n, numberParts m = [count m] := by
  intro m hm
  obtain ⟨rfl, hnonzero⟩ := Option.mem_filter_iff.mp hm
  have hsomething : ¬ (countOf (some m)).isNothing := by
    simpa [countOf, Value.isNothing] using hnonzero
  rw [countClause, if_neg hsomething] at h
  rw [numberParts]
  cases hwhole : (Value.int m).wholePart with
  | error fault =>
    rw [countOf, hwhole] at h
    cases h (.fail (.notCount fault)) (List.mem_singleton_self _)
  | ok k =>
    rw [Value.wholePart] at hwhole
    rw [Value.eq_of_writable hwhole]
    rfl

/-- The parts behind the table of a selection. -/
def Select.clauses (q : Select) : List Part :=
  clauseParts .where conditionsParts (unlessEmpty q.conditions) ++
    (clauseParts .order OrderBy.parts q.orderBy ++
      (clauseParts .limit numberParts (unlessZero q.limit) ++
        (clauseParts .offset numberParts (unlessZero q.offset) ++ [])))

theorem Select.numbers_written {q : Select}
    (h : (Command.select q).statement.layout.fault = none) :
    (∀ m ∈ unlessZero q.limit, numberParts m = [count m]) ∧
      ∀ m ∈ unlessZero q.offset, numberParts m = [count m] := by
  have hlines := Layout.fault_of_joined h
  constructor
  · exact numberParts_of_clause fun layout hlayout =>
      hlines layout (List.mem_append_left _ (List.mem_append_right _ hlayout))
  · exact numberParts_of_clause fun layout hlayout => hlines layout (List.mem_append_right _ hlayout)

theorem Select.parts_eq (q : Select) :
    (Command.select q).statement.parts =
      word .select :: (columnParts (q.selected.getD []) ++
        word .from :: name q.table :: q.clauses) := by
  simp only [Command.statement, Statement.parts, Statement.clauses, List.flatten_append,
    parts_where, parts_order, parts_count, Select.clauses, List.flatten_cons, List.append_assoc,
    List.cons_append, List.nil_append, List.append_nil]

theorem Insert.parts_eq (c : Insert) :
    (Command.insert c).statement.parts =
      word .insert :: word .into :: name c.table :: mark "(" :: (nameParts c.columns ++
        mark ")" :: word .values :: (separated (mark ",") (tupleParts c.columns) c.rows ++
          clauseParts .returning columnParts (unlessEmpty c.returning))) := by
  simp only [Command.statement, Statement.parts, Statement.clauses, parts_returning,
    List.flatten_cons, List.append_assoc, List.cons_append, List.nil_append, separated, listParts]

theorem Update.parts_eq (c : Update) :
    (Command.update c).statement.parts =
      word .update :: name c.table :: word .set :: (separated (mark ",") assignmentParts c.values ++
        (clauseParts .where conditionsParts (unlessEmpty c.conditions) ++
          clauseParts .returning columnParts (unlessEmpty c.returning))) := by
  simp only [Command.statement, Statement.parts, Statement.clauses, List.flatten_append, parts_where,
    parts_returning, List.flatten_cons, List.cons_append, List.nil_append, separated, listParts]

theorem Delete.parts_eq (c : Delete) :
    (Command.delete c).statement.parts =
      word .delete :: word .from :: name c.table ::
        (clauseParts .where conditionsParts (unlessEmpty c.conditions) ++
          clauseParts .returning columnParts (unlessEmpty c.returning)) := by
  simp only [Command.statement, Statement.parts, Statement.clauses, List.flatten_append, parts_where,
    parts_returning, List.flatten_cons, List.cons_append, List.nil_append]

theorem Call.parts_eq (c : Call) :
    (Command.call c).statement.parts =
      word .select :: mark "*" :: word .from :: name c.procedure :: mark "(" ::
        (valueParts (c.parameters.getD []) ++ [mark ")"]) := by
  simp only [Command.statement, Statement.parts, Statement.clauses, List.flatten_cons,
    List.flatten_nil, List.append_nil, List.cons_append, List.nil_append]

end SchemaClient
