import SchemaClient.Proofs.Sql.Layout

/-!
# What a statement holds

The names and values of a statement in the order of its text, and where they are found again among
its tokens: each name is an identifier, each value is a parameter or, as a literal, texts and
numbers. All other tokens are words and punctuation from a fixed list.
-/
namespace SchemaClient.Sql

open SchemaClient.Sql.Part (word mark name count)

/-- A name or a value in a statement. -/
inductive Item where
  | name (s : String)
  | value (v : Value)

/-- Columns that are named; a star names none. -/
def namedItems (columns : List String) : List Item :=
  if columns = [] ∨ columns = ["*"] then [] else columns.map .name

def Test.items : Test → List Item
  | .unary column _ => [.name column]
  | .binary column _ value => [.name column, .value value]
  | .foreign _ => []

namespace Statement

/-- The names and values of a statement, in order. -/
def items : Statement → List Item
  | select table selected tests ordering _ _ =>
    namedItems selected ++ .name table :: tests.flatMap Test.items ++
      ((ordering.map Ordering.columns).getD []).map .name
  | insert table columns rows returning =>
    .name table :: columns.map .name ++
      (rows.flatMap fun row => columns.map fun c => .value ((row.lookup c).getD .null)) ++
      namedItems returning
  | update table values tests returning =>
    .name table :: (values.flatMap fun entry => [.name entry.1, .value entry.2]) ++
      tests.flatMap Test.items ++ namedItems returning
  | delete table tests returning =>
    .name table :: tests.flatMap Test.items ++ namedItems returning
  | call procedure parameters => .name procedure :: parameters.map .value

end Statement

/-- What is picked from groups is not changed by separators from which nothing is picked. -/
theorem filterMap_intercalate {α β : Type} {f : α → Option β} {separator : List α}
    (h : separator.filterMap f = []) (groups : List (List α)) :
    (separator.intercalate groups).filterMap f = groups.flatMap (·.filterMap f) := by
  induction groups with
  | nil => rfl
  | cons group rest ih =>
    cases rest with
    | nil => simp [List.intercalate]
    | cons second rest =>
      rw [List.intercalate, List.intersperse_cons_cons, List.flatten_cons, List.flatten_cons,
        ← List.intercalate, List.filterMap_append, List.filterMap_append, h, ih, List.nil_append]
      rfl

def Part.item? : Part → Option Item
  | token (.identifier s) => some (.name s)
  | token _ => none
  | value v => some (.value v)

def itemsOf (parts : List Part) : List Item := parts.filterMap Part.item?

@[simp] theorem itemsOf_nil : itemsOf [] = [] := rfl

@[simp] theorem itemsOf_append (first second : List Part) :
    itemsOf (first ++ second) = itemsOf first ++ itemsOf second := List.filterMap_append

@[simp] theorem itemsOf_word (w : Word) (rest : List Part) : itemsOf (word w :: rest) = itemsOf rest :=
  rfl

@[simp] theorem itemsOf_mark (m : String) (rest : List Part) :
    itemsOf (mark m :: rest) = itemsOf rest := rfl

@[simp] theorem itemsOf_count (n : Int) (rest : List Part) :
    itemsOf (count n :: rest) = itemsOf rest := rfl

@[simp] theorem itemsOf_name (s : String) (rest : List Part) :
    itemsOf (name s :: rest) = .name s :: itemsOf rest := rfl

@[simp] theorem itemsOf_value (v : Value) (rest : List Part) :
    itemsOf (.value v :: rest) = .value v :: itemsOf rest := rfl

theorem itemsOf_intercalate {separator : List Part} (h : itemsOf separator = [])
    (groups : List (List Part)) :
    itemsOf (separator.intercalate groups) = groups.flatMap itemsOf :=
  filterMap_intercalate h groups

@[simp] theorem itemsOf_listParts (groups : List (List Part)) :
    itemsOf (listParts groups) = groups.flatMap itemsOf := itemsOf_intercalate rfl groups

@[simp] theorem itemsOf_nameParts (columns : List String) :
    itemsOf (nameParts columns) = columns.map .name := by
  rw [nameParts, itemsOf_listParts, List.flatMap_map, List.map_eq_flatMap]
  rfl

@[simp] theorem itemsOf_valueParts (values : List Value) :
    itemsOf (valueParts values) = values.map .value := by
  rw [valueParts, itemsOf_listParts, List.flatMap_map, List.map_eq_flatMap]
  rfl

@[simp] theorem itemsOf_columnParts (columns : List String) :
    itemsOf (columnParts columns) = namedItems columns := by
  rw [columnParts, namedItems]
  split
  · rfl
  · exact itemsOf_nameParts columns

@[simp] theorem itemsOf_testParts (t : Test) : itemsOf (testParts t) = t.items := by
  cases t with
  | unary column operator =>
    rw [testParts]
    cases UnaryOperator.ofWord? operator with
    | none => rfl
    | some o => cases o <;> rfl
  | binary column operator value => rfl
  | foreign kind => rfl

@[simp] theorem itemsOf_whereParts (tests : List Test) :
    itemsOf (whereParts tests).flatten = tests.flatMap Test.items := by
  rw [whereParts]
  split
  · next h => rw [h]; rfl
  · rw [List.flatten_singleton, itemsOf_word, itemsOf_intercalate rfl, List.flatMap_map]
    simp

@[simp] theorem itemsOf_orderParts (ordering : Option Ordering) :
    itemsOf (orderParts ordering).flatten = ((ordering.map Ordering.columns).getD []).map .name := by
  cases ordering with
  | none => rfl
  | some ordering => simp [orderParts]

@[simp] theorem itemsOf_countParts (w : Word) (v : Value) :
    itemsOf (countParts w v).flatten = [] := by
  rw [countParts]
  split
  · rfl
  · cases v.wholePart <;> rfl

@[simp] theorem itemsOf_returningParts (returning : List String) :
    itemsOf (returningParts returning).flatten = namedItems returning := by
  rw [returningParts]
  split
  · next h => rw [h]; rfl
  · rw [List.flatten_singleton, itemsOf_word, itemsOf_columnParts]

/-- The parts of a statement hold its names and values in order. -/
theorem Statement.itemsOf_parts (statement : Statement) :
    itemsOf statement.parts = statement.items := by
  cases statement with
  | select table selected tests ordering limit offset => simp [parts, clauses, items]
  | insert table columns rows returning =>
    simp [parts, clauses, items, tupleParts, List.flatMap_map, Function.comp_def]
  | update table values tests returning =>
    simp [parts, clauses, items, assignmentParts, List.flatMap_map]
  | delete table tests returning => simp [parts, clauses, items]
  | call procedure parameters => simp [parts, clauses, items]

end SchemaClient.Sql
