import SchemaClient.Proofs.Sql.Compiled

/-!
# Parameters

Values that are bound are kept beside the text. There they are found under the names of the marks
that stand for them, in the order of the text, and what they are makes no difference to the text:
statements that differ in nothing else have the same one, or the same fault.
-/
namespace SchemaClient.Sql

open Layout (ofPieces fail joined)

theorem paramName_injective : Function.Injective paramName := by
  intro m n h
  rw [paramName, paramName, String.append_right_inj] at h
  exact Runs.repr_injective h

/-- The names of the first so many parameters. -/
def paramNames (count : Nat) : List String := (List.range count).map paramName

theorem names_numbered (values : List Value) (next : Nat) :
    Entries.names (numbered next values) = (List.range' next values.length).map paramName := by
  induction values generalizing next with
  | nil => rfl
  | cons v rest ih => exact congrArg (paramName next :: ·) (ih (next + 1))

theorem lookup_numbered (values : List Value) (next i : Nat) :
    (numbered next values).lookup (paramName (next + i)) = values[i]? := by
  induction values generalizing next i with
  | nil => rfl
  | cons v rest ih =>
    cases i with
    | zero => simp [numbered]
    | succ i =>
      have hname : paramName (next + (i + 1)) ≠ paramName next := fun h => by
        have hnumber := paramName_injective h
        omega
      rw [numbered, List.lookup_cons, beq_false_of_ne hname, List.getElem?_cons_succ,
        ← ih (next + 1) i, Nat.add_assoc, Nat.add_comm 1 i]

theorem map_snd_numbered (values : List Value) (next : Nat) :
    (numbered next values).map Prod.snd = values := by
  induction values generalizing next with
  | nil => rfl
  | cons v rest ih => exact congrArg (v :: ·) (ih (next + 1))

/-- The value that a test compares with. -/
def Test.value? : Test → Option Value
  | .binary _ _ value => some value
  | _ => none

/-- The values that a statement places, in order: those of the tests, after those that an update
sets; for an insertion row by row those of the listed columns. -/
def Statement.arguments : Statement → List Value
  | select _ _ tests _ _ _ => tests.filterMap Test.value?
  | insert _ columns rows _ => rows.flatMap fun row => columns.filterMap fun c => row.lookup c
  | update _ values tests _ => values.map Prod.snd ++ tests.filterMap Test.value?
  | delete _ tests _ => tests.filterMap Test.value?
  | call _ parameters => parameters

/-- The values among names and values. -/
def valuesIn (items : List Item) : List Value := items.filterMap Item.value?

@[simp] theorem valuesIn_nil : valuesIn [] = [] := rfl

@[simp] theorem valuesIn_append (first second : List Item) :
    valuesIn (first ++ second) = valuesIn first ++ valuesIn second := List.filterMap_append

@[simp] theorem valuesIn_name (s : String) (rest : List Item) :
    valuesIn (.name s :: rest) = valuesIn rest := rfl

@[simp] theorem valuesIn_value (v : Value) (rest : List Item) :
    valuesIn (.value v :: rest) = v :: valuesIn rest := rfl

@[simp] theorem valuesIn_names (columns : List String) : valuesIn (columns.map .name) = [] := by
  induction columns with
  | nil => rfl
  | cons c rest ih => exact ih

@[simp] theorem valuesIn_values (values : List Value) : valuesIn (values.map .value) = values := by
  induction values with
  | nil => rfl
  | cons v rest ih => exact congrArg (v :: ·) ih

@[simp] theorem valuesIn_namedItems (columns : List String) : valuesIn (namedItems columns) = [] := by
  rw [namedItems]
  split
  · rfl
  · exact valuesIn_names columns

@[simp] theorem valuesIn_tests (tests : List Test) :
    valuesIn (tests.flatMap Test.items) = tests.filterMap Test.value? := by
  induction tests with
  | nil => rfl
  | cons t rest ih =>
    rw [List.flatMap_cons, valuesIn_append, ih]
    cases t <;> rfl

@[simp] theorem valuesIn_assignments (values : Record) :
    valuesIn (values.flatMap fun entry => [.name entry.1, .value entry.2]) =
      values.map Prod.snd := by
  induction values with
  | nil => rfl
  | cons entry rest ih => exact congrArg (entry.2 :: ·) ih

@[simp] theorem valuesIn_flatMap {α : Type} (list : List α) (f : α → List Value) :
    valuesIn (list.flatMap fun a => (f a).map .value) = list.flatMap f := by
  induction list with
  | nil => rfl
  | cons a rest ih => rw [List.flatMap_cons, valuesIn_append, valuesIn_values, ih, List.flatMap_cons]

/-- The values of pieces are those of the parts that they stand for. -/
theorem valuesIn_pieces (pieces : List Piece) :
    valuesIn (itemsOf (partsOf pieces)) = pieces.filterMap Piece.value? := by
  induction pieces with
  | nil => rfl
  | cons piece rest ih =>
    cases piece with
    | slot v => exact congrArg (v :: ·) ih
    | _ => exact ih

/-- In rows that are laid out no listed column is missing. -/
theorem columns_of_rowTuples {columns : List String} {rows : List Record} {index : Nat}
    (h : ∀ layout ∈ rowTuples columns index rows, layout.fault = none) :
    ∀ row ∈ rows, ∀ c ∈ columns, (row.lookup c).isSome := by
  induction rows generalizing index with
  | nil => exact List.forall_mem_nil _
  | cons row rest ih =>
    obtain ⟨hrow, hrest⟩ := List.forall_mem_cons.mp h
    refine List.forall_mem_cons.mpr ⟨?_, ih hrest⟩
    intro c hc
    rw [rowTuple] at hrow
    split at hrow
    · next hmissing =>
      have hnone := List.filter_eq_nil_iff.mp (List.isEmpty_iff.mp hmissing) c hc
      rwa [Bool.not_eq_true, Option.isNone_eq_false_iff] at hnone
    · cases hrow

/-- An insertion that is laid out has rows with all the listed columns. -/
theorem insert_of_layout {table : String} {columns : List String} {rows : List Record}
    {returning : List String}
    (h : (Statement.insert table columns rows returning).layout.fault = none) :
    columns ≠ [] ∧ rows ≠ [] ∧ ∀ row ∈ rows, ∀ c ∈ columns, (row.lookup c).isSome := by
  rw [Statement.layout] at h
  split at h
  · cases h
  · next hcolumns =>
    split at h
    · cases h
    · next hrows =>
      have hlines := Layout.fault_of_joined h
      have hvalues := hlines _ (List.mem_append_left _ (List.mem_cons_of_mem _ List.mem_cons_self))
      obtain ⟨-, htuples, -⟩ := Layout.append_of_fault hvalues
      exact ⟨by simpa using hcolumns, by simpa using hrows,
        columns_of_rowTuples (Layout.fault_of_joined htuples)⟩

theorem filterMap_of_isSome {columns : List String} {row : Record}
    (h : ∀ c ∈ columns, (row.lookup c).isSome) :
    columns.filterMap (fun c => row.lookup c) = columns.map fun c => (row.lookup c).getD .null := by
  refine filterMap_lookup ?_
  rw [List.isEmpty_iff, List.filter_eq_nil_iff]
  intro c hc
  rw [Bool.not_eq_true, Option.isNone_eq_false_iff]
  exact h c hc

/-- The values of a statement that is laid out are those that it places. -/
theorem Statement.values_of_layout {statement : Statement} (h : statement.layout.fault = none) :
    valuesIn statement.items = statement.arguments := by
  cases statement with
  | select table selected tests ordering limit offset => simp [items, arguments]
  | insert table columns rows returning =>
    obtain ⟨-, -, hrows⟩ := insert_of_layout h
    have htuples : rows.flatMap (fun row => columns.filterMap fun c => row.lookup c) =
        rows.flatMap fun row => columns.map fun c => (row.lookup c).getD .null :=
      List.flatMap_congr fun row hrow => filterMap_of_isSome (hrows row hrow)
    have hvalues := valuesIn_flatMap rows fun row => columns.map fun c => (row.lookup c).getD .null
    simp only [List.map_map, Function.comp_def] at hvalues
    rw [arguments, htuples, ← hvalues]
    simp [items]
  | update table values tests returning => simp [items, arguments]
  | delete table tests returning => simp [items, arguments]
  | call procedure parameters => simp [items, arguments]

/-- The parameters of a compiled statement are the values that it places, numbered from the left. -/
theorem Statement.params_of_compile {statement : Statement} {dialect : Dialect}
    {compiled : Compiled} (h : statement.compile dialect .bound = .ok compiled) :
    compiled.params = numbered 0 statement.arguments := by
  obtain ⟨hfault, texts, htexts, -⟩ := layout_of_compile h
  simp only [Layout.texts, Except.ok.injEq, Prod.mk.injEq] at htexts
  rw [← htexts.2, ← values_of_layout hfault, ← itemsOf_parts, ← parts_of_compile h, valuesIn_pieces]

def Piece.outline : Piece → Piece
  | .slot _ => .slot .null
  | piece => piece

/-- The record with null in the place of all values. -/
def outlineOf (entries : Record) : Record := entries.map fun entry => (entry.1, .null)

def Test.outline : Test → Test
  | .binary column operator _ => .binary column operator .null
  | t => t

/-- The statement with null in the place of all values that it places. Limit and offset stay: they
are written into the text. -/
def Statement.outline : Statement → Statement
  | select table selected tests ordering limit offset =>
    select table selected (tests.map Test.outline) ordering limit offset
  | insert table columns rows returning => insert table columns (rows.map outlineOf) returning
  | update table values tests returning =>
    update table (outlineOf values) (tests.map Test.outline) returning
  | delete table tests returning => delete table (tests.map Test.outline) returning
  | call procedure parameters => call procedure (parameters.map fun _ => .null)

namespace Layout

def outline (layout : Layout) : Layout := ⟨layout.pieces.map Piece.outline, layout.fault⟩

@[simp] theorem outline_ofPieces (pieces : List Piece) :
    (ofPieces pieces).outline = ofPieces (pieces.map Piece.outline) := rfl

@[simp] theorem outline_fail (fault : Fault) : (fail fault).outline = fail fault := rfl

@[simp] theorem outline_append (first second : Layout) :
    (first ++ second).outline = first.outline ++ second.outline := by
  obtain ⟨pieces, fault⟩ := first
  cases fault with
  | some fault => rfl
  | none => exact congrArg (Layout.mk · second.fault) List.map_append

theorem joined_cons (separator : List Piece) (layout other : Layout) (layouts : List Layout) :
    joined separator (layout :: other :: layouts) =
      layout ++ (ofPieces separator ++ joined separator (other :: layouts)) := rfl

@[simp] theorem outline_joined (separator : List Piece) (layouts : List Layout) :
    (joined separator layouts).outline =
      joined (separator.map Piece.outline) (layouts.map outline) := by
  induction layouts with
  | nil => rfl
  | cons layout layouts ih =>
    cases layouts with
    | nil => rfl
    | cons other layouts =>
      rw [joined_cons, outline_append, outline_append, ih, outline_ofPieces]
      rfl

end Layout

theorem outline_names (columns : List String) : (names columns).outline = names columns := by
  rw [names, Layout.outline_joined, List.map_map]
  rfl

theorem outline_columnList (columns : List String) :
    (columnList columns).outline = columnList columns := by
  rw [columnList]
  split
  · rfl
  · exact outline_names columns

theorem outline_slots (values : List Value) :
    slots (values.map fun _ => .null) = (slots values).outline := by
  rw [slots, slots, Layout.outline_joined, List.map_map, List.map_map]
  rfl

theorem outline_test (t : Test) : test t.outline = (test t).outline := by
  cases t with
  | unary column operator =>
    change test (.unary column operator) = (test (.unary column operator)).outline
    rw [test]
    cases UnaryOperator.ofWord? operator with
    | none => rfl
    | some o => cases o <;> rfl
  | binary column operator value =>
    rw [Test.outline, test, test]
    cases BinaryOperator.ofWord? operator <;> rfl
  | foreign kind => rfl

theorem outline_whereClause (tests : List Test) :
    whereClause (tests.map Test.outline) = (whereClause tests).map Layout.outline := by
  rw [whereClause, whereClause]
  cases tests with
  | nil => rfl
  | cons t rest =>
    have htests : ((t :: rest).map Test.outline).map test =
        ((t :: rest).map test).map Layout.outline := by
      rw [List.map_map, List.map_map]
      exact List.map_congr_left fun t _ => outline_test t
    rw [htests]
    simp [Piece.outline]

theorem outline_orderClause (ordering : Option Ordering) :
    (orderClause ordering).map Layout.outline = orderClause ordering := by
  cases ordering with
  | none => rfl
  | some ordering =>
    rw [orderClause]
    cases directionWord? ordering.direction with
    | none => rfl
    | some w =>
      dsimp only
      split
      · rfl
      · simp [outline_names, phrase, Piece.outline]

theorem outline_countClause (w : Word) (v : Value) :
    (countClause w v).map Layout.outline = countClause w v := by
  rw [countClause]
  split
  · rfl
  · cases v.wholePart <;> rfl

theorem outline_returningClause (returning : List String) :
    (returningClause returning).map Layout.outline = returningClause returning := by
  rw [returningClause]
  split
  · rfl
  · simp [outline_columnList, Piece.outline]

theorem lookup_outlineOf (row : Record) (c : String) :
    (outlineOf row).lookup c = (row.lookup c).map fun _ => .null := by
  induction row with
  | nil => rfl
  | cons entry rest ih =>
    rw [outlineOf, List.map_cons, List.lookup_cons, List.lookup_cons]
    cases c == entry.1 with
    | true => rfl
    | false => exact ih

theorem outline_rowTuple (columns : List String) (index : Nat) (row : Record) :
    rowTuple columns index (outlineOf row) = (rowTuple columns index row).outline := by
  have hmissing : (columns.filter fun c => ((outlineOf row).lookup c).isNone) =
      columns.filter fun c => (row.lookup c).isNone :=
    List.filter_congr fun c _ => by rw [lookup_outlineOf, Option.isNone_map]
  have hvalues : (columns.filterMap fun c => (outlineOf row).lookup c) =
      (columns.filterMap fun c => row.lookup c).map fun _ => .null := by
    rw [List.map_filterMap]
    exact List.filterMap_congr fun c _ => lookup_outlineOf row c
  rw [rowTuple, rowTuple, hmissing, hvalues, outline_slots]
  split
  · simp [Piece.outline]
  · rfl

theorem outline_rowTuples (columns : List String) (rows : List Record) (index : Nat) :
    rowTuples columns index (rows.map outlineOf) =
      (rowTuples columns index rows).map Layout.outline := by
  induction rows generalizing index with
  | nil => rfl
  | cons row rest ih =>
    rw [List.map_cons, rowTuples, rowTuples, outline_rowTuple, ih, List.map_cons]

theorem outline_assignments (values : Record) :
    (outlineOf values).map assignment = (values.map assignment).map Layout.outline := by
  rw [outlineOf, List.map_map, List.map_map]
  rfl

theorem outline_lines (clauses : List Layout) :
    (lines clauses).outline = lines (clauses.map Layout.outline) :=
  Layout.outline_joined [.newline] clauses

/-- The layout of the outline of a statement has the same pieces but for the values, and the same
fault. -/
theorem Statement.layout_outline (statement : Statement) :
    statement.outline.layout = statement.layout.outline := by
  cases statement with
  | select table selected tests ordering limit offset =>
    simp [outline, layout, outline_lines, outline_columnList, outline_whereClause,
      outline_orderClause, outline_countClause, Piece.outline]
  | insert table columns rows returning =>
    rw [outline, layout, layout]
    split
    · rfl
    · rw [List.isEmpty_map]
      split
      · rfl
      · simp [outline_lines, outline_names, outline_rowTuples, outline_returningClause, phrase,
          listSeparator, Piece.outline]
  | update table values tests returning =>
    rw [outline, layout, layout, outlineOf, List.isEmpty_map, ← outlineOf]
    split
    · rfl
    · simp [outline_lines, outline_assignments, outline_whereClause, outline_returningClause,
        listSeparator, Piece.outline]
  | delete table tests returning =>
    simp [outline, layout, outline_lines, outline_whereClause, outline_returningClause, phrase,
      Piece.outline]
  | call procedure parameters =>
    rw [outline, layout, outline_slots]
    simp [layout, Piece.outline]

theorem boundTexts_outline (dialect : Dialect) (pieces : List Piece) (next : Nat) :
    boundTexts dialect next (pieces.map Piece.outline) = boundTexts dialect next pieces := by
  induction pieces generalizing next with
  | nil => rfl
  | cons piece rest ih =>
    cases piece with
    | slot v => exact congrArg (_ :: ·) (ih (next + 1))
    | _ => exact congrArg (_ :: ·) (ih next)

/-- The text of a statement, or its fault, is that of its outline. -/
theorem Statement.sql_outline (statement : Statement) (dialect : Dialect) :
    (statement.outline.compile dialect .bound).map Compiled.sql =
      (statement.compile dialect .bound).map Compiled.sql := by
  rw [compile, compile, layout_outline]
  obtain ⟨pieces, fault⟩ := statement.layout
  cases fault with
  | some fault => rfl
  | none =>
    have htexts := boundTexts_outline dialect pieces 0
    simp only [Layout.outline, Layout.compile, Layout.texts, htexts]
    rfl

/-- The position of a value in rows of equal length. -/
theorem getElem?_flatMap_rows {α β : Type} {f : α → List β} {width : Nat} {rows : List α}
    (hwidth : ∀ row ∈ rows, (f row).length = width) {i j : Nat} {row : α}
    (hrow : rows[i]? = some row) (hj : j < width) :
    (rows.flatMap f)[i * width + j]? = (f row)[j]? := by
  induction rows generalizing i with
  | nil => cases hrow
  | cons first rest ih =>
    obtain ⟨hfirst, hrest⟩ := List.forall_mem_cons.mp hwidth
    rw [List.flatMap_cons]
    cases i with
    | zero =>
      cases hrow
      rw [Nat.zero_mul, Nat.zero_add, List.getElem?_append_left (by omega)]
    | succ i =>
      have hposition : (i + 1) * width + j - width = i * width + j := by
        rw [Nat.succ_mul]
        omega
      rw [List.getElem?_append_right (by rw [hfirst, Nat.succ_mul]; omega), hfirst, hposition]
      exact ih hrest hrow

/-- Of an insertion, the value of a column in a row is found by the numbers of both. -/
theorem arguments_insert {table : String} {columns : List String} {rows : List Record}
    {returning : List String}
    (h : (Statement.insert table columns rows returning).layout.fault = none) {i j : Nat}
    {row : Record} {column : String} (hrow : rows[i]? = some row)
    (hcolumn : columns[j]? = some column) :
    (row.lookup column).isSome ∧
      (Statement.insert table columns rows returning).arguments[i * columns.length + j]? =
        row.lookup column := by
  obtain ⟨-, -, hrows⟩ := insert_of_layout h
  have hwidth : ∀ row ∈ rows,
      (columns.filterMap fun c => row.lookup c).length = columns.length := fun row hmem => by
    rw [filterMap_of_isSome (hrows row hmem), List.length_map]
  have hj : j < columns.length := (List.getElem?_eq_some_iff.mp hcolumn).1
  have hmem : row ∈ rows := List.mem_of_getElem? hrow
  have hvalue := hrows row hmem column (List.mem_of_getElem? hcolumn)
  refine ⟨hvalue, ?_⟩
  rw [Statement.arguments, getElem?_flatMap_rows hwidth hrow hj,
    filterMap_of_isSome (hrows row hmem), List.getElem?_map, hcolumn, Option.map_some]
  obtain ⟨v, hv⟩ := Option.isSome_iff_exists.mp hvalue
  rw [hv, Option.getD_some]

theorem placeholders_of_compile {statement : Statement} {dialect : Dialect} {compiled : Compiled}
    (h : statement.compile dialect .bound = .ok compiled) :
    (Lexer.tokens compiled.sql.toList).map (·.filterMap Token.placeholder?) =
      some (paramNames statement.arguments.length) := by
  have hfault := (Statement.layout_of_compile h).1
  have hnames := placeholders_bound (Statement.parts_fixed h) 0
  rw [Statement.itemsOf_parts, ← List.range_eq_range'] at hnames
  rw [Statement.tokens_of_compile h, Option.map_some, Statement.tokens, filledTokens, hnames,
    ← Statement.values_of_layout hfault]
  rfl

/-- A statement whose values are bound has as many parameters as it places values, and both the
marks in its text and the values beside it are in the order of the statement: of an insertion, row
by row and in each row in the order of the columns. Nothing but the number of the values shows in
the text. -/
theorem Statement.compile_parameters (statement : Statement) (dialect : Dialect) :
    (∀ compiled, statement.compile dialect .bound = .ok compiled →
      Entries.names compiled.params = paramNames statement.arguments.length ∧
      (Lexer.tokens compiled.sql.toList).map (·.filterMap Token.placeholder?) =
        some (paramNames statement.arguments.length) ∧
      (∀ i, compiled.params.lookup (paramName i) = statement.arguments[i]?) ∧
      ∀ table columns rows returning, statement = insert table columns rows returning →
        ∀ i j row column, rows[i]? = some row → columns[j]? = some column →
          ∃ v, row.lookup column = some v ∧
            compiled.params.lookup (paramName (i * columns.length + j)) = some v) ∧
    ∀ other : Statement, other.outline = statement.outline →
      (other.compile dialect .bound).map Compiled.sql =
        (statement.compile dialect .bound).map Compiled.sql := by
  constructor
  · intro compiled h
    have hparams := params_of_compile h
    have hlookup : ∀ i, compiled.params.lookup (paramName i) = statement.arguments[i]? := by
      intro i
      have hnumbered := lookup_numbered statement.arguments 0 i
      rwa [Nat.zero_add, ← hparams] at hnumbered
    refine ⟨?_, placeholders_of_compile h, hlookup, ?_⟩
    · rw [hparams, names_numbered, paramNames, List.range_eq_range']
    · rintro table columns rows returning rfl i j row column hrow hcolumn
      obtain ⟨hvalue, hposition⟩ := arguments_insert (layout_of_compile h).1 hrow hcolumn
      obtain ⟨v, hv⟩ := Option.isSome_iff_exists.mp hvalue
      exact ⟨v, hv, by rw [hlookup, hposition, hv]⟩
  · intro other h
    rw [← sql_outline other, ← sql_outline statement, h]

/-- Two rows, of which neither has the columns in the order that they are listed in. -/
def Statement.pairOfRows (v : Value) : Statement :=
  .insert "points" ["x", "y"]
    [[("y", .int 2), ("x", v)], [("z", .null), ("y", .int 4), ("x", .int 3)]] []

theorem Statement.compile_pairOfRows :
    (∃ compiled, (pairOfRows (.int 1)).compile .sqlite .bound = .ok compiled ∧
      Entries.names compiled.params = ["param_0", "param_1", "param_2", "param_3"] ∧
      compiled.params.lookup (paramName (1 * 2 + 0)) = some (.int 3)) ∧
    ((pairOfRows (.text ":param_9")).compile .sqlite .bound).map Compiled.sql =
      ((pairOfRows (.int 1)).compile .sqlite .bound).map Compiled.sql := by
  obtain ⟨bound, texts⟩ := compile_parameters (pairOfRows (.int 1)) .sqlite
  obtain ⟨compiled, hcompiled⟩ :
      ∃ compiled, (pairOfRows (.int 1)).compile .sqlite .bound = .ok compiled :=
    Success.exists_of_toBool (by decide +kernel)
  obtain ⟨hnames, -, -, hrows⟩ := bound compiled hcompiled
  obtain ⟨v, hv, hparam⟩ := hrows _ _ _ _ rfl 1 0 _ _ rfl rfl
  cases hv
  exact ⟨⟨compiled, hcompiled, hnames, hparam⟩, texts _ rfl⟩

end SchemaClient.Sql
