import SchemaClient.Proofs.Command.Parts

/-!
# Compiling without loss

Commands compile to the same text with the same parameters exactly if they have the same normal
form: if they differ in nothing but ways to leave something out, and in values of columns that an
insertion does not list.
-/
namespace SchemaClient

open Sql
open Sql.Part (word mark name count)

/-- A row without the values of other columns. -/
def restricted (columns : List String) (row : Record) : Record :=
  columns.filterMap fun c => (row.lookup c).map fun v => (c, v)

def Select.normal (q : Select) : Select :=
  { q with
    selected := q.selected.filter fun columns => !isStarred columns
    conditions := unlessEmpty q.conditions
    limit := unlessZero q.limit
    offset := unlessZero q.offset }

def Insert.normal (c : Insert) : Insert :=
  { c with
    rows := c.rows.map (restricted c.columns)
    returning := unlessEmpty c.returning }

def Update.normal (c : Update) : Update :=
  { c with
    conditions := unlessEmpty c.conditions
    returning := unlessEmpty c.returning }

def Delete.normal (c : Delete) : Delete :=
  { c with
    conditions := unlessEmpty c.conditions
    returning := unlessEmpty c.returning }

def Call.normal (c : Call) : Call := { c with parameters := unlessEmpty c.parameters }

namespace Command

/-- The command with nothing in it that makes no difference. -/
def normal : Command → Command
  | select q => select q.normal
  | insert c => insert c.normal
  | update c => update c.normal
  | delete c => delete c.normal
  | call c => call c.normal

end Command

theorem testsOf_unlessEmpty (conditions : Option (List Condition)) :
    testsOf (unlessEmpty conditions) = testsOf conditions := by
  rw [testsOf, getD_unlessEmpty, testsOf]

theorem countClause_nothing {w : Word} {v : Value} (h : v.isNothing) : countClause w v = [] := by
  rw [countClause, if_pos h]

theorem countClause_unlessZero (w : Word) (n : Option Nat) :
    countClause w (countOf (unlessZero n)) = countClause w (countOf n) := by
  rcases n with _ | _ | n
  · rfl
  · rw [countClause_nothing rfl, countClause_nothing rfl]
  · have hkept : unlessZero (some (n + 1)) = some (n + 1) := rfl
    rw [hkept]

/-- An absent list is starred like an empty one. -/
theorem filter_not_isStarred (selected : Option (List String)) :
    (selected.filter fun columns => !isStarred columns) =
      if isStarred (selected.getD []) then none else some (selected.getD []) := by
  cases selected with
  | none => rfl
  | some columns => cases hstar : isStarred columns <;> simp [Option.filter_some, hstar]

theorem columnList_of_isStarred {columns : List String} (h : isStarred columns) :
    columnList columns = .ofPieces [.star] := by
  have hall : (columns.isEmpty || columns = ["*"]) = true := by simpa [isStarred] using h
  rw [columnList, if_pos hall]

theorem columnList_filter (selected : Option (List String)) :
    columnList ((selected.filter fun columns => !isStarred columns).getD []) =
      columnList (selected.getD []) := by
  rw [filter_not_isStarred]
  split
  · next hstar => rw [columnList_of_isStarred hstar, Option.getD_none, columnList_of_isStarred rfl]
  · rfl

theorem lookup_restricted (columns : List String) (row : Record) (c : String) :
    (restricted columns row).lookup c = if c ∈ columns then row.lookup c else none := by
  induction columns with
  | nil => rfl
  | cons first rest ih =>
    rw [restricted, List.filterMap_cons, ← restricted]
    by_cases hc : c = first
    · subst hc
      cases hfound : row.lookup c with
      | none => simp [ih, hfound]
      | some v => simp
    · cases row.lookup first with
      | none => simp [ih, hc]
      | some v => simp [List.lookup_cons, beq_false_of_ne hc, hc, ih]

theorem rowTuple_restricted (columns : List String) (index : Nat) (row : Record) :
    rowTuple columns index (restricted columns row) = rowTuple columns index row := by
  have hmissing : (columns.filter fun c => ((restricted columns row).lookup c).isNone) =
      columns.filter fun c => (row.lookup c).isNone :=
    List.filter_congr fun c hc => by rw [lookup_restricted, if_pos hc]
  have hvalues : (columns.filterMap fun c => (restricted columns row).lookup c) =
      columns.filterMap fun c => row.lookup c :=
    List.filterMap_congr fun c hc => by rw [lookup_restricted, if_pos hc]
  rw [rowTuple, rowTuple, hmissing, hvalues]

theorem rowTuples_restricted (columns : List String) (rows : List Record) (index : Nat) :
    rowTuples columns index (rows.map (restricted columns)) = rowTuples columns index rows := by
  induction rows generalizing index with
  | nil => rfl
  | cons row rest ih => rw [List.map_cons, rowTuples, rowTuples, rowTuple_restricted, ih]

/-- A command has the layout of its normal form. -/
theorem Command.layout_normal (c : Command) : c.normal.statement.layout = c.statement.layout := by
  cases c with
  | select q =>
    simp only [normal, statement, Select.normal, Statement.layout, testsOf_unlessEmpty,
      countClause_unlessZero, columnList_filter]
  | insert c =>
    simp only [normal, statement, Insert.normal, Statement.layout, getD_unlessEmpty,
      rowTuples_restricted, List.isEmpty_map]
  | update c =>
    simp only [normal, statement, Update.normal, testsOf_unlessEmpty, getD_unlessEmpty]
  | delete c =>
    simp only [normal, statement, Delete.normal, testsOf_unlessEmpty, getD_unlessEmpty]
  | call c => simp only [normal, statement, Call.normal, getD_unlessEmpty]

theorem Direction.keyword_injective : Function.Injective Direction.keyword := by
  intro d e h
  cases d <;> cases e <;> first | rfl | cases h

section Clauses

variable {words : List Word} {rest other : List Part}

theorem where_inj {conditions conditions' : Option (List Condition)} (hrest : StartsWith words rest)
    (hother : StartsWith words other) (hwords : .where ∉ words ∧ .and ∉ words)
    (h : clauseParts .where conditionsParts (unlessEmpty conditions) ++ rest =
      clauseParts .where conditionsParts (unlessEmpty conditions') ++ other) :
    unlessEmpty conditions = unlessEmpty conditions' ∧ rest = other :=
  clauseParts_inj hrest hother hwords.1 (fun _ _ _ _ hlists =>
    selfDelimiting_condition.separated_inj rfl (hrest.ended hwords.2) (hother.ended hwords.2) hlists) h

theorem order_inj {orderBy orderBy' : Option OrderBy} (hrest : StartsWith words rest)
    (hother : StartsWith words other) (hwords : .order ∉ words)
    (h : clauseParts .order OrderBy.parts orderBy ++ rest =
      clauseParts .order OrderBy.parts orderBy' ++ other) : orderBy = orderBy' ∧ rest = other := by
  refine clauseParts_inj hrest hother hwords (fun o _ p _ horder => ?_) h
  simp only [OrderBy.parts, List.cons_append, List.append_assoc, List.cons.injEq, true_and,
    List.nil_append] at horder
  have hended : ∀ (d : Direction) rest, Ended (word d.keyword :: rest) := fun d rest =>
    ended_word (by cases d <;> decide) rest
  obtain ⟨hcolumns, hdirections⟩ := nameParts_inj (hended _ _) (hended _ _) horder
  obtain ⟨hword, hrest⟩ := List.cons.inj hdirections
  have hdirection := Direction.keyword_injective (word_injective hword)
  obtain ⟨columns, direction, hne⟩ := o
  obtain ⟨columns', direction', hne'⟩ := p
  cases hcolumns
  cases hdirection
  exact ⟨rfl, hrest⟩

theorem number_inj {w : Word} {n n' : Option Nat} (hrest : StartsWith words rest)
    (hother : StartsWith words other) (hw : w ∉ words)
    (hn : ∀ m ∈ unlessZero n, numberParts m = [count m])
    (hn' : ∀ m ∈ unlessZero n', numberParts m = [count m])
    (h : clauseParts w numberParts (unlessZero n) ++ rest =
      clauseParts w numberParts (unlessZero n') ++ other) :
    unlessZero n = unlessZero n' ∧ rest = other := by
  refine clauseParts_inj hrest hother hw (fun m hm m' hm' hparts => ?_) h
  rw [hn m hm, hn' m' hm'] at hparts
  obtain ⟨hcount, hrest⟩ := List.cons.inj hparts
  exact ⟨count_injective hcount, hrest⟩

theorem returning_inj {returning returning' : Option (List String)}
    (h : clauseParts .returning columnParts (unlessEmpty returning) =
      clauseParts .returning columnParts (unlessEmpty returning')) :
    unlessEmpty returning = unlessEmpty returning' := by
  refine (clauseParts_inj (startsWith_nil []) (startsWith_nil []) List.not_mem_nil
    (fun columns hcolumns columns' hcolumns' hparts => ?_) (congrArg (· ++ []) h)).1
  obtain ⟨heither, hrest⟩ := columnParts_inj ended_nil ended_nil hparts
  refine ⟨?_, hrest⟩
  rcases heither with ⟨hstar, hstar'⟩ | rfl
  · have hall : ∀ {list : List String}, list ≠ [] → isStarred list → list = ["*"] := by
      intro list hne hlist
      simpa [isStarred, hne] using hlist
    rw [hall (mem_unlessEmpty hcolumns) hstar, hall (mem_unlessEmpty hcolumns') hstar']
  · rfl

end Clauses

theorem Select.startsWith_clauses (q : Select) :
    StartsWith [.where, .order, .limit, .offset] q.clauses :=
  ((((startsWith_nil []).clause .offset _ _).clause .limit _ _).clause .order _ _).clause .where _ _

theorem Select.selected_inj {selected selected' : Option (List String)} {rest other : List Part}
    (hrest : Ended rest) (hother : Ended other)
    (h : columnParts (selected.getD []) ++ rest = columnParts (selected'.getD []) ++ other) :
    (selected.filter fun columns => !isStarred columns) =
      (selected'.filter fun columns => !isStarred columns) ∧ rest = other := by
  obtain ⟨heither, hrest⟩ := columnParts_inj hrest hother h
  rw [filter_not_isStarred, filter_not_isStarred]
  rcases heither with ⟨hstar, hstar'⟩ | heq
  · rw [if_pos hstar, if_pos hstar']
    exact ⟨rfl, hrest⟩
  · rw [heq]
    exact ⟨rfl, hrest⟩

/-- What is left of a selection in its parts is its normal form. -/
theorem Select.normal_of_parts {q q' : Select}
    (hq : (Command.select q).statement.layout.fault = none)
    (hq' : (Command.select q').statement.layout.fault = none)
    (h : (Command.select q).statement.parts = (Command.select q').statement.parts) :
    q.normal = q'.normal := by
  rw [parts_eq, parts_eq] at h
  have hended (q : Select) : Ended (word .from :: name q.table :: q.clauses) :=
    ended_word (by decide) _
  obtain ⟨hselected, hfrom⟩ := selected_inj (hended q) (hended q') (List.cons.inj h).2
  simp only [name, List.cons.injEq, Part.token.injEq, Token.identifier.injEq, true_and] at hfrom
  obtain ⟨htable, hclauses⟩ := hfrom
  have hoffsets (q : Select) := (startsWith_nil []).clause .offset numberParts (unlessZero q.offset)
  have hlimits (q : Select) := (hoffsets q).clause .limit numberParts (unlessZero q.limit)
  have horders (q : Select) := (hlimits q).clause .order OrderBy.parts q.orderBy
  -- From left to right: each clause is known once it is known what may follow it.
  obtain ⟨hlimit, hoffset⟩ := numbers_written hq
  obtain ⟨hlimit', hoffset'⟩ := numbers_written hq'
  obtain ⟨hconditions, horder⟩ := where_inj (horders q) (horders q') (by decide) hclauses
  obtain ⟨horderBy, hnumbers⟩ := order_inj (hlimits q) (hlimits q') (by decide) horder
  obtain ⟨hlimits, hlast⟩ :=
    number_inj (hoffsets q) (hoffsets q') (by decide) hlimit hlimit' hnumbers
  obtain ⟨hoffsets, -⟩ :=
    number_inj (startsWith_nil []) (startsWith_nil []) List.not_mem_nil hoffset hoffset' hlast
  rw [normal, normal, htable, hselected, hconditions, horderBy, hlimits, hoffsets]

theorem separated_tuples (columns : List String) (rows : List Record) :
    separated (mark ",") (tupleParts columns) rows =
      separated (mark ",") tupleOf
        (rows.map fun row => columns.map fun c => (row.lookup c).getD .null) := by
  rw [separated, separated, List.map_map]
  rfl

/-- Rows with the same values in the listed columns are the same but for other columns. -/
theorem map_restricted {columns : List String} {rows rows' : List Record}
    (hrows : ∀ row ∈ rows, ∀ c ∈ columns, (row.lookup c).isSome)
    (hrows' : ∀ row ∈ rows', ∀ c ∈ columns, (row.lookup c).isSome)
    (h : (rows.map fun row => columns.map fun c => (row.lookup c).getD .null) =
      rows'.map fun row => columns.map fun c => (row.lookup c).getD .null) :
    rows.map (restricted columns) = rows'.map (restricted columns) := by
  induction rows generalizing rows' with
  | nil =>
    cases rows' with
    | nil => rfl
    | cons row' more' => cases h
  | cons row more ih =>
    cases rows' with
    | nil => cases h
    | cons row' more' =>
      obtain ⟨hrow, hmore⟩ := List.forall_mem_cons.mp hrows
      obtain ⟨hrow', hmore'⟩ := List.forall_mem_cons.mp hrows'
      obtain ⟨hvalues, hothers⟩ := List.cons.inj h
      have hrestricted : restricted columns row = restricted columns row' := by
        refine List.filterMap_congr fun c hc => ?_
        obtain ⟨v, hv⟩ := Option.isSome_iff_exists.mp (hrow c hc)
        obtain ⟨v', hv'⟩ := Option.isSome_iff_exists.mp (hrow' c hc)
        have hvalue := List.map_inj_left.mp hvalues c hc
        rw [hv, hv'] at hvalue
        rw [hv, hv', show v = v' from hvalue]
      rw [List.map_cons, List.map_cons, hrestricted, ih hmore hmore' hothers]

theorem startsWith_returning (returning : Option (List String)) :
    StartsWith [.returning] (clauseParts .returning columnParts (unlessEmpty returning)) := by
  rw [← List.append_nil (clauseParts _ _ _)]
  exact (startsWith_nil []).clause .returning _ _

theorem Insert.normal_of_parts {c c' : Insert}
    (hc : (Command.insert c).statement.layout.fault = none)
    (hc' : (Command.insert c').statement.layout.fault = none)
    (h : (Command.insert c).statement.parts = (Command.insert c').statement.parts) :
    c.normal = c'.normal := by
  obtain ⟨-, -, hrows⟩ := insert_of_layout hc
  obtain ⟨-, -, hrows'⟩ := insert_of_layout hc'
  rw [parts_eq, parts_eq] at h
  simp only [name, List.cons.injEq, Part.token.injEq, Token.identifier.injEq, true_and] at h
  obtain ⟨htable, hnames⟩ := h
  obtain ⟨hcolumns, hvalues⟩ := nameParts_inj (ended_closing _) (ended_closing _) hnames
  simp only [List.cons.injEq, true_and, separated_tuples] at hvalues
  have hended (c : Insert) := (startsWith_returning c.returning).ended (by decide)
  obtain ⟨htuples, hlast⟩ := selfDelimiting_tuple.separated_inj rfl (hended c) (hended c') hvalues
  rw [← hcolumns] at hrows' htuples
  rw [normal, normal, htable, ← hcolumns, map_restricted hrows hrows' htuples, returning_inj hlast]

theorem Update.normal_of_parts {c c' : Update}
    (h : (Command.update c).statement.parts = (Command.update c').statement.parts) :
    c.normal = c'.normal := by
  rw [parts_eq, parts_eq] at h
  simp only [name, List.cons.injEq, Part.token.injEq, Token.identifier.injEq, true_and] at h
  obtain ⟨htable, hassignments⟩ := h
  have hlasts (c : Update) := startsWith_returning c.returning
  have hended (c : Update) :=
    ((hlasts c).clause .where conditionsParts (unlessEmpty c.conditions)).ended (by decide)
  obtain ⟨hvalues, hclauses⟩ :=
    selfDelimiting_assignment.separated_inj rfl (hended c) (hended c') hassignments
  obtain ⟨hconditions, hlast⟩ := where_inj (hlasts c) (hlasts c') (by decide) hclauses
  rw [normal, normal, htable, hvalues, hconditions, returning_inj hlast]

theorem Delete.normal_of_parts {c c' : Delete}
    (h : (Command.delete c).statement.parts = (Command.delete c').statement.parts) :
    c.normal = c'.normal := by
  rw [parts_eq, parts_eq] at h
  simp only [name, List.cons.injEq, Part.token.injEq, Token.identifier.injEq, true_and] at h
  obtain ⟨htable, hclauses⟩ := h
  have hlasts (c : Delete) := startsWith_returning c.returning
  obtain ⟨hconditions, hlast⟩ := where_inj (hlasts c) (hlasts c') (by decide) hclauses
  rw [normal, normal, htable, hconditions, returning_inj hlast]

theorem Call.normal_of_parts {c c' : Call}
    (h : (Command.call c).statement.parts = (Command.call c').statement.parts) :
    c.normal = c'.normal := by
  rw [parts_eq, parts_eq] at h
  simp only [name, List.cons.injEq, Part.token.injEq, Token.identifier.injEq, true_and] at h
  obtain ⟨hprocedure, hvalues⟩ := h
  obtain ⟨hparameters, -⟩ := valueParts_inj (ended_closing []) (ended_closing []) hvalues
  have hnormal : unlessEmpty c.parameters = unlessEmpty c'.parameters := by
    rw [← unlessEmpty_some_getD, hparameters, unlessEmpty_some_getD]
  rw [normal, normal, hprocedure, hnormal]

/-- The word that a command starts with. -/
def Operation.keyword : Operation → Word
  | .select | .call => .select
  | .insert => .insert
  | .update => .update
  | .delete => .delete

theorem Command.head?_parts (c : Command) :
    c.statement.parts.head? = some (word c.operation.keyword) := by
  cases c with
  | select q => rw [Select.parts_eq]; rfl
  | insert c => rw [Insert.parts_eq]; rfl
  | update c => rw [Update.parts_eq]; rfl
  | delete c => rw [Delete.parts_eq]; rfl
  | call c => rw [Call.parts_eq]; rfl

/-- A selection starts like a call, but has no parenthesis behind its table. -/
theorem Select.parts_ne_call (q : Select) (c : Call) :
    (Command.select q).statement.parts ≠ (Command.call c).statement.parts := by
  intro h
  rw [parts_eq, Call.parts_eq] at h
  have hended : Ended (word .from :: name q.table :: q.clauses) := ended_word (by decide) _
  have hended' : Ended (word .from :: name c.procedure :: mark "(" ::
      (valueParts (c.parameters.getD []) ++ [mark ")"])) := ended_word (by decide) _
  have hcolumns : columnParts (q.selected.getD []) ++ word .from :: name q.table :: q.clauses =
      columnParts ["*"] ++ word .from :: name c.procedure :: mark "(" ::
        (valueParts (c.parameters.getD []) ++ [mark ")"]) := (List.cons.inj h).2
  obtain ⟨-, hfrom⟩ := columnParts_inj hended hended' hcolumns
  obtain ⟨-, hclauses⟩ := List.cons.inj (List.cons.inj hfrom).2
  obtain ⟨w, -, hword⟩ := q.startsWith_clauses (mark "(") (hclauses ▸ rfl)
  cases hword

/-- The parts of commands that are laid out are the same only if their normal forms are. -/
theorem Command.normal_of_parts {c c' : Command} (hc : c.statement.layout.fault = none)
    (hc' : c'.statement.layout.fault = none) (h : c.statement.parts = c'.statement.parts) :
    c.normal = c'.normal := by
  have hkeyword : c.operation.keyword = c'.operation.keyword := by
    have hheads := congrArg List.head? h
    rw [head?_parts, head?_parts] at hheads
    exact word_injective (Option.some.inj hheads)
  cases c with
  | select q =>
    cases c' with
    | select q' => exact congrArg select (Select.normal_of_parts hc hc' h)
    | call c' => exact absurd h (q.parts_ne_call c')
    | _ => cases hkeyword
  | insert c =>
    cases c' with
    | insert c' => exact congrArg insert (Insert.normal_of_parts hc hc' h)
    | _ => cases hkeyword
  | update c =>
    cases c' with
    | update c' => exact congrArg update (Update.normal_of_parts h)
    | _ => cases hkeyword
  | delete c =>
    cases c' with
    | delete c' => exact congrArg delete (Delete.normal_of_parts h)
    | _ => cases hkeyword
  | call c =>
    cases c' with
    | call c' => exact congrArg call (Call.normal_of_parts h)
    | select q' => exact absurd h.symm (q'.parts_ne_call c)
    | _ => cases hkeyword

/-- The parts of a compiled statement are known from its text and its parameters. -/
theorem Sql.Statement.parts_of_compiled {statement statement' : Statement} {dialect : Dialect}
    {compiled compiled' : Compiled} (h : statement.compile dialect .bound = .ok compiled)
    (h' : statement'.compile dialect .bound = .ok compiled') (hsql : compiled.sql = compiled'.sql)
    (hparams : compiled.params = compiled'.params) : statement.parts = statement'.parts := by
  have htokens : statement.tokens dialect .bound = statement'.tokens dialect .bound := by
    rw [← Option.some.injEq, ← tokens_of_compile h, ← tokens_of_compile h', hsql]
  have hvalues : valuesIn (itemsOf statement.parts) = valuesIn (itemsOf statement'.parts) := by
    rw [itemsOf_parts, itemsOf_parts, values_of_layout (layout_of_compile h).1,
      values_of_layout (layout_of_compile h').1, ← map_snd_numbered statement.arguments 0,
      ← map_snd_numbered statement'.arguments 0, ← params_of_compile h, ← params_of_compile h',
      hparams]
  exact boundTokens_inj (parts_fixed h) (parts_fixed h') htokens hvalues

/-- Two commands that compile have the same text and the same parameters exactly if they have the
same normal form. -/
theorem Command.compiled_eq_iff {c c' : Command} {dialect : Dialect} {compiled compiled' : Compiled}
    (h : c.compile dialect .bound = .ok compiled)
    (h' : c'.compile dialect .bound = .ok compiled') :
    (compiled.sql = compiled'.sql ∧ compiled.params = compiled'.params) ↔ c.normal = c'.normal := by
  constructor
  · rintro ⟨hsql, hparams⟩
    exact normal_of_parts (Statement.layout_of_compile h).1 (Statement.layout_of_compile h').1
      (Statement.parts_of_compiled h h' hsql hparams)
  · intro hnormal
    have hlayout : c.statement.layout = c'.statement.layout := by
      rw [← layout_normal, hnormal, layout_normal]
    have hcompiled : c.compile dialect .bound = c'.compile dialect .bound := by
      rw [compile, compile, Statement.compile, Statement.compile, hlayout]
    rw [h, h', Except.ok.injEq] at hcompiled
    exact ⟨congrArg Compiled.sql hcompiled, congrArg Compiled.params hcompiled⟩

/-- A selection of all rows. -/
def Command.terse : Command := .select ⟨"people", none, none, none, none, none⟩

/-- The same with all that can be left out written out. -/
def Command.wordy : Command := .select ⟨"people", some ["*"], some [], some 0, some 0, none⟩

theorem Command.compiled_terse : ∃ terse' wordy' called,
    terse.compile .postgres .bound = .ok terse' ∧ wordy.compile .postgres .bound = .ok wordy' ∧
    (call ⟨"people", none⟩).compile .postgres .bound = .ok called ∧
    (terse'.sql = wordy'.sql ∧ terse'.params = wordy'.params) ∧
    ¬ (terse'.sql = called.sql ∧ terse'.params = called.params) := by
  obtain ⟨terse', hterse⟩ : ∃ compiled, terse.compile .postgres .bound = .ok compiled :=
    Success.exists_of_toBool (by decide +kernel)
  obtain ⟨wordy', hwordy⟩ : ∃ compiled, wordy.compile .postgres .bound = .ok compiled :=
    Success.exists_of_toBool (by decide +kernel)
  obtain ⟨called, hcalled⟩ :
      ∃ compiled, (call ⟨"people", none⟩).compile .postgres .bound = .ok compiled :=
    Success.exists_of_toBool (by decide +kernel)
  refine ⟨terse', wordy', called, hterse, hwordy, hcalled, ?_, ?_⟩
  · exact (compiled_eq_iff hterse hwordy).mpr rfl
  · intro hsame
    cases (compiled_eq_iff hterse hcalled).mp hsame

end SchemaClient
