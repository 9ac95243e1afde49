import SchemaClient.Proofs.Command.Parts
import SchemaClient.Proofs.Sql.Grammar

/-!
# Commands as sentences

The text of a command whose values are bound is a sentence of the dialect's grammar, whichever of
its fields are absent, empty or zero, with one exception: in SQLite a selection that skips rows
needs a limit, and gets none unless it has one.
-/
namespace SchemaClient

open Sql
open Sql.Part (word mark name count)

theorem derives_names {columns : List String} (hne : columns ≠ []) :
    Derives (Grammar.list Grammar.identifier) (nameParts columns) :=
  derives_list derives_identifier hne

theorem derives_columns (columns : List String) :
    Derives Grammar.columns (columnParts columns) := by
  rw [columnParts]
  split
  · exact (derives_symbol "*").left
  · next hsome => exact (derives_names fun hnil => hsome (.inl hnil)).right

theorem derives_operator (o : BinaryOperator) : Derives Grammar.operator [mark o.word] := by
  cases o with
  | equal => exact (derives_symbol "=").left.left.left.left
  | greater => exact (derives_symbol ">").right.left.left.left
  | less => exact (derives_symbol "<").right.left.left
  | greaterOrEqual => exact (derives_symbol ">=").right.left
  | lessOrEqual => exact (derives_symbol "<=").right

theorem derives_condition (c : Condition) : Derives Grammar.condition (conditionParts c) := by
  cases c with
  | unary column o =>
    rw [conditionParts_unary]
    refine (derives_identifier column).cons (Derives.right ?_)
    cases o with
    | isNull => exact ((derives_word .is).append (derives_nil _)).append (derives_word .null)
    | isNotNull =>
      exact ((derives_word .is).append (derives_word .not).optional).append (derives_word .null)
  | binary column o v =>
    exact (derives_identifier column).cons ((derives_operator o).cons (derives_placeholder v)).left

theorem derives_where (conditions : Option (List Condition)) :
    Derives (Grammar.optional Grammar.whereClause)
      (clauseParts .where conditionsParts (unlessEmpty conditions)) :=
  derives_clause fun _ hconditions =>
    derives_separated (derives_word .and) derives_condition (mem_unlessEmpty hconditions)

theorem derives_order (orderBy : Option OrderBy) :
    Derives (Grammar.optional Grammar.orderClause)
      (clauseParts .order OrderBy.parts orderBy) := by
  refine derives_clause fun o _ => ?_
  refine (derives_word .by).cons ((derives_names o.columns_ne_nil).append ?_)
  cases o.direction with
  | asc => exact (derives_word .asc).left
  | desc => exact (derives_word .desc).right

theorem derives_returning (returning : Option (List String)) :
    Derives (Grammar.optional Grammar.returningClause)
      (clauseParts .returning columnParts (unlessEmpty returning)) :=
  derives_clause fun columns _ => derives_columns columns

theorem derives_count (w : Word) {n : Option Nat}
    (h : ∀ m ∈ unlessZero n, numberParts m = [count m]) :
    Derives (Grammar.optional (Grammar.word w.text * Grammar.number))
      (clauseParts w numberParts (unlessZero n)) := by
  refine derives_clause fun m hm => ?_
  rw [h m hm]
  exact derives_number m

namespace Select

/-- The parts of a selection up to its ordering. -/
def opening (q : Select) : List Part :=
  word .select :: (columnParts (q.selected.getD []) ++ word .from :: name q.table ::
    (clauseParts .where conditionsParts (unlessEmpty q.conditions) ++
      clauseParts .order OrderBy.parts q.orderBy))

theorem parts_eq_opening (q : Select) :
    (Command.select q).statement.parts =
      q.opening ++ (clauseParts .limit numberParts (unlessZero q.limit) ++
        clauseParts .offset numberParts (unlessZero q.offset)) := by
  simp [parts_eq, clauses, opening]

theorem derives_opening (q : Select) : Derives Grammar.selection q.opening :=
  (derives_word .select).cons ((derives_columns _).append ((derives_word .from).cons
    ((derives_identifier q.table).cons
      ((derives_where q.conditions).append (derives_order q.orderBy)))))

/-- The selection skips rows and has no limit. -/
def OnlySkips (q : Select) : Prop := unlessZero q.limit = none ∧ unlessZero q.offset ≠ none

variable {q : Select}

theorem derives_window (h : (Command.select q).statement.layout.fault = none) {dialect : Dialect}
    (hwindow : ¬ (dialect = .sqlite ∧ q.OnlySkips)) :
    Derives (Grammar.window dialect)
      (clauseParts .limit numberParts (unlessZero q.limit) ++
        clauseParts .offset numberParts (unlessZero q.offset)) := by
  obtain ⟨hlimit, hoffset⟩ := numbers_written h
  have hoffsets := derives_count .offset hoffset
  cases dialect with
  | postgres => exact (derives_count .limit hlimit).append hoffsets
  | sqlite =>
    cases hfound : unlessZero q.limit with
    | none =>
      have hnone : unlessZero q.offset = none := by
        by_contra hsome
        exact hwindow ⟨rfl, hfound, hsome⟩
      rw [hnone]
      exact derives_nil _
    | some n =>
      have hclause : Derives Grammar.limitClause (clauseParts .limit numberParts (some n)) := by
        rw [clauseParts, hlimit n hfound]
        exact (derives_word .limit).cons (derives_number n)
      exact (hclause.append hoffsets).optional

/-- A selection is a sentence but for SQLite and an offset that stands alone. -/
theorem mem_select_iff (h : (Command.select q).statement.layout.fault = none) (dialect : Dialect)
    (next : Nat) :
    boundTokens next (Command.select q).statement.parts ∈ Grammar.select dialect ↔
      ¬ (dialect = .sqlite ∧ q.OnlySkips) := by
  rw [parts_eq_opening]
  constructor
  · rintro hmem ⟨rfl, hnone, hsome⟩
    obtain ⟨m, hm⟩ := Option.ne_none_iff_exists'.mp hsome
    obtain ⟨following, happend⟩ := exists_boundTokens_append q.opening [word .offset, count m] next
    have hwindow : clauseParts .limit numberParts (unlessZero q.limit) ++
        clauseParts .offset numberParts (unlessZero q.offset) = [word .offset, count m] := by
      rw [hnone, hm, clauseParts, clauseParts, (numbers_written h).2 m hm]
      rfl
    rw [hwindow, happend] at hmem
    have htokens : boundTokens following [word .offset, count m] =
        [.word "OFFSET", .numeral (toString (m : Int))] := rfl
    exact Grammar.not_mem_select_sqlite (q.derives_opening next) (by simp [htokens])
      (by simp [htokens]) hmem
  · intro hwindow
    exact q.derives_opening.append (derives_window h hwindow) next

end Select

theorem derives_tuple {columns : List String} {more : Nat} (hlength : columns.length = more + 1)
    (row : Record) :
    Derives (Grammar.enclosed (Grammar.row Grammar.placeholder more)) (tupleParts columns row) := by
  obtain ⟨c, rest, rfl⟩ := List.exists_cons_of_length_eq_add_one hlength
  obtain rfl : rest.length = more := Nat.succ.inj hlength
  have hrow := derives_row derives_placeholder ((row.lookup c).getD .null)
    (rest.map fun c => (row.lookup c).getD .null)
  rw [List.length_map] at hrow
  exact ((derives_symbol "(").append hrow).append (derives_symbol ")")

theorem Insert.derives {c : Insert} (h : (Command.insert c).statement.layout.fault = none) :
    Derives Grammar.insert (Command.insert c).statement.parts := by
  obtain ⟨hcolumns, hrows, -⟩ := insert_of_layout h
  obtain ⟨first, rest, hlist⟩ := List.exists_cons_of_ne_nil hcolumns
  have hlength : c.columns.length = rest.length + 1 := by rw [hlist, List.length_cons]
  have hnames : Derives (Grammar.row Grammar.identifier rest.length) (nameParts c.columns) := by
    rw [hlist]
    exact derives_row derives_identifier first rest
  have hparts : (Command.insert c).statement.parts =
      word .insert :: word .into :: name c.table :: (([mark "("] ++ nameParts c.columns ++
        [mark ")"]) ++ word .values :: (separated (mark ",") (tupleParts c.columns) c.rows ++
          clauseParts .returning columnParts (unlessEmpty c.returning))) := by
    simp [parts_eq]
  have hsentence := (derives_word .insert).cons ((derives_word .into).cons
    ((derives_identifier c.table).cons
      ((((derives_symbol "(").append hnames).append (derives_symbol ")")).append
        ((derives_word .values).cons ((derives_list (derives_tuple hlength) hrows).append
          (derives_returning c.returning))))))
  rw [hparts]
  intro next
  exact Language.mem_iSup.mpr ⟨rest.length, hsentence next⟩

theorem Update.derives {c : Update} (h : (Command.update c).statement.layout.fault = none) :
    Derives Grammar.update (Command.update c).statement.parts := by
  have hvalues : c.values ≠ [] := by
    intro hnil
    simp [Command.statement, Statement.layout, hnil, Layout.fail] at h
  have hassignment (entry : String × Value) :
      Derives (Grammar.identifier * (Grammar.symbol "=" * Grammar.placeholder))
        (assignmentParts entry) :=
    (derives_identifier entry.1).cons ((derives_symbol "=").cons (derives_placeholder entry.2))
  rw [parts_eq]
  exact (derives_word .update).cons ((derives_identifier c.table).cons ((derives_word .set).cons
    ((derives_list hassignment hvalues).append
      ((derives_where c.conditions).append (derives_returning c.returning)))))

theorem Delete.derives (c : Delete) :
    Derives Grammar.delete (Command.delete c).statement.parts := by
  rw [parts_eq]
  exact (derives_word .delete).cons ((derives_word .from).cons ((derives_identifier c.table).cons
    ((derives_where c.conditions).append (derives_returning c.returning))))

theorem Call.derives (c : Call) : Derives Grammar.call (Command.call c).statement.parts := by
  have hvalues : Derives (Grammar.optional (Grammar.list Grammar.placeholder))
      (valueParts (c.parameters.getD [])) := by
    by_cases hnil : c.parameters.getD [] = []
    · rw [hnil]
      exact derives_nil _
    · exact (derives_list derives_placeholder hnil).optional
  rw [parts_eq]
  exact (derives_word .select).cons ((derives_symbol "*").cons ((derives_word .from).cons
    ((derives_identifier c.procedure).cons
      (((derives_symbol "(").append hvalues).append (derives_symbol ")")))))

/-- The command is a selection that skips rows and has no limit. -/
def Command.OnlySkips : Command → Prop
  | select q => q.OnlySkips
  | _ => False

/-- A command that compiles is a sentence of the grammar of its dialect, unless the dialect is
SQLite and the command skips rows without a limit; then it is none. -/
theorem Command.sentence_iff {c : Command} {dialect : Dialect} {compiled : Compiled}
    (h : c.compile dialect .bound = .ok compiled) :
    ∃ tokens, Lexer.tokens compiled.sql.toList = some tokens ∧
      (tokens ∈ Grammar.statement dialect c.operation ↔
        ¬ (dialect = .sqlite ∧ c.OnlySkips)) := by
  refine ⟨_, Statement.tokens_of_compile h, ?_⟩
  have hfault := (Statement.layout_of_compile h).1
  have hother : ¬ (dialect = .sqlite ∧ False) := fun hfalse => hfalse.2
  cases c with
  | select q => exact Select.mem_select_iff hfault dialect 0
  | insert c => exact iff_of_true (Insert.derives hfault 0) hother
  | update c => exact iff_of_true (Update.derives hfault 0) hother
  | delete c => exact iff_of_true (c.derives 0) hother
  | call c => exact iff_of_true (c.derives 0) hother

/-- A selection that skips five rows, and one that takes two of the rows behind them. -/
def Command.skipping : Command := .select ⟨"people", none, none, none, some 5, none⟩

def Command.paging : Command := .select ⟨"people", none, none, some 2, some 5, none⟩

theorem Command.sentence_paging : ∃ skipping' paging' first second,
    skipping.compile .postgres .bound = .ok skipping' ∧
    paging.compile .sqlite .bound = .ok paging' ∧
    Lexer.tokens skipping'.sql.toList = some first ∧
    first ∈ Grammar.statement .postgres .select ∧
    Lexer.tokens paging'.sql.toList = some second ∧
    second ∈ Grammar.statement .sqlite .select := by
  obtain ⟨skipping', hskipping⟩ : ∃ compiled, skipping.compile .postgres .bound = .ok compiled :=
    Success.exists_of_toBool (by decide +kernel)
  obtain ⟨paging', hpaging⟩ : ∃ compiled, paging.compile .sqlite .bound = .ok compiled :=
    Success.exists_of_toBool (by decide +kernel)
  obtain ⟨first, hfirst, hpostgres⟩ := sentence_iff hskipping
  obtain ⟨second, hsecond, hsqlite⟩ := sentence_iff hpaging
  have hlimited : ¬ paging.OnlySkips := fun h => absurd h.1 (by decide)
  exact ⟨skipping', paging', first, second, hskipping, hpaging, hfirst,
    hpostgres.mpr fun h => absurd h.1 (by decide), hsecond, hsqlite.mpr fun h => hlimited h.2⟩

/-- In SQLite the selection that only skips compiles to a text that is no sentence. -/
theorem Command.skipping_no_sentence : ∃ compiled tokens,
    skipping.compile .sqlite .bound = .ok compiled ∧
    compiled.sql = "SELECT *\nFROM \"people\"\nOFFSET 5" ∧
    Lexer.tokens compiled.sql.toList = some tokens ∧
    tokens ∉ Grammar.statement .sqlite skipping.operation := by
  have hsql : (skipping.compile .sqlite .bound).toOption.map Compiled.sql =
      some "SELECT *\nFROM \"people\"\nOFFSET 5" := by decide +kernel
  obtain ⟨compiled, hcompiled⟩ : ∃ compiled, skipping.compile .sqlite .bound = .ok compiled :=
    Success.exists_of_toBool (by decide +kernel)
  rw [hcompiled] at hsql
  have hiff := Select.mem_select_iff (Statement.layout_of_compile hcompiled).1 .sqlite 0
  have hskips : Select.OnlySkips ⟨"people", none, none, none, some 5, none⟩ :=
    ⟨by decide, by decide⟩
  exact ⟨compiled, _, hcompiled, Option.some.inj hsql, Statement.tokens_of_compile hcompiled,
    fun hmem => hiff.mp hmem ⟨rfl, hskips⟩⟩

end SchemaClient
