import SchemaClient.Proofs.Command.Sentences
import SchemaClient.Transport.Database

/-!
# Commands that return columns

Whether rows are read after a statement is settled by the command, before the statement is run. It
agrees with the text of the statement: of the commands that change a table just those have rows to
read whose text has a returning clause.
-/
namespace SchemaClient

open Sql
open Sql.Part (word mark name)

namespace Sql

/-- The text has a clause that returns columns. -/
def Returns (sql : String) : Prop :=
  ∃ before clause after, Lexer.tokens sql.toList = some (before ++ clause ++ after) ∧
    clause ∈ Grammar.returningClause

/-- Only values become something else than what they are as parts. -/
theorem mem_boundTokens {t : Token} {parts : List Part} {next : Nat}
    (h : t ∈ boundTokens next parts) : .token t ∈ parts ∨ ∃ s, t = .placeholder s := by
  induction parts generalizing next with
  | nil => cases h
  | cons part rest ih =>
    cases part with
    | token u =>
      rcases List.mem_cons.mp h with rfl | h
      · exact .inl List.mem_cons_self
      · exact (ih h).imp_left (List.mem_cons_of_mem _)
    | value v =>
      rcases List.mem_cons.mp h with rfl | h
      · exact .inr ⟨_, rfl⟩
      · exact (ih h).imp_left (List.mem_cons_of_mem _)

theorem word_mem_parts {w : Word} {parts : List Part} {next : Nat}
    (h : .word w.text ∈ boundTokens next parts) : word w ∈ parts := by
  rcases mem_boundTokens h with h | ⟨s, hs⟩
  · exact h
  · cases hs

section

variable {α : Type} {p separator : Part} {write : α → List Part}

theorem not_mem_separated (hseparator : p ≠ separator) (h : ∀ a, p ∉ write a) (items : List α) :
    p ∉ separated separator write items := by
  intro hmem
  rcases mem_intercalate hmem with hmem | ⟨group, hgroup, hmem⟩
  · exact hseparator (List.mem_singleton.mp hmem)
  · obtain ⟨a, -, rfl⟩ := List.mem_map.mp hgroup
    exact h a hmem

end

theorem returning_ne_mark (m : String) : word .returning ≠ mark m := by simp [word, mark]

theorem returning_not_mem_names (columns : List String) : word .returning ∉ nameParts columns := by
  have hlist : nameParts columns = separated (mark ",") (fun c => [name c]) columns := rfl
  rw [hlist]
  exact not_mem_separated (returning_ne_mark ",") (fun c => by simp [word, name]) columns

theorem returning_not_mem_values (values : List Value) : word .returning ∉ valueParts values := by
  have hlist : valueParts values = separated (mark ",") (fun v => [.value v]) values := rfl
  rw [hlist]
  exact not_mem_separated (returning_ne_mark ",") (fun v => by simp [word]) values

theorem returning_not_mem_tuple (columns : List String) (row : Record) :
    word .returning ∉ tupleParts columns row := by
  have hvalues := returning_not_mem_values (columns.map fun c => (row.lookup c).getD .null)
  simpa [tupleParts, word, mark] using hvalues

theorem returning_not_mem_condition (c : Condition) : word .returning ∉ conditionParts c := by
  cases c with
  | unary column o =>
    rw [conditionParts_unary]
    cases o <;> simp [unaryParts, word, name, Word.text]
  | binary column o v => simp [conditionParts, Test.ofCondition, testParts, word, name, mark]

theorem returning_not_mem_where (conditions : Option (List Condition)) :
    word .returning ∉ clauseParts .where conditionsParts conditions := by
  cases conditions with
  | none => exact List.not_mem_nil
  | some conditions =>
    have hword : word .returning ≠ word .where := by simp [word, Word.text]
    have hand : word .returning ≠ word .and := by simp [word, Word.text]
    have hconditions := not_mem_separated hand returning_not_mem_condition conditions
    exact fun hmem => (List.mem_cons.mp hmem).elim hword hconditions

/-- The text of a statement has a returning clause if and only if columns are listed for it. -/
theorem returns_iff {statement : Statement} {dialect : Dialect} {compiled : Compiled}
    (h : statement.compile dialect .bound = .ok compiled) {before : List Part}
    {returning : Option (List String)}
    (hparts : statement.parts =
      before ++ clauseParts .returning columnParts (unlessEmpty returning))
    (hbefore : word .returning ∉ before) :
    Returns compiled.sql ↔ !(returning.getD []).isEmpty := by
  have htokens := Statement.tokens_of_compile h
  have hstatement : statement.tokens dialect .bound = boundTokens 0 statement.parts := rfl
  rw [hstatement, hparts] at htokens
  rw [← getD_unlessEmpty]
  cases hclause : unlessEmpty returning with
  | none =>
    rw [hclause, clauseParts, List.append_nil] at htokens
    refine iff_of_false ?_ (by simp)
    rintro ⟨first, clause, after, hread, hgrammar⟩
    obtain ⟨_, rfl, columns, -, rfl⟩ := Language.mem_mul.mp hgrammar
    have hmem : .word Word.returning.text ∈ boundTokens 0 before := by
      rw [Option.some.inj (htokens.symm.trans hread)]
      simp [Word.text]
    exact hbefore (word_mem_parts hmem)
  | some columns =>
    obtain ⟨next, happend⟩ := exists_boundTokens_append before
      (clauseParts .returning columnParts (some columns)) 0
    rw [hclause, happend] at htokens
    refine iff_of_true ⟨_, _, [], by rw [List.append_nil]; exact htokens, ?_⟩ ?_
    · exact (derives_word .returning).cons (derives_columns columns) next
    · simpa using mem_unlessEmpty hclause

end Sql

theorem Insert.returns_iff {c : Insert} {dialect : Dialect} {compiled : Compiled}
    (h : (Command.insert c).compile dialect .bound = .ok compiled) :
    Returns compiled.sql ↔ !(c.returning.getD []).isEmpty := by
  have hparts : (Command.insert c).statement.parts =
      (word .insert :: word .into :: name c.table :: mark "(" :: (nameParts c.columns ++
        mark ")" :: word .values :: separated (mark ",") (tupleParts c.columns) c.rows)) ++
      clauseParts .returning columnParts (unlessEmpty c.returning) := by
    simp [parts_eq]
  have hnames := returning_not_mem_names c.columns
  have hrows := not_mem_separated (returning_ne_mark ",") (returning_not_mem_tuple c.columns) c.rows
  exact Sql.returns_iff h hparts (by simp_all [word, mark, name, Word.text])

theorem Update.returns_iff {c : Update} {dialect : Dialect} {compiled : Compiled}
    (h : (Command.update c).compile dialect .bound = .ok compiled) :
    Returns compiled.sql ↔ !(c.returning.getD []).isEmpty := by
  have hparts : (Command.update c).statement.parts =
      (word .update :: name c.table :: word .set :: (separated (mark ",") assignmentParts c.values ++
        clauseParts .where conditionsParts (unlessEmpty c.conditions))) ++
      clauseParts .returning columnParts (unlessEmpty c.returning) := by
    simp [parts_eq]
  have hassignment (entry : String × Value) : word .returning ∉ assignmentParts entry := by
    simp [assignmentParts, word, name, mark]
  have hvalues := not_mem_separated (returning_ne_mark ",") hassignment c.values
  have hwhere := returning_not_mem_where (unlessEmpty c.conditions)
  exact Sql.returns_iff h hparts (by simp_all [word, name, Word.text])

theorem Delete.returns_iff {c : Delete} {dialect : Dialect} {compiled : Compiled}
    (h : (Command.delete c).compile dialect .bound = .ok compiled) :
    Returns compiled.sql ↔ !(c.returning.getD []).isEmpty := by
  have hparts : (Command.delete c).statement.parts =
      (word .delete :: word .from :: name c.table ::
        clauseParts .where conditionsParts (unlessEmpty c.conditions)) ++
      clauseParts .returning columnParts (unlessEmpty c.returning) := by
    simp [parts_eq]
  have hwhere := returning_not_mem_where (unlessEmpty c.conditions)
  exact Sql.returns_iff h hparts (by simp_all [word, name, Word.text])

/-- All selections and calls have rows to read, and just those other commands whose text has a
returning clause. -/
theorem Command.returnsRows_iff {c : Command} {dialect : Dialect} {compiled : Compiled}
    (h : c.compile dialect .bound = .ok compiled) :
    c.returnsRows ↔ c.operation = .select ∨ c.operation = .call ∨ Returns compiled.sql := by
  cases c with
  | select q => exact iff_of_true rfl (.inl rfl)
  | call c => exact iff_of_true rfl (.inr (.inl rfl))
  | insert c => simp [Insert.returns_iff h, operation, returnsRows]
  | update c => simp [Update.returns_iff h, operation, returnsRows]
  | delete c => simp [Delete.returns_iff h, operation, returnsRows]

end SchemaClient
