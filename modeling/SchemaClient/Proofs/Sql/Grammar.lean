import Mathlib.Computability.Language
import Mathlib.Order.CompletePartialOrder
import SchemaClient.Proofs.Sql.Unambiguous

/-!
# The grammar of statements

The statements of the two dialects, as languages of tokens. The dialects differ in how many rows are
skipped: in SQLite only a limit can have an offset, in PostgreSQL each of the two may stand alone.
-/
namespace SchemaClient.Sql

open SchemaClient.Sql.Part (mark name count)
open scoped Computability

namespace Grammar

def word (w : String) : Language Token := {[.word w]}

def symbol (m : String) : Language Token := {[.mark m]}

def identifier : Language Token := ⨆ name, {[.identifier name]}

def placeholder : Language Token := ⨆ name, {[.placeholder name]}

/-- A number that is not negative. -/
def number : Language Token := ⨆ n : Nat, {[.numeral (Nat.repr n)]}

variable (l separator : Language Token)

def optional : Language Token := 1 + l

/-- One sentence or more, with a separator between each two. -/
def separated : Language Token := l * (separator * l)∗

def list : Language Token := separated l (symbol ",")

/-- A list of `more` sentences behind the first one. -/
def row (more : Nat) : Language Token := l * (symbol "," * l) ^ more

def enclosed : Language Token := symbol "(" * l * symbol ")"

def operator : Language Token :=
  symbol "=" + symbol ">" + symbol "<" + symbol ">=" + symbol "<="

def condition : Language Token :=
  identifier * (operator * placeholder + word "IS" * optional (word "NOT") * word "NULL")

def whereClause : Language Token := word "WHERE" * separated condition (word "AND")

def columns : Language Token := symbol "*" + list identifier

def orderClause : Language Token :=
  word "ORDER" * (word "BY" * (list identifier * (word "ASC" + word "DESC")))

def limitClause : Language Token := word "LIMIT" * number

def offsetClause : Language Token := word "OFFSET" * number

/-- Which of the rows are meant. -/
def window : Dialect → Language Token
  | .postgres => optional limitClause * optional offsetClause
  | .sqlite => optional (limitClause * optional offsetClause)

def returningClause : Language Token := word "RETURNING" * columns

/-- A selection up to its ordering. -/
def selection : Language Token :=
  word "SELECT" * (columns * (word "FROM" * (identifier *
    (optional whereClause * optional orderClause))))

def select (dialect : Dialect) : Language Token := selection * window dialect

/-- Rows of values for as many columns as are listed. -/
def insert : Language Token :=
  ⨆ more, word "INSERT" * (word "INTO" * (identifier * (enclosed (row identifier more) *
    (word "VALUES" * (list (enclosed (row placeholder more)) * optional returningClause)))))

def update : Language Token :=
  word "UPDATE" * (identifier * (word "SET" * (list (identifier * (symbol "=" * placeholder)) *
    (optional whereClause * optional returningClause))))

def delete : Language Token :=
  word "DELETE" * (word "FROM" * (identifier * (optional whereClause * optional returningClause)))

def call : Language Token :=
  word "SELECT" * (symbol "*" * (word "FROM" * (identifier *
    enclosed (optional (list placeholder)))))

/-- The statements of a dialect that do what an operation stands for. -/
def statement (dialect : Dialect) : Operation → Language Token
  | .select => select dialect
  | .insert => insert
  | .update => update
  | .delete => delete
  | .call => call

end Grammar

/-- No sentence has the token. -/
def Avoids (l : Language Token) (t : Token) : Prop := ∀ sentence ∈ l, t ∉ sentence

namespace Avoids

variable {l m : Language Token} {t : Token}

theorem of_single {u : Token} (h : t ≠ u) : Avoids ({[u]} : Language Token) t := by
  rintro _ rfl hmem
  exact h (List.mem_singleton.mp hmem)

theorem one : Avoids 1 t := by
  rintro _ rfl hmem
  cases hmem

theorem mul (hl : Avoids l t) (hm : Avoids m t) : Avoids (l * m) t := by
  intro sentence hsentence hmem
  obtain ⟨first, hfirst, second, hsecond, rfl⟩ := Language.mem_mul.mp hsentence
  rcases List.mem_append.mp hmem with hmem | hmem
  · exact hl first hfirst hmem
  · exact hm second hsecond hmem

theorem add (hl : Avoids l t) (hm : Avoids m t) : Avoids (l + m) t := by
  intro sentence hsentence
  rcases (Language.mem_add l m sentence).mp hsentence with h | h
  · exact hl sentence h
  · exact hm sentence h

theorem optional (hl : Avoids l t) : Avoids (Grammar.optional l) t := one.add hl

theorem kstar (hl : Avoids l t) : Avoids l∗ t := by
  intro sentence hsentence hmem
  obtain ⟨parts, rfl, hparts⟩ := Language.mem_kstar.mp hsentence
  obtain ⟨part, hpart, hmem⟩ := List.mem_flatten.mp hmem
  exact hl part (hparts part hpart) hmem

theorem separated (hl : Avoids l t) (hm : Avoids m t) : Avoids (Grammar.separated l m) t :=
  hl.mul (hm.mul hl).kstar

theorem iSup {ι : Type} {languages : ι → Language Token} (h : ∀ i, Avoids (languages i) t) :
    Avoids (⨆ i, languages i) t := by
  intro sentence hsentence
  obtain ⟨i, hi⟩ := Language.mem_iSup.mp hsentence
  exact h i sentence hi

end Avoids

namespace Grammar

variable {w : String}

theorem avoids_word {v : String} (h : w ≠ v) : Avoids (word v) (.word w) :=
  .of_single fun heq => h (Token.word.inj heq)

theorem avoids_symbol (m : String) : Avoids (symbol m) (.word w) := .of_single nofun

theorem avoids_identifier : Avoids identifier (.word w) := .iSup fun _ => .of_single nofun

theorem avoids_placeholder : Avoids placeholder (.word w) := .iSup fun _ => .of_single nofun

theorem avoids_names : Avoids (list identifier) (.word w) :=
  avoids_identifier.separated (avoids_symbol ",")

theorem avoids_columns : Avoids columns (.word w) := (avoids_symbol "*").add avoids_names

theorem avoids_operator : Avoids operator (.word w) :=
  ((((avoids_symbol "=").add (avoids_symbol ">")).add (avoids_symbol "<")).add
    (avoids_symbol ">=")).add (avoids_symbol "<=")

/-- The words of a selection up to its ordering. -/
def selectionWords : List String :=
  ["SELECT", "FROM", "WHERE", "AND", "IS", "NOT", "NULL", "ORDER", "BY", "ASC", "DESC"]

/-- Up to its ordering a selection has none but its own words. -/
theorem avoids_selection (h : w ∉ selectionWords) : Avoids selection (.word w) := by
  have hword : ∀ v ∈ selectionWords, Avoids (word v) (.word w) := by
    intro v hv
    exact avoids_word fun heq => h (heq ▸ hv)
  simp only [selectionWords, List.forall_mem_cons] at hword
  obtain ⟨hselect, hfrom, hwhere, hand, his, hnot, hnull, horder, hby, hasc, hdesc, -⟩ := hword
  have hcondition : Avoids condition (.word w) :=
    avoids_identifier.mul ((avoids_operator.mul avoids_placeholder).add
      ((his.mul hnot.optional).mul hnull))
  have hwhereClause : Avoids whereClause (.word w) := hwhere.mul (hcondition.separated hand)
  have horderClause : Avoids orderClause (.word w) :=
    horder.mul (hby.mul (avoids_names.mul (hasc.add hdesc)))
  exact hselect.mul (avoids_columns.mul (hfrom.mul (avoids_identifier.mul
    (hwhereClause.optional.mul horderClause.optional))))

/-- Behind a selection in SQLite an offset does not stand alone. -/
theorem not_mem_select_sqlite {sentence rest : List Token} (hselection : sentence ∈ selection)
    (hlimit : .word "LIMIT" ∉ rest) (hoffset : .word "OFFSET" ∈ rest) :
    sentence ++ rest ∉ select .sqlite := by
  have hlimits : Avoids selection (.word "LIMIT") := avoids_selection (by decide)
  have hoffsets : Avoids selection (.word "OFFSET") := avoids_selection (by decide)
  intro hmem
  obtain ⟨first, hfirst, second, hsecond, heq⟩ := Language.mem_mul.mp hmem
  rcases (Language.mem_add _ _ second).mp hsecond with hnil | hwindow
  · obtain rfl := (Language.mem_one second).mp hnil
    have hfound : .word "OFFSET" ∈ first ++ [] := heq ▸ List.mem_append_right sentence hoffset
    rw [List.append_nil] at hfound
    exact hoffsets first hfirst hfound
  · obtain ⟨limit, hlimitClause, tail, -, rfl⟩ := Language.mem_mul.mp hwindow
    obtain ⟨_, rfl, digits, -, rfl⟩ := Language.mem_mul.mp hlimitClause
    have hfound : .word "LIMIT" ∈ sentence ++ rest := by
      rw [← heq]
      simp
    rcases List.mem_append.mp hfound with hfound | hfound
    · exact hlimits sentence hselection hfound
    · exact hlimit hfound

end Grammar

/-- The tokens of the parts are a sentence, wherever the parameters start to be numbered. -/
def Derives (l : Language Token) (parts : List Part) : Prop := ∀ next, boundTokens next parts ∈ l

theorem exists_boundTokens_append (parts others : List Part) (next : Nat) :
    ∃ following, boundTokens next (parts ++ others) =
      boundTokens next parts ++ boundTokens following others := by
  induction parts generalizing next with
  | nil => exact ⟨next, rfl⟩
  | cons part rest ih =>
    cases part with
    | token t =>
      obtain ⟨following, h⟩ := ih next
      exact ⟨following, congrArg (t :: ·) h⟩
    | value v =>
      obtain ⟨following, h⟩ := ih (next + 1)
      exact ⟨following, congrArg (Token.placeholder (paramName next) :: ·) h⟩

namespace Derives

variable {l m : Language Token} {parts others : List Part}

theorem append (h : Derives l parts) (hothers : Derives m others) :
    Derives (l * m) (parts ++ others) := by
  intro next
  obtain ⟨following, happend⟩ := exists_boundTokens_append parts others next
  rw [happend]
  exact Language.append_mem_mul (h next) (hothers following)

theorem cons {part : Part} (h : Derives l [part]) (hothers : Derives m others) :
    Derives (l * m) (part :: others) := h.append hothers

theorem left (h : Derives l parts) : Derives (l + m) parts := fun next => .inl (h next)

theorem right (h : Derives m parts) : Derives (l + m) parts := fun next => .inr (h next)

theorem optional (h : Derives l parts) : Derives (Grammar.optional l) parts := h.right

end Derives

theorem derives_word (w : Word) : Derives (Grammar.word w.text) [Part.word w] := fun _ => rfl

theorem derives_symbol (m : String) : Derives (Grammar.symbol m) [mark m] := fun _ => rfl

theorem derives_identifier (s : String) : Derives Grammar.identifier [name s] :=
  fun _ => Language.mem_iSup.mpr ⟨s, rfl⟩

theorem derives_placeholder (v : Value) : Derives Grammar.placeholder [.value v] :=
  fun next => Language.mem_iSup.mpr ⟨paramName next, rfl⟩

theorem derives_number (n : Nat) : Derives Grammar.number [count n] :=
  fun _ => Language.mem_iSup.mpr ⟨n, rfl⟩

theorem derives_nil (l : Language Token) : Derives (Grammar.optional l) [] := fun _ => .inl rfl

section Lists

variable {α : Type} {l m : Language Token} {write : α → List Part} {separator : Part}

theorem derives_pow (h : ∀ a, Derives l (write a)) (items : List α) :
    Derives (l ^ items.length) (items.flatMap write) := by
  induction items with
  | nil => exact fun _ => rfl
  | cons a rest ih =>
    rw [List.length_cons, pow_succ']
    exact (h a).append ih

theorem derives_row (h : ∀ a, Derives l (write a)) (a : α) (rest : List α) :
    Derives (Grammar.row l rest.length) (separated (mark ",") write (a :: rest)) := by
  rw [separated_cons]
  exact (h a).append (derives_pow (fun b => (derives_symbol ",").cons (h b)) rest)

theorem derives_separated (hseparator : Derives m [separator]) (h : ∀ a, Derives l (write a))
    {items : List α} (hne : items ≠ []) :
    Derives (Grammar.separated l m) (separated separator write items) := by
  obtain ⟨a, rest, rfl⟩ := List.exists_cons_of_ne_nil hne
  rw [separated_cons]
  refine (h a).append fun next => ?_
  have hpow := derives_pow (fun b => hseparator.cons (h b)) rest next
  rw [Language.kstar_eq_iSup_pow, Language.mem_iSup]
  exact ⟨rest.length, hpow⟩

theorem derives_list (h : ∀ a, Derives l (write a)) {items : List α} (hne : items ≠ []) :
    Derives (Grammar.list l) (separated (mark ",") write items) :=
  derives_separated (derives_symbol ",") h hne

/-- A clause that may be left out derives from its language if what it says does. -/
theorem derives_clause {w : Word} {x : Option α} (h : ∀ a ∈ x, Derives l (write a)) :
    Derives (Grammar.optional (Grammar.word w.text * l)) (clauseParts w write x) := by
  cases x with
  | none => exact derives_nil _
  | some a => exact ((derives_word w).cons (h a rfl)).optional

end Lists

end SchemaClient.Sql
