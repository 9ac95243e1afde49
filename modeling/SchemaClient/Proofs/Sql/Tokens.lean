import SchemaClient.Proofs.Sql.Literals

/-!
# The tokens a statement is meant to have

Clause by clause, without regard to blanks and lines. A value is a place that is filled later: by
the mark of a parameter, numbered from the left, or by the tokens of a literal.
-/
namespace SchemaClient.Sql

/-- A token, or a place for a value. -/
inductive Part where
  | token (t : Token)
  | value (v : Value)

namespace Part

def word (w : Word) : Part := .token (.word w.text)

def mark (m : String) : Part := .token (.mark m)

def name (s : String) : Part := .token (.identifier s)

def count (n : Int) : Part := .token (.numeral (toString n))

end Part

open SchemaClient.Sql.Part (word mark name count)

/-- Parts with a comma between each two groups. -/
def listParts (groups : List (List Part)) : List Part := [mark ","].intercalate groups

def nameParts (columns : List String) : List Part := listParts (columns.map fun c => [name c])

def valueParts (values : List Value) : List Part := listParts (values.map fun v => [.value v])

/-- Names, or a star in their place. -/
def columnParts (columns : List String) : List Part :=
  if columns = [] ∨ columns = ["*"] then [mark "*"] else nameParts columns

def unaryParts : UnaryOperator → List Part
  | .isNull => [word .is, word .null]
  | .isNotNull => [word .is, word .not, word .null]

/-- A column with its operator; an operator that there is not has no parts. -/
def testParts : Test → List Part
  | .unary column operator => name column :: ((UnaryOperator.ofWord? operator).map unaryParts).getD []
  | .binary column operator value => [name column, mark operator, .value value]
  | .foreign _ => []

def whereParts (tests : List Test) : List (List Part) :=
  if tests = [] then [] else [word .where :: [word .and].intercalate (tests.map testParts)]

def orderParts : Option Ordering → List (List Part)
  | none => []
  | some ordering =>
    [[word .order, word .by] ++ nameParts ordering.columns ++
      [word (if ordering.direction = "asc" then .asc else .desc)]]

def countParts (w : Word) (v : Value) : List (List Part) :=
  if v.isNothing then [] else [word w :: ((v.wholePart.toOption.map fun n => [count n]).getD [])]

def returningParts (returning : List String) : List (List Part) :=
  if returning = [] then [] else [word .returning :: columnParts returning]

/-- The values of the listed columns between parentheses. -/
def tupleParts (columns : List String) (row : Record) : List Part :=
  [mark "("] ++ valueParts (columns.map fun c => (row.lookup c).getD .null) ++ [mark ")"]

def assignmentParts (entry : String × Value) : List Part :=
  [name entry.1, mark "=", .value entry.2]

namespace Statement

/-- The clauses of a statement. -/
def clauses : Statement → List (List Part)
  | select table selected tests ordering limit offset =>
    [word .select :: columnParts selected, [word .from, name table]] ++ whereParts tests ++
      orderParts ordering ++ countParts .limit limit ++ countParts .offset offset
  | insert table columns rows returning =>
    [[word .insert, word .into, name table, mark "("] ++ nameParts columns ++ [mark ")"],
      word .values :: listParts (rows.map (tupleParts columns))] ++ returningParts returning
  | update table values tests returning =>
    [[word .update, name table], word .set :: listParts (values.map assignmentParts)] ++
      whereParts tests ++ returningParts returning
  | delete table tests returning =>
    [[word .delete, word .from, name table]] ++ whereParts tests ++ returningParts returning
  | call procedure parameters =>
    [[word .select, mark "*", word .from, name procedure, mark "("] ++ valueParts parameters ++
      [mark ")"]]

def parts (statement : Statement) : List Part := statement.clauses.flatten

end Statement

/-- Parameters in the places of values, numbered from `next` on. -/
def boundTokens (next : Nat) : List Part → List Token
  | [] => []
  | .token t :: rest => t :: boundTokens next rest
  | .value _ :: rest => .placeholder (paramName next) :: boundTokens (next + 1) rest

/-- A part with the value in its place. -/
def Part.inlineTokens (dialect : Dialect) : Part → List Token
  | token t => [t]
  | value v => literalTokens dialect v

/-- The tokens of parts with all values in their places. -/
def filledTokens (dialect : Dialect) : ValueMode → List Part → List Token
  | .bound, parts => boundTokens 0 parts
  | .inline, parts => parts.flatMap (Part.inlineTokens dialect)

/-- The tokens of a statement. -/
def Statement.tokens (statement : Statement) (dialect : Dialect) (mode : ValueMode) : List Token :=
  filledTokens dialect mode statement.parts

/-- All words that a statement may have. -/
def vocabulary : List String :=
  ["SELECT", "FROM", "WHERE", "AND", "ORDER", "BY", "ASC", "DESC", "LIMIT", "OFFSET", "INSERT",
    "INTO", "VALUES", "UPDATE", "SET", "DELETE", "RETURNING", "IS", "NOT", "NULL", "TRUE", "FALSE",
    "ARRAY"]

/-- All punctuation that a statement may have. -/
def punctuation : List String := ["=", ">", "<", ">=", "<=", "(", ")", "[", "]", ",", "*"]

/-- A word or punctuation is one of those that statements may have. -/
def Token.Known : Token → Prop
  | .word w => w ∈ vocabulary
  | .mark m => m ∈ punctuation
  | _ => True

end SchemaClient.Sql
