import SchemaClient.Sql.Statement

/-!
# Layouts

A statement as a row of pieces: words, marks, names, places for values. The pieces are the same for
every dialect and for values of any kind. Where something is wrong with a statement, the layout
holds the pieces up to that place, so that whoever writes the pieces finds the faults in the order
of the text.
-/
namespace SchemaClient.Sql

inductive Word where
  | select | from | where | and | order | by | asc | desc | limit | offset
  | insert | into | values | update | set | delete | returning | is | not | null
  deriving DecidableEq

def Word.text : Word → String
  | select => "SELECT"
  | .from => "FROM"
  | .where => "WHERE"
  | and => "AND"
  | order => "ORDER"
  | .by => "BY"
  | asc => "ASC"
  | desc => "DESC"
  | limit => "LIMIT"
  | offset => "OFFSET"
  | insert => "INSERT"
  | into => "INTO"
  | values => "VALUES"
  | update => "UPDATE"
  | set => "SET"
  | delete => "DELETE"
  | returning => "RETURNING"
  | is => "IS"
  | not => "NOT"
  | null => "NULL"

inductive Piece where
  | word (w : Word)
  | operator (o : BinaryOperator)
  | star
  | comma
  | opening
  | closing
  | blank
  | newline
  | name (s : String)
  | count (n : Int)
  /-- A place for a value. -/
  | slot (v : Value)

/-- Pieces, and the fault that ends them, if there is one. -/
structure Layout where
  pieces : List Piece
  fault : Option Fault

namespace Layout

def ofPieces (pieces : List Piece) : Layout := ⟨pieces, none⟩

def fail (fault : Fault) : Layout := ⟨[], some fault⟩

/-- One layout after another. Nothing follows a fault. -/
def append (first second : Layout) : Layout :=
  match first.fault with
  | some _ => first
  | none => ⟨first.pieces ++ second.pieces, second.fault⟩

instance : Append Layout where
  append := append

/-- Layouts with pieces between each two. -/
def joined (separator : List Piece) : List Layout → Layout
  | [] => ofPieces []
  | [only] => only
  | first :: rest => first ++ (ofPieces separator ++ joined separator rest)

end Layout

open Layout (ofPieces fail joined)

def listSeparator : List Piece := [.comma, .blank]

/-- Words with blanks between them. -/
def phrase (words : List Word) : List Piece :=
  (words.map Piece.word).intersperse .blank

def names (columns : List String) : Layout :=
  joined listSeparator (columns.map fun c => ofPieces [.name c])

/-- Names, or a star for all of them: for none at all and for the name of the star alone. -/
def columnList (columns : List String) : Layout :=
  if columns.isEmpty || columns = ["*"] then ofPieces [.star] else names columns

def slots (values : List Value) : Layout :=
  joined listSeparator (values.map fun v => ofPieces [.slot v])

def unaryWords : UnaryOperator → List Word
  | .isNull => [.is, .null]
  | .isNotNull => [.is, .not, .null]

def test : Test → Layout
  | .unary column operator =>
    match UnaryOperator.ofWord? operator with
    | some o => ofPieces (.name column :: .blank :: phrase (unaryWords o))
    | none => fail (.unknownOperator operator)
  | .binary column operator value =>
    match BinaryOperator.ofWord? operator with
    | some o => ofPieces [.name column, .blank, .operator o, .blank, .slot value]
    | none => fail (.unknownOperator operator)
  | .foreign kind => fail (.unknownTest kind)

/-- The clause of the rows meant. Like every clause that has nothing to say, it is left out if there
are no tests. -/
def whereClause (tests : List Test) : List Layout :=
  if tests.isEmpty then []
  else
    [ofPieces [.word .where, .blank] ++
      joined [.blank, .word .and, .blank] (tests.map test)]

def directionWord? : String → Option Word
  | "asc" => some .asc
  | "desc" => some .desc
  | _ => none

def orderClause : Option Ordering → List Layout
  | none => []
  | some ordering =>
    match directionWord? ordering.direction with
    | none => [fail (.unknownDirection ordering.direction)]
    | some direction =>
      if ordering.columns.isEmpty then [fail .noOrderColumns]
      else
        [ofPieces (phrase [.order, .by] ++ [.blank]) ++ names ordering.columns ++
          ofPieces [.blank, .word direction]]

/-- The clause of a number of rows, unless the number stands for nothing. -/
def countClause (word : Word) (v : Value) : List Layout :=
  if v.isNothing then []
  else
    match v.wholePart with
    | .ok n => [ofPieces [.word word, .blank, .count n]]
    | .error fault => [fail (.notCount fault)]

def returningClause (returning : List String) : List Layout :=
  if returning.isEmpty then []
  else [ofPieces [.word .returning, .blank] ++ columnList returning]

/-- The values of the columns of one row, or a fault that names the columns it lacks. -/
def rowTuple (columns : List String) (index : Nat) (row : Record) : Layout :=
  let missing := columns.filter fun c => (row.lookup c).isNone
  if missing.isEmpty then
    ofPieces [.opening] ++ slots (columns.filterMap fun c => row.lookup c) ++ ofPieces [.closing]
  else fail (.missingColumns index missing)

/-- The rows from number `index` on. -/
def rowTuples (columns : List String) (index : Nat) : List Record → List Layout
  | [] => []
  | row :: rest => rowTuple columns index row :: rowTuples columns (index + 1) rest

def assignment (entry : String × Value) : Layout :=
  ofPieces [.name entry.1, .blank, .operator .equal, .blank, .slot entry.2]

/-- Clauses, each on a line of its own. -/
def lines (clauses : List Layout) : Layout := joined [.newline] clauses

namespace Statement

def layout : Statement → Layout
  | select table selected tests ordering limit offset =>
    lines <|
      [ofPieces [.word .select, .blank] ++ columnList selected,
        ofPieces [.word .from, .blank, .name table]] ++
      whereClause tests ++ orderClause ordering ++ countClause .limit limit ++
      countClause .offset offset
  | insert table columns rows returning =>
    if columns.isEmpty then fail .noColumns
    else if rows.isEmpty then fail .noRows
    else
      lines <|
        [ofPieces (phrase [.insert, .into] ++ [.blank, .name table, .blank, .opening]) ++
            names columns ++ ofPieces [.closing],
          ofPieces [.word .values, .blank] ++
            joined listSeparator (rowTuples columns 0 rows)] ++
        returningClause returning
  | update table values tests returning =>
    if values.isEmpty then fail .noValues
    else
      lines <|
        [ofPieces [.word .update, .blank, .name table],
          ofPieces [.word .set, .blank] ++ joined listSeparator (values.map assignment)] ++
        whereClause tests ++ returningClause returning
  | delete table tests returning =>
    lines <|
      [ofPieces (phrase [.delete, .from] ++ [.blank, .name table])] ++ whereClause tests ++
      returningClause returning
  | call procedure parameters =>
    ofPieces
        [.word .select, .blank, .star, .blank, .word .from, .blank, .name procedure, .opening] ++
      slots parameters ++ ofPieces [.closing]

end Statement
end SchemaClient.Sql
