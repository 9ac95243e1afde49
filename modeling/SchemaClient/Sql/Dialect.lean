import SchemaClient.Sql.Statement

/-!
# Dialects

What PostgreSQL and SQLite write differently: the marks of bound parameters, flags, and arrays,
which SQLite does not have. Names and texts are put between quotes, and a quote inside them is
written twice.
-/
namespace SchemaClient.Sql

inductive Dialect where
  | postgres
  | sqlite
  deriving DecidableEq

namespace Dialect

def name : Dialect → String
  | postgres => "postgres"
  | sqlite => "sqlite"

def names : List String := [postgres, sqlite].map name

/-- The dialect of a name; PostgreSQL has two. -/
def ofName? : String → Option Dialect
  | "postgres" | "postgresql" => some postgres
  | "sqlite" => some sqlite
  | _ => none

def ofName (name : String) : Except Fault Dialect :=
  match ofName? name with
  | some dialect => .ok dialect
  | none => .error (.unknownDialect name names)

def placeholder (dialect : Dialect) (name : String) : String :=
  match dialect with
  | postgres => "%(" ++ name ++ ")s"
  | sqlite => ":" ++ name

def flagLiteral : Dialect → Bool → String
  | postgres, true => "TRUE"
  | postgres, false => "FALSE"
  | sqlite, true => "1"
  | sqlite, false => "0"

end Dialect

/-- A text between two marks, with each mark inside it written twice. -/
def enclosed (mark : Char) (s : String) : String :=
  String.ofList
    (mark :: s.toList.flatMap (fun c => if c = mark then [mark, mark] else [c]) ++ [mark])

def identifier (name : String) : String := enclosed '"' name

def textLiteral (s : String) : String := enclosed '\'' s

/-- A whole number, unless it has more digits than are written. -/
def wholeLiteral (n : Int) : Except Fault String :=
  ((Value.writable n).map toString).mapError .notWritten

/-- An array of items that are given as literals, in the dialect that has arrays. -/
def arrayLiteral (dialect : Dialect) (kind : String) (items : Except Fault (List String)) :
    Except Fault String :=
  match dialect with
  | .postgres => items.map fun texts => "ARRAY[" ++ Text.joined ", " texts ++ "]"
  | .sqlite => .error (.noLiteral kind)

mutual

def literal (dialect : Dialect) : Value → Except Fault String
  | .null => .ok "NULL"
  | .bool b => .ok (dialect.flagLiteral b)
  | .int n => wholeLiteral n
  | .float x => if x.isFinite then .ok x.text else .error (.notFinite (.float x))
  | .decimal d => if d.isFinite then .ok d.text else .error (.notFinite (.decimal d))
  | .date d => .ok (textLiteral d.iso)
  | .time t => .ok (textLiteral t.iso)
  | .datetime t => .ok (textLiteral t.iso)
  | .text s => .ok (textLiteral s)
  | .list items => arrayLiteral dialect "list" (literals dialect items)
  | .tuple items => arrayLiteral dialect "tuple" (literals dialect items)
  | .bytes content => .error (.noLiteral (Value.bytes content).kindName)
  | .uuid u => .error (.noLiteral (Value.uuid u).kindName)
  | .record entries => .error (.noLiteral (Value.record entries).kindName)

/-- Values as literals, up to the first that has none. -/
def literals (dialect : Dialect) : List Value → Except Fault (List String)
  | [] => .ok []
  | v :: rest => do
    let first ← literal dialect v
    let others ← literals dialect rest
    .ok (first :: others)

end

end SchemaClient.Sql
