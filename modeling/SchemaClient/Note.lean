import SchemaClient.Text.Quoted

/-!
# Notes

What a program tells about its progress, line by line. How much of it is heard is up to the
listener.
-/
namespace SchemaClient

inductive NoteLevel where
  | debug
  | info
  deriving DecidableEq

def NoteLevel.word : NoteLevel → String
  | debug => "DEBUG"
  | info => "INFO"

/-- A note and the part of the program it is from. -/
structure Note where
  level : NoteLevel
  source : String
  text : String
  deriving DecidableEq

def Note.line (note : Note) : String :=
  note.level.word ++ " " ++ note.source ++ ": " ++ note.text

/-- How much is to be told. -/
inductive Verbosity where
  | silent
  | progress
  | detail
  deriving DecidableEq

namespace Verbosity

/-- The verbosity that was asked for so many times. -/
def ofCount : Nat → Verbosity
  | 0 => silent
  | 1 => progress
  | _ => detail

def hears : Verbosity → NoteLevel → Bool
  | silent, _ => false
  | progress, level => level == .info
  | detail, _ => true

end Verbosity
end SchemaClient
