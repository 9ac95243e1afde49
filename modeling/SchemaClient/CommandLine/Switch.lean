import SchemaClient.Text.Blank
import SchemaClient.Text.Quoted

/-!
# Switches

The options of the command line and how its words read. An option has a letter and a word; letters
may share one dash, and a word may be cut short as long as it is the start of one option only. After
two dashes alone nothing is an option.
-/
namespace SchemaClient.CommandLine

inductive Switch where
  | help
  | file
  | output
  | host
  | port
  | dbname
  | user
  | schema
  | verbose
  deriving DecidableEq

namespace Switch

def all : List Switch := [help, file, output, host, port, dbname, user, schema, verbose]

def letter : Switch → Char
  | help => 'h'
  | file => 'f'
  | output => 'o'
  | host => 'H'
  | port => 'p'
  | dbname => 'd'
  | user => 'U'
  | schema => 's'
  | verbose => 'v'

def word : Switch → String
  | help => "help"
  | file => "file"
  | output => "output"
  | host => "host"
  | port => "port"
  | dbname => "dbname"
  | user => "user"
  | schema => "schema"
  | verbose => "verbose"

/-- Whether an argument belongs to an option. -/
def takesArgument : Switch → Bool
  | help | verbose => false
  | file | output | host | port | dbname | user | schema => true

def longForm (s : Switch) : String := "--" ++ s.word

/-- Both forms of an option, as messages name it. -/
def label (s : Switch) : String := "-" ++ String.singleton s.letter ++ "/" ++ s.longForm

def ofLetter? (c : Char) : Option Switch := all.find? (·.letter == c)

def ofWord? (word : List Char) : Option Switch := all.find? (·.word.toList == word)

/-- The options whose words start in a given way. -/
def startingWith (start : List Char) : List Switch :=
  all.filter fun s => start.isPrefixOf s.word.toList

end Switch

inductive Refusal where
  /-- A word is the start of several options. -/
  | ambiguous (text : String) (options : List Switch)
  /-- An argument was written into the word of an option that has none. -/
  | unusedArgument (s : Switch) (argument : String)
  | noArgument (s : Switch)
  | notInteger (s : Switch) (argument : String)
  | unknownCommand (text : String) (known : List String)
  | noCommand
  /-- Words that nothing takes. -/
  | unrecognized (words : List String)

def Refusal.message : Refusal → String
  | ambiguous text options =>
    "ambiguous option: " ++ text ++ " could match " ++
      Text.joined ", " (options.map (·.longForm))
  | unusedArgument s argument =>
    "argument " ++ s.label ++ ": ignored explicit argument " ++ Text.quoted argument
  | noArgument s => "argument " ++ s.label ++ ": expected one argument"
  | notInteger s argument =>
    "argument " ++ s.label ++ ": invalid int value: " ++ Text.quoted argument
  | unknownCommand text known =>
    "argument command: invalid choice: " ++ Text.quoted text ++ " (choose from " ++
      Text.joined ", " (known.map Text.quoted) ++ ")"
  | noCommand => "the following arguments are required: command"
  | unrecognized words => "unrecognized arguments: " ++ Text.joined " " words

inductive Form where
  | letter
  | word
  deriving DecidableEq

/-- How a word of the command line reads. -/
inductive Word where
  /-- A word that is no option. -/
  | plain (text : String)
  /-- Two dashes alone. -/
  | dashes
  /-- An option in one of its forms and what is attached to it, if anything is. -/
  | switch (s : Switch) (form : Form) (attached : Option String)
  /-- What looks like an option but is none. -/
  | unknown (text : String)

namespace Word

/-- Whether a word is a negative number, with or without a point in it; one line end may follow. -/
def isNegativeNumber (text : List Char) : Bool :=
  match text with
  | '-' :: rest =>
    let body := if rest.getLast? = some '\n' then rest.dropLast else rest
    let isDigit (c : Char) : Bool := (Text.digitValue? c).isSome
    match body.dropWhile isDigit with
    | [] => !body.isEmpty
    | '.' :: fraction => !fraction.isEmpty && fraction.all isDigit
    | _ => false
  | _ => false

/-- A word as it reads if no option fits it. -/
def withoutOption (text : String) : Word :=
  if isNegativeNumber text.toList || text.toList.contains ' ' then plain text else unknown text

/-- What an equals sign sets off. -/
def afterEquals : List Char → Option String
  | '=' :: argument => some (String.ofList argument)
  | _ => none

/-- A word that starts with two dashes. -/
def ofLong (text : String) (body : List Char) : Except Refusal Word :=
  let name := body.takeWhile (· ≠ '=')
  let attached := afterEquals (body.dropWhile (· ≠ '='))
  match Switch.ofWord? name with
  | some s => .ok (switch s .word attached)
  | none =>
    match Switch.startingWith name with
    | [] => .ok (withoutOption text)
    | [s] => .ok (switch s .word attached)
    | options => .error (.ambiguous text options)

/-- What is attached to a letter: an equals sign right behind the letter is not a part of it. -/
def attachedToLetter : List Char → Option String
  | [] => none
  | '=' :: argument => some (String.ofList argument)
  | attached => some (String.ofList attached)

/-- A word that starts with one dash and a letter. -/
def ofShort (text : String) (letter : Char) (rest : List Char) : Word :=
  match Switch.ofLetter? letter with
  | some s => switch s .letter (attachedToLetter rest)
  | none => withoutOption text

def ofText (text : String) : Except Refusal Word :=
  match text.toList with
  | '-' :: '-' :: body => ofLong text body
  | '-' :: letter :: rest => .ok (ofShort text letter rest)
  | _ => .ok (plain text)

def readAll : List String → Except Refusal (List Word)
  | [] => .ok []
  | text :: rest =>
    if text = "--" then .ok (dashes :: rest.map plain)
    else do
      let word ← ofText text
      let words ← readAll rest
      pure (word :: words)

end Word
end SchemaClient.CommandLine
