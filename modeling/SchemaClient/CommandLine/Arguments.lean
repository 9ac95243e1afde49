import SchemaClient.CommandLine.Switch
import SchemaClient.Number.Numeral
import SchemaClient.Value

/-!
# Arguments

What a command line asks for: a command, and settings by options. Options are looked at from left to
right, and the first thing that is wrong, or a call for help, ends the reading; what is missing or
left over is noticed at the end.
-/
namespace SchemaClient.CommandLine

/-- A command: what form a schema is to be shown in. -/
inductive Report where
  | summary
  | json
  deriving DecidableEq

namespace Report

def all : List Report := [summary, json]

def word : Report → String
  | summary => "inspect"
  | json => "inspect-json"

def purpose : Report → String
  | summary => "print human schema information"
  | json => "print schema in JSON"

def ofWord? (word : String) : Option Report := all.find? (·.word == word)

end Report

/-- What an option is given: something, or nothing where two dashes alone are attached to it. -/
inductive Given (α : Type) where
  | one (a : α)
  | nothing
  deriving DecidableEq

namespace Given

/-- What is given as data; nothing is the empty list. -/
def toValue {α : Type} (data : α → Value) : Given α → Value
  | one a => data a
  | nothing => .list []

def toOption {α : Type} : Given α → Option α
  | one a => some a
  | nothing => none

/-- What is given by an argument that is attached to an option. -/
def ofAttached (argument : String) : Given String :=
  if argument = "--" then nothing else one argument

end Given

structure Settings where
  file : Option (Given String)
  output : Option (Given String)
  host : Option (Given String)
  port : Option (Given Int)
  dbname : Option (Given String)
  user : Option (Given String)
  schema : Given String
  verbosity : Nat
  deriving DecidableEq

/-- What holds before any option. -/
def Settings.initial : Settings := ⟨none, none, none, none, none, none, .one "public", 0⟩

structure Arguments where
  command : Report
  settings : Settings
  deriving DecidableEq

/-- The arguments as data, with null for an option that was not there. -/
def Arguments.toRecord (a : Arguments) : Record :=
  let s := a.settings
  let orNull {α : Type} (data : α → Value) (given : Option (Given α)) : Value :=
    (given.map (·.toValue data)).getD .null
  [("command", .text a.command.word), ("file", orNull .text s.file),
    ("output", orNull .text s.output), ("host", orNull .text s.host),
    ("port", orNull .int s.port), ("dbname", orNull .text s.dbname),
    ("user", orNull .text s.user), ("schema", s.schema.toValue .text),
    ("verbose", .int s.verbosity)]

/-- What ends the reading of a command line early. -/
inductive Stop where
  | help
  | refused (r : Refusal)

/-- An option with what it is given, which is nothing for one that has no argument. -/
structure Setting where
  switch : Switch
  given : Given String

/-- What a word of options comes to: the options in it, and one that still lacks its argument. -/
structure Unpacked where
  settings : List Setting
  lacking : Option Switch

/-- The options in a word, from one on that is written as a letter. What is attached to an option
that has an argument is the argument; to one that has none, only letters of options may be
attached. -/
def unpackLetters (s : Switch) : List Char → Except Refusal Unpacked
  | [] => .ok (if s.takesArgument then ⟨[], some s⟩ else ⟨[⟨s, .nothing⟩], none⟩)
  | c :: rest =>
    let attached := String.ofList (c :: rest)
    if s.takesArgument then .ok ⟨[⟨s, .ofAttached attached⟩], none⟩
    else
      match Switch.ofLetter? c with
      | none => .error (.unusedArgument s attached)
      | some next => do
        let unpacked ← unpackLetters next rest
        pure { unpacked with settings := ⟨s, .nothing⟩ :: unpacked.settings }

/-- The options in a word whose first one has something attached or not. -/
def unpack (s : Switch) (form : Form) : Option String → Except Refusal Unpacked
  | none => unpackLetters s []
  | some attached =>
    if s.takesArgument then .ok ⟨[⟨s, .ofAttached attached⟩], none⟩
    else if form = .word || attached.isEmpty then .error (.unusedArgument s attached)
    else unpackLetters s attached.toList

namespace Settings

/-- The number that an option is given. -/
def integerOf (s : Switch) : Given String → Except Stop (Given Int)
  | .nothing => .ok .nothing
  | .one text =>
    match Numeral.typedInteger text with
    | .ok n => .ok (.one n)
    | .error _ => .error (.refused (.notInteger s text))

def set (settings : Settings) (setting : Setting) : Except Stop Settings :=
  let given := setting.given
  match setting.switch with
  | .help => .error .help
  | .file => .ok { settings with file := some given }
  | .output => .ok { settings with output := some given }
  | .host => .ok { settings with host := some given }
  | .port => do
    let port ← integerOf setting.switch given
    pure { settings with port := some port }
  | .dbname => .ok { settings with dbname := some given }
  | .user => .ok { settings with user := some given }
  | .schema => .ok { settings with schema := given }
  | .verbose => .ok { settings with verbosity := settings.verbosity + 1 }

def setAll (settings : Settings) (list : List Setting) : Except Stop Settings :=
  list.foldlM set settings

end Settings

structure Reading where
  command : Option Report
  settings : Settings
  leftOver : List String

namespace Reading

def initial : Reading := ⟨none, .initial, []⟩

def leave (reading : Reading) (text : String) : Reading :=
  { reading with leftOver := reading.leftOver ++ [text] }

def withCommand (reading : Reading) (text : String) : Except Stop Reading :=
  match Report.ofWord? text with
  | some report => .ok { reading with command := some report }
  | none => .error (.refused (.unknownCommand text (Report.all.map (·.word))))

def withSettings (reading : Reading) (list : List Setting) : Except Stop Reading := do
  let settings ← reading.settings.setAll list
  pure { reading with settings := settings }

/-- Reads words. The first plain word is the command; two dashes next to it are passed over. -/
def words (reading : Reading) : List Word → Except Stop Reading
  | [] => .ok reading
  | .unknown text :: rest => words (reading.leave text) rest
  | .plain text :: rest =>
    match reading.command, rest with
    | some _, rest => words (reading.leave text) rest
    | none, .dashes :: more => do words (← reading.withCommand text) more
    | none, rest => do words (← reading.withCommand text) rest
  | .dashes :: rest =>
    match reading.command, rest with
    | none, .plain text :: more => do words (← reading.withCommand text) more
    | _, rest => words (reading.leave "--") rest
  | .switch s form attached :: rest =>
    match unpack s form attached, rest with
    | .error refusal, _ => .error (.refused refusal)
    | .ok ⟨list, none⟩, rest => do words (← reading.withSettings list) rest
    | .ok ⟨list, some last⟩, .plain text :: more => do
      words (← reading.withSettings (list ++ [⟨last, .one text⟩])) more
    | .ok ⟨_, some last⟩, _ => .error (.refused (.noArgument last))

/-- The arguments that a reading comes to. -/
def finish (reading : Reading) : Except Stop Arguments :=
  match reading.command, reading.leftOver with
  | none, _ => .error (.refused .noCommand)
  | some _, text :: rest => .error (.refused (.unrecognized (text :: rest)))
  | some command, [] => .ok ⟨command, reading.settings⟩

end Reading

def Arguments.ofWords (texts : List String) : Except Stop Arguments := do
  let words ← (Word.readAll texts).mapError Stop.refused
  (← Reading.initial.words words).finish

end SchemaClient.CommandLine
