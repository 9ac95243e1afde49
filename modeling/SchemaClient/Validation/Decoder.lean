import SchemaClient.Entries
import SchemaClient.Number.Numeral
import SchemaClient.Text.Utf8
import SchemaClient.Validation.Issue
import SchemaClient.Value.Key

/-!
# Decoders

Readers of one value of a kind: texts, numbers, flags, lists, alternatives. A reader is generous
where nothing is lost: it takes `"12"`, `12.0` or `true` for a whole number. Faults are collected
and not only the first one told.
-/
namespace SchemaClient.Validation

/-- A value, or all that is wrong with the data it was to be read from. -/
abbrev Validated (α : Type) := Except (List Issue) α

namespace Validated

variable {α β γ : Type}

/-- Two results together. The issues of both are kept, those of the first in front. -/
def map2 (f : α → β → γ) : Validated α → Validated β → Validated γ
  | .ok a, .ok b => .ok (f a b)
  | .ok _, .error issues => .error issues
  | .error issues, .ok _ => .error issues
  | .error issues, .error more => .error (issues ++ more)

/-- The result of a part of the data, seen from the whole. -/
def under (step : Step) : Validated α → Validated α
  | .ok a => .ok a
  | .error issues =>
    .error (issues.map fun issue => { issue with path := step :: issue.path })

def fail (fault : Fault) (input : Value) : Validated α :=
  .error [⟨[], fault, input⟩]

end Validated

/-- A reader of data, however they were given. -/
abbrev Decoder (α : Type) := Source → Value → Validated α

namespace Decoder

open Validated (fail)

variable {α : Type}

/-- Any value, as it is. -/
def value : Decoder Value := fun _ v => .ok v

def text : Decoder String := fun _ v =>
  match v with
  | .text s => .ok s
  | .bytes content =>
    match Text.ofBytes? content with
    | some s => .ok s
    | none => fail .undecodableText v
  | _ => fail .notText v

/-- The whole numbers that fit into 64 bits with a sign. -/
def fitsWord (n : Int) : Bool := -0x8000000000000000 ≤ n && n < 0x8000000000000000

/-- Whether a whole binary64 number lies between the ends of what fits into 64 bits; the ends
themselves are left out. -/
def insideWord (x : Binary64) : Bool :=
  -0x8000000000000000 < x.truncate && x.truncate < 0x8000000000000000

/-- The whole number a binary64 number equals, if it is inside 64 bits. -/
def wholeOf (x : Binary64) (input : Value) : Validated Int :=
  if !x.isFinite then fail .notFinite input
  else if !x.isWhole then fail .fractionalInteger input
  else if insideWord x then .ok x.truncate
  else fail .integerTooLong input

def integerOfText (s : String) (input : Value) : Validated Int :=
  match Numeral.integer s with
  | .ok n => .ok n
  | .error .malformed => fail .unreadableInteger input
  | .error .tooLong => fail .integerTooLong input

def integer : Decoder Int := fun _ v =>
  match v with
  | .int n => .ok n
  | .bool b => .ok (if b then 1 else 0)
  | .float x => wholeOf x v
  | .decimal d =>
    if !d.isFinite then fail .notFinite v
    else
      match d.toInt? with
      | some n => .ok n
      | none => fail .fractionalInteger v
  | .text s => integerOfText s v
  | .bytes content =>
    match Text.ofBytes? content with
    | some s => integerOfText s v
    | none => fail .unreadableInteger v
  | _ => fail .notInteger v

/-- A whole number that is not negative. -/
def count : Decoder Nat := fun source v =>
  match integer source v with
  | .error issues => .error issues
  | .ok n =>
    match n with
    | .ofNat k => .ok k
    | .negSucc _ => fail (.belowMinimum 0) v

/-- A whole number of one or more. -/
def positive : Decoder Nat := fun source v =>
  match integer source v with
  | .error issues => .error issues
  | .ok n =>
    match n with
    | .ofNat (k + 1) => .ok (k + 1)
    | _ => fail (.belowMinimum 1) v

def realOfText (s : String) (input : Value) : Validated Binary64 :=
  match Numeral.real? s with
  | some x => .ok x
  | none => fail .unreadableReal input

/-- A whole number too large for the format is refused, or, in JSON text, infinite. -/
def real : Decoder Binary64 := fun source v =>
  match v with
  | .float x => .ok x
  | .int n =>
    match source with
    | .jsonText => .ok (.nearest n)
    | .values =>
      match Binary64.ofInt? n with
      | some x => .ok x
      | none => fail .notReal v
  | .bool b => .ok (.nearest (if b then 1 else 0))
  | .decimal d =>
    match d.toBinary64? with
    | some x => .ok x
    | none => fail .notReal v
  | .text s => realOfText s v
  | .bytes content =>
    match Text.ofBytes? content with
    | some s => realOfText s v
    | none => fail .unreadableReal v
  | _ => fail .notReal v

/-- The words for yes and no. -/
def flagWords : List (String × Bool) :=
  [("true", true), ("t", true), ("yes", true), ("y", true), ("on", true), ("1", true),
    ("false", false), ("f", false), ("no", false), ("n", false), ("off", false), ("0", false)]

def flagOfText (s : String) (input : Value) : Validated Bool :=
  match flagWords.lookup (String.ofList (s.toList.map Char.toLower)) with
  | some b => .ok b
  | none => fail .unreadableFlag input

def flagOfInt (n : Int) (input : Value) : Validated Bool :=
  if n = 0 then .ok false
  else if n = 1 then .ok true
  else if fitsWord n then fail .unreadableFlag input
  else fail .notFlag input

def flagOfReal (x : Binary64) (input : Value) : Validated Bool :=
  if x.isFinite && x.isWhole && insideWord x then flagOfInt x.truncate input
  else fail .notFlag input

def flag : Decoder Bool := fun _ v =>
  match v with
  | .bool b => .ok b
  | .int n => flagOfInt n v
  | .float x => flagOfReal x v
  | .decimal d =>
    match d.toBinary64? with
    | some x => flagOfReal x v
    | none => fail .notFlag v
  | .text s => flagOfText s v
  | .bytes content =>
    match Text.ofBytes? content with
    | some s => flagOfText s v
    | none => fail .unreadableFlag v
  | _ => fail .notFlag v

/-- Null, or what another decoder reads. -/
def optional (decoder : Decoder α) : Decoder (Option α) := fun source v =>
  match v with
  | .null => .ok none
  | v => (decoder source v).map some

/-- The items of a list, the first of them being number `start`. -/
def itemsFrom {β : Type} (decode : β → Validated α) (start : Nat) : List β → Validated (List α)
  | [] => .ok []
  | item :: rest =>
    Validated.map2 (· :: ·) ((decode item).under (.number start))
      (itemsFrom decode (start + 1) rest)

/-- Items in a list or tuple; `fault` is what other values are told. -/
def items (fault : Fault) (decoder : Decoder α) : Decoder (List α) := fun source v =>
  match v with
  | .list items => itemsFrom (decoder source) 0 items
  | .tuple items => itemsFrom (decoder source) 0 items
  | _ => fail fault v

def list (decoder : Decoder α) : Decoder (List α) := items .notList decoder

/-- The items of a collection that does not change. -/
def fixed (decoder : Decoder α) : Decoder (List α) := items .notTuple decoder

def record : Decoder Record := fun _ v =>
  match v with
  | .record entries => .ok entries
  | _ => fail .notRecord v

/-- The step to a key: a number that fits into 64 bits, or else a text that shows the key. -/
def keyStep : Value → Step
  | .text s => .name s
  | .int n => if fitsWord n then .number n else .name (toString n)
  | .bool b => .number (if b then 1 else 0)
  | key => .name key.shown

/-- The entries of a mapping with their keys as texts. -/
def namedEntries : Mapping → Validated Record
  | [] => .ok []
  | (key, value) :: rest =>
    let name := ((text .values key).under (.name "[key]")).under (keyStep key)
    Validated.map2 (fun name others => (name, value) :: others) name (namedEntries rest)

/-- The record that a mapping is whose keys are all texts. -/
def mapping (entries : Mapping) : Validated Record := (namedEntries entries).map Entries.ofList

/-- Whether a value is a number equal to `n`; a flag counts as zero or one. -/
def isNumber (n : Nat) (v : Value) : Bool := v.number? == (Value.int n).number?

def only (n : Nat) : Decoder Unit := fun _ v =>
  if isNumber n v then .ok () else fail (.notAllowed (Nat.repr n)) v

/-- One of several texts, each of which stands for something. -/
def choice (options : List (String × α)) : Decoder α := fun _ v =>
  let expected := Text.alternatives (options.map fun option => Text.quoted option.1)
  match v with
  | .text s =>
    match options.lookup s with
    | some a => .ok a
    | none => fail (.notAllowed expected) v
  | _ => fail (.notAllowed expected) v

def onlyText (word : String) : Decoder Unit := choice [(word, ())]

end Decoder
end SchemaClient.Validation
