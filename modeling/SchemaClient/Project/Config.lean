import SchemaClient.Catalog.Options
import SchemaClient.Failure
import SchemaClient.Project.Path

/-!
# Project files

A project file holds allow-lists and the path that output goes to, as JSON.
-/
namespace SchemaClient

open Validation
open Validation.Fields (withDefault)

/-- The name that a project file has for the file of the output. -/
inductive OutputName where
  | text (s : String)
  /-- A name with halves of surrogate pairs in it: its code points. No file has such a name. -/
  | halved (codes : List Nat)
  deriving DecidableEq

namespace OutputName

/-- The name as a text; another character stands for each half. -/
def shown : OutputName → String
  | text s => s
  | halved codes => Text.shownCodes codes

/-- The halves that keep a path of such code points from being used. -/
def halfRun (codes : List Nat) : Text.HalfRun :=
  let mark (code : Nat) : Char :=
    if Text.isHalf code then '\x00' else if code = 0 then '\ufffd' else Char.ofNat code
  let path := (Path.ofText (String.ofList (codes.map mark))).text
  .ofCodes (path.toList.takeWhile (· ≠ '\x00')).length codes

end OutputName

structure ProjectConfig where
  output : Option OutputName
  udts : AllowLists
  deriving DecidableEq

namespace ProjectConfig

/-- What holds where there is no project file. -/
def empty : ProjectConfig := ⟨none, .empty⟩

/-- The model with a given reader of allow-lists. -/
def modelWith (udts : Decoder AllowLists) : Model ProjectConfig :=
  let name : Decoder OutputName := fun source v => (Decoder.text source v).map OutputName.text
  ⟨"ProjectConfig",
    ProjectConfig.mk <$> withDefault "output" none (Decoder.optional name) <*>
      withDefault "udts" .empty udts⟩

def model : Model ProjectConfig := modelWith AllowLists.model.decoder

def toRecord (config : ProjectConfig) : Record :=
  [("output", .optionalText (config.output.map (·.shown))),
    ("udts", .record config.udts.toRecord)]

/-- The reader of allow-lists for a JSON value; names of lists that are no texts are a fault. -/
def listsDecoder (udts : Option Json) : Decoder AllowLists :=
  match udts with
  | some .unnamed => fun _ v => Validated.fail .undecodableText v
  | _ => AllowLists.model.decoder

/-- The output name as it was written. -/
def withWrittenName (config : ProjectConfig) (json : Json) : ProjectConfig :=
  match json.member? "output" with
  | some (.halved codes) => { config with output := some (.halved codes) }
  | _ => config

/-- The configuration without names of types that are no texts: nothing has such a name. -/
def withTextsOnly (config : ProjectConfig) (json : Json) : ProjectConfig :=
  let texts (list : String) : List String :=
    (((json.member? "udts").bind (·.member? list)).map (·.textItems)).getD []
  { config with udts := ⟨texts "number", texts "string"⟩ }

def ofJson (json : Json) : Except Rejection ProjectConfig :=
  match json with
  | .unnamed => model.conclude .values (Validated.fail .undecodableText json.toValue)
  | json => do
    let config ← (modelWith (listsDecoder (json.member? "udts"))).read json.toValue
    pure ((config.withWrittenName json).withTextsOnly json)

def fileName : String := ".poststack.json"

/-- The text of a file in which every kind of line end has become the one character. -/
def unixLines : List Char → List Char
  | '\r' :: '\n' :: rest => '\n' :: unixLines rest
  | '\r' :: rest => '\n' :: unixLines rest
  | c :: rest => c :: unixLines rest
  | [] => []

def jsonLimits : Json.Limits := ⟨990, .digits Numeral.digitLimit, true⟩

/-- What a text that cannot be read fails with. -/
def unreadable (path text : String) (failure : Json.Failure) : Failure :=
  match failure.fault with
  | .deepArray | .deepObject | .longNumber .. => .unread failure.fault
  | _ => .problem (.badProject ("Invalid JSON in " ++ path ++ ": " ++ failure.message text) path)

/-- The configuration that the text of a file holds. -/
def parse (path text : String) : Except Failure ProjectConfig :=
  match Json.read jsonLimits text with
  | .error failure => .error (unreadable path text failure)
  | .ok json =>
    match ofJson json with
    | .ok config => .ok config
    | .error rejection => .error (.problem (.misshapenProject path rejection))

/-- The configuration that the bytes of a file hold. -/
def ofBytes (path : String) (content : List UInt8) : Except Failure ProjectConfig :=
  match Text.ofBytes? content with
  | none => .error .undecodable
  | some text => parse path (String.ofList (unixLines text.toList))

end ProjectConfig
end SchemaClient
