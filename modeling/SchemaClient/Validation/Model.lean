import SchemaClient.Json.Reader
import SchemaClient.Validation.Decoder

/-!
# Models

A model says which members a record has, in which order, and how each is read. Issues come in the
order of the members, then the members the model does not have come in the order of the data. Where
data may be of several models, a member of the data, the tag, tells of which.
-/
namespace SchemaClient.Validation

open Validated (fail)

/-- A reader of some members of a record. -/
structure Fields (α : Type) where
  names : List String
  read : Source → Record → Validated α

namespace Fields

variable {α β : Type}

def map (f : α → β) (fields : Fields α) : Fields β where
  names := fields.names
  read source entries := (fields.read source entries).map f

/-- The members of both, those of the first in front. -/
def apply (functions : Fields (α → β)) (fields : Fields α) : Fields β where
  names := functions.names ++ fields.names
  read source entries :=
    Validated.map2 (fun f a => f a) (functions.read source entries) (fields.read source entries)

instance : Functor Fields where
  map := map

instance : Seq Fields where
  seq functions fields := functions.apply (fields ())

/-- A member whose readings at all places of the record are given. -/
def given (name : String) (readings : List (String × Validated α)) : Fields α where
  names := [name]
  read _ entries :=
    match readings.lookup name with
    | some reading => reading.under (.name name)
    | none => .error [⟨[.name name], .missing, .record entries⟩]

/-- A member that has to be there. -/
def required (name : String) (decoder : Decoder α) : Fields α where
  names := [name]
  read source entries :=
    match entries.lookup name with
    | some v => (decoder source v).under (.name name)
    | none => .error [⟨[.name name], .missing, .record entries⟩]

/-- A member that may be absent. -/
def withDefault (name : String) (default : α) (decoder : Decoder α) : Fields α where
  names := [name]
  read source entries :=
    match entries.lookup name with
    | some v => (decoder source v).under (.name name)
    | none => .ok default

/-- The members of a record that are not among `names`. -/
def unexpected (names : List String) (entries : Record) : List Issue :=
  (entries.filter fun entry => !names.contains entry.1).map fun entry =>
    ⟨[.name entry.1], .unexpected, entry.2⟩

/-- The members of a record that has no others. -/
def readAll (fields : Fields α) (source : Source) (entries : Record) : Validated α :=
  match fields.read source entries, unexpected fields.names entries with
  | .ok a, [] => .ok a
  | .ok _, issues => .error issues
  | .error issues, more => .error (issues ++ more)

end Fields

/-- A named set of members. -/
structure Model (α : Type) where
  title : String
  fields : Fields α

namespace Model

variable {α β : Type}

def decoder (model : Model α) : Decoder α := fun source v =>
  match v with
  | .record entries => model.fields.readAll source entries
  | v => fail (.notModel model.title) v

def map (f : α → β) (model : Model α) : Model β := ⟨model.title, f <$> model.fields⟩

/-- A result of a reader, with its issues under the model's name. -/
def conclude (model : Model α) (source : Source) : Validated β → Except Rejection β
  | .ok b => .ok b
  | .error issues => .error ⟨model.title, source, issues⟩

/-- The value of the model that data given as values hold. -/
def read (model : Model α) (v : Value) : Except Rejection α :=
  model.conclude .values (model.decoder .values v)

/-- The rejection of what is no JSON text. -/
def notJson (model : Model α) (input : Value) : Rejection :=
  ⟨model.title, .jsonText, [⟨[], .notJson, input⟩]⟩

/-- The limits of JSON texts that hold data of models. -/
def jsonLimits : Json.Limits := ⟨200, .characters Numeral.digitLimit, false⟩

/-- The value of the model that a JSON text holds. -/
def readJson (model : Model α) (text : String) : Except Rejection α :=
  match Json.read jsonLimits text with
  | .ok json => model.conclude .jsonText (model.decoder .jsonText json.toValue)
  | .error _ => .error (model.notJson (.text text))

/-- The value of the model that content holds as JSON: a text, or bytes that encode one. -/
def readContent (model : Model α) (content : Value) : Except Rejection α :=
  match content with
  | .text s => model.readJson s
  | .bytes bytes =>
    match Text.ofBytes? bytes with
    | some s => model.readJson s
    | none => .error (model.notJson content)
  | v => model.conclude .jsonText (fail .notJsonContent v)

end Model

/-- One of the models that tagged data may be of. -/
structure Tag (κ : Type) where
  step : Step
  label : String
  fits : Value → Bool
  case : κ

namespace Tag

variable {κ : Type}

def ofText (word : String) (case : κ) : Tag κ where
  step := .name word
  label := Text.quoted word
  fits v :=
    match v with
    | .text s => s == word
    | _ => false
  case := case

def ofNumber (n : Nat) (case : κ) : Tag κ where
  step := .number n
  label := Nat.repr n
  fits := Decoder.isNumber n
  case := case

/-- The tag of data, which is in their member `name`. -/
def find (name : String) (tags : List (Tag κ)) (v : Value) : Validated (Tag κ) :=
  match v with
  | .record entries =>
    match entries.lookup name with
    | none => fail (.noTag (Text.quoted name)) v
    | some found =>
      match tags.find? (·.fits found) with
      | some tag => .ok tag
      | none =>
        let expected := Text.joined ", " (tags.map (·.label))
        fail (.unknownTag (Text.quoted name) found.plain expected) v
  | _ => fail .notTagged v

end Tag
end SchemaClient.Validation
