import SchemaClient.Validation.Model

/-!
# Options of a discovery

Which user-defined types count as numbers and as texts, which schema of the catalog is read, and how
many of its tables may be asked about at once.
-/
namespace SchemaClient

open Validation
open Validation.Fields (withDefault)

/-- The names of types that are to be taken for numbers and for texts. -/
structure AllowLists where
  number : List String
  string : List String
  deriving DecidableEq

def AllowLists.empty : AllowLists := ⟨[], []⟩

def AllowLists.model : Model AllowLists :=
  ⟨"UdtOptions",
    AllowLists.mk <$> withDefault "number" [] (Decoder.list Decoder.text) <*>
      withDefault "string" [] (Decoder.list Decoder.text)⟩

def AllowLists.toRecord (lists : AllowLists) : Record :=
  [("number", .texts lists.number), ("string", .texts lists.string)]

structure DiscoveryOptions where
  udts : AllowLists
  schemaName : String
  maxConcurrency : Nat
  deriving DecidableEq

/-- How many tables may be asked about at once unless a number is given. -/
def DiscoveryOptions.usualConcurrency : Nat := 4

def DiscoveryOptions.model : Model DiscoveryOptions :=
  ⟨"InspectOptions",
    DiscoveryOptions.mk <$> withDefault "udts" .empty AllowLists.model.decoder <*>
      withDefault "schema_name" "public" Decoder.text <*>
      withDefault "max_concurrency" usualConcurrency Decoder.positive⟩

/-- The options with given lists and what is given for the name of a schema. -/
def DiscoveryOptions.given (udts : AllowLists) (schemaName : Value) :
    Except Rejection DiscoveryOptions :=
  DiscoveryOptions.model.read
    (.record [("udts", .record udts.toRecord), ("schema_name", schemaName)])

def DiscoveryOptions.toRecord (options : DiscoveryOptions) : Record :=
  [("udts", .record options.udts.toRecord), ("schema_name", .text options.schemaName),
    ("max_concurrency", .int options.maxConcurrency)]

end SchemaClient
