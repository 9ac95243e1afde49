import SchemaClient.Validation.Model

/-!
# Connections

Where the database is and who connects to it. What is not given directly is taken from variables of
the environment, whose names are read without regard to case, and else has a default.
-/
namespace SchemaClient

open Validation
open Validation.Fields (withDefault)

structure Connection where
  host : String
  port : Int
  name : String
  user : String
  password : String
  driver : String
  deriving DecidableEq

namespace Connection

/-- The members of the settings; the password goes by one of several names. -/
def fields (passwordName : String) : Fields Connection :=
  Connection.mk <$> withDefault "host" "localhost" Decoder.text <*>
    withDefault "port" 5432 Decoder.integer <*> withDefault "name" "postgres" Decoder.text <*>
    withDefault "user" "postgres" Decoder.text <*>
    withDefault passwordName "postgres" Decoder.text <*>
    withDefault "driver" "postgresql+psycopg" Decoder.text

def model (passwordName : String) : Model Connection :=
  ⟨"ConnectionSettings", fields passwordName⟩

/-- A setting: the names under which it may be given and the variables it may be in, those that
count more in front. Names are matched without regard to case. -/
structure Setting where
  names : List String
  variableNames : List String

def Setting.plain (name : String) : Setting := ⟨[name], ["db_" ++ name]⟩

/-- The setting of the password, whose names and variables are its own. -/
def passwordSetting : Setting :=
  ⟨["DB_PASS", "DB_PASSWORD", "password"], ["db_pass", "db_password"]⟩

def settings : List Setting :=
  [.plain "host", .plain "port", .plain "name", .plain "user", passwordSetting,
    .plain "driver"]

/-- The text in lower case, as far as its letters are those of names. -/
def lowerCase (text : String) : String := String.ofList (text.toList.map Char.toLower)

/-- Entries with their names in lower case. -/
def lowered {α : Type} (entries : List (String × α)) : List (String × α) :=
  entries.map fun (name, a) => (lowerCase name, a)

/-- What a setting is given as. The first of several values whose names differ in case counts, but
the last of several such variables. -/
def Setting.value? (setting : Setting) (environment : List (String × String)) (values : Record) :
    Option Value :=
  let given := lowered values
  let inherited := (lowered environment).reverse
  match setting.names.findSome? fun name => given.lookup (lowerCase name) with
  | some v => some v
  | none => (setting.variableNames.findSome? fun name => inherited.lookup name).map .text

/-- What a setting is called: by the first of its names that is written exactly so among the values,
or else by the first of all. -/
def Setting.nameIn (setting : Setting) (values : Record) : String :=
  (setting.names.find? fun name => (values.lookup name).isSome).getD (setting.names.headD "")

/-- The settings that are given in one way or the other. -/
def gathered (environment : List (String × String)) (values : Record) : Record :=
  settings.filterMap fun setting =>
    (setting.value? environment values).map (setting.nameIn values, ·)

/-- The connection for an environment and values that count more; values of other names are
ignored. -/
def read (environment : List (String × String)) (values : Record) :
    Except Rejection Connection :=
  (model (passwordSetting.nameIn values)).read (.record (gathered environment values))

def toRecord (c : Connection) : Record :=
  [("host", .text c.host), ("port", .int c.port), ("name", .text c.name), ("user", .text c.user),
    ("password", .text c.password), ("driver", .text c.driver)]

end Connection

structure DatabaseUrl where
  driver : String
  username : String
  password : String
  host : String
  port : Int
  database : String
  deriving DecidableEq

def DatabaseUrl.toRecord (url : DatabaseUrl) : Record :=
  [("drivername", .text url.driver), ("username", .text url.username),
    ("password", .text url.password), ("host", .text url.host), ("port", .int url.port),
    ("database", .text url.database)]

def Connection.url (c : Connection) : DatabaseUrl :=
  ⟨c.driver, c.user, c.password, c.host, c.port, c.name⟩

end SchemaClient
