import SchemaClient.CommandLine.Arguments

/-!
# Help

The texts that tell how the program is called, in lines of at most eighty characters.
-/
namespace SchemaClient.CommandLine

def programName : String := "poststack"

def usage : String :=
  "usage: " ++ programName ++
      " [-h] [-f FILE] [-o OUTPUT] [-H HOST] [-p PORT] [-d DBNAME]\n" ++
    "                 [-U USER] [-s SCHEMA] [-v]\n" ++
    "                 \x7binspect,inspect-json\x7d\n"

/-- The options, with what they are for. -/
def optionHelp : String :=
  "options:\n" ++
    "  -h, --help            show this help message and exit\n" ++
    "  -f FILE, --file FILE  path to project file (.poststack.json)\n" ++
    "  -o OUTPUT, --output OUTPUT\n" ++
    "                        send results to file\n" ++
    "  -H HOST, --host HOST  database hostname\n" ++
    "  -p PORT, --port PORT  database port\n" ++
    "  -d DBNAME, --dbname DBNAME\n" ++
    "                        database name\n" ++
    "  -U USER, --user USER  database user name\n" ++
    "  -s SCHEMA, --schema SCHEMA\n" ++
    "                        catalog schema to inspect\n" ++
    "  -v, --verbose         log progress (-vv for debug)\n"

/-- A name with what it is for, in a column of its own. -/
def described (name purpose : String) : String :=
  "  " ++ name ++ String.ofList (List.replicate (14 - name.length) ' ') ++ purpose ++ "\n"

def help : String :=
  usage ++ "\nInspect a PostgreSQL schema.\n\n" ++
    "positional arguments:\n" ++
    "  \x7binspect,inspect-json\x7d\n" ++
    "                        command to run\n\n" ++
    optionHelp ++ "\n" ++
    String.join (Report.all.map fun report => described report.word report.purpose)

/-- The line that tells why a command line is refused. -/
def Refusal.line (r : Refusal) : String := programName ++ ": error: " ++ r.message ++ "\n"

end SchemaClient.CommandLine
