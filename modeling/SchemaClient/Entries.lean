/-!
# Named entries

Lists of names with what belongs to them, in the order in which the names first came. An entry put
under a name that is already there takes the old entry's place, or is left out.
-/
namespace SchemaClient.Entries

variable {α β : Type}

/-- The entries with one more, or with one replaced. -/
def put (entries : List (String × α)) (name : String) (a : α) : List (String × α) :=
  if entries.any (·.1 == name) then
    entries.map fun entry => if entry.1 == name then (name, a) else entry
  else entries ++ [(name, a)]

/-- The entries of a list in which names may repeat: the last of a name gives the entry, the first
its place. -/
def ofList (list : List (String × α)) : List (String × α) :=
  list.foldl (fun entries entry => put entries entry.1 entry.2) []

/-- The entries with one more, unless the name is there already. -/
def putNew (entries : List (String × α)) (name : String) (a : α) : List (String × α) :=
  if entries.any (·.1 == name) then entries else entries ++ [(name, a)]

/-- The entries of a list in which names may repeat: the first of a name gives the entry and its
place. -/
def ofFirst (list : List (String × α)) : List (String × α) :=
  list.foldl (fun entries entry => putNew entries entry.1 entry.2) []

def names (entries : List (String × α)) : List String := entries.map (·.1)

end SchemaClient.Entries
