import SchemaClient.Client.Directory
import SchemaClient.Proofs.Client.Chain
import SchemaClient.Proofs.Entries
import SchemaClient.Transport.Record

/-!
# Names of a client and names of its schema

A name leads a client to a table or a routine if it leads the schema to one. The routine is the
same, and so is the table unless several tables have the name: the schema means the first of them,
the client the last.
-/
namespace SchemaClient

/-- The last table of a name. -/
def SchemaOf.lastTable? {τ : Type} (s : SchemaOf τ) (name : String) : Option (Table τ) :=
  s.tables.reverse.find? (·.name == name)

/-- The answer to a search: what was found, or the failure to find anything. -/
def Failure.unlessFound {α : Type} (failure : Failure) : Option α → Except Failure α
  | some a => .ok a
  | none => .error failure

namespace SchemaOf

variable {τ : Type} {s : SchemaOf τ} {name : String}

theorem table?_isSome_iff : (s.table? name).isSome ↔ ∃ t ∈ s.tables, t.name = name := by
  simp [table?, List.find?_isSome]

theorem function?_isSome_iff : (s.function? name).isSome ↔ ∃ f ∈ s.functions, f.name = name := by
  simp [function?, List.find?_isSome]

/-- There is a last table of a name if there is a first one. -/
theorem lastTable?_isSome_iff : (s.lastTable? name).isSome ↔ ∃ t ∈ s.tables, t.name = name := by
  simp [lastTable?, List.find?_isSome]

theorem lastTable?_eq_none_iff : s.lastTable? name = none ↔ s.table? name = none := by
  rw [← Option.not_isSome_iff_eq_none, ← Option.not_isSome_iff_eq_none, lastTable?_isSome_iff,
    table?_isSome_iff]

end SchemaOf

namespace Failure

variable {α : Type} {failure : Failure}

theorem unlessFound_eq_error_iff {a? : Option α} :
    failure.unlessFound a? = .error failure ↔ a? = none := by
  cases a? <;> simp [unlessFound]

theorem unlessFound_inj {a? b? : Option α} :
    failure.unlessFound a? = failure.unlessFound b? ↔ a? = b? := by
  cases a? <;> cases b? <;> simp [unlessFound]

theorem exists_unlessFound_iff {a? : Option α} :
    (∃ a, failure.unlessFound a? = .ok a) ↔ a?.isSome := by
  cases a? <;> simp [unlessFound]

end Failure

namespace Client

variable {m : Type → Type} {client : Client m} {n : String}

theorem table_eq : client.table n =
    (Failure.unknownName n).unlessFound (client.schema.lastTable? n) := by
  have hlast : client.tables.lookup n = client.schema.lastTable? n := by
    rw [tables, Entries.lookup_ofList, ← List.map_reverse, Entries.lookup_named]
    rfl
  rw [table, hlast]
  cases client.schema.lastTable? n <;> rfl

theorem function_eq : client.function n =
    (Failure.unknownName n).unlessFound (client.schema.function? n) := by
  have hfirst : client.functions.lookup n = client.schema.function? n := by
    rw [functions, Entries.lookup_ofFirst, Entries.lookup_named]
    rfl
  rw [function, hfirst]
  cases client.schema.function? n <;> rfl

/-- A routine is called under the name that it was found by. -/
theorem call_of_function {f : Routine DataType} (h : client.schema.function? n = some f)
    (arguments : List Value) :
    client.call f arguments = client.transport.run (.call ⟨n, some arguments⟩) := by
  have hname : f.name = n := by simpa using List.find?_some h
  rw [call, hname]

/-- What a schema has under a name: a table, the last of them, or else a routine. -/
def offer? (schema : Schema) (name : String) : Option Offer :=
  ((schema.lastTable? name).map .table).or ((schema.function? name).map .function)

theorem offer?_isSome_iff {schema : Schema} : (offer? schema n).isSome ↔
    (∃ t ∈ schema.tables, t.name = n) ∨ ∃ f ∈ schema.functions, f.name = n := by
  rw [offer?, Option.isSome_or, Bool.or_eq_true, Option.isSome_map, Option.isSome_map,
    SchemaOf.lastTable?_isSome_iff, SchemaOf.function?_isSome_iff]

theorem isHidden_of_mem_hiddenMembers (h : n ∈ hiddenMembers) : isHidden n = true := by
  have hall : ∀ name ∈ hiddenMembers, isHidden name = true := by decide
  exact hall n h

theorem member_eq (hhidden : isHidden n = false) (hown : n ∉ ownMembers) :
    client.member n = (Failure.unknownMember n).unlessFound (offer? client.schema n) := by
  have hother : (ownMembers.contains n || hiddenMembers.contains n) = false := by
    have hfree : n ∉ hiddenMembers := fun h => by
      rw [isHidden_of_mem_hiddenMembers h] at hhidden
      cases hhidden
    simp [hown, hfree]
  rw [member, hother, hhidden, table_eq, function_eq, offer?]
  cases client.schema.lastTable? n <;> cases client.schema.function? n <;> rfl

/-- The members that are listed are the client's own, its tables and its routines. -/
theorem mem_memberNames (hhidden : isHidden n = false) (hown : n ∉ ownMembers) :
    n ∈ client.memberNames ↔ (offer? client.schema n).isSome := by
  have hname : n ∈ ownMembers ++ Entries.names client.tables ++ Entries.names client.functions ↔
      (∃ t ∈ client.schema.tables, t.name = n) ∨ ∃ f ∈ client.schema.functions, f.name = n := by
    rw [List.mem_append, List.mem_append, or_iff_right hown, tables, functions,
      Entries.mem_names_ofList, Entries.mem_names_ofFirst]
    simp [Entries.names]
  rw [memberNames, List.mem_mergeSort, List.mem_eraseDups, List.mem_filter, hname,
    offer?_isSome_iff]
  simp [hhidden]

/-- A client knows just the tables and routines that its schema knows. Of routines with one name
both mean the first, and a call of it sends its name and the arguments in order. Of tables with one
name the client means the last, so that the two agree if and only if this is the first too. A member
that is neither hidden nor the client's own is the table of its name, else the routine, and it is
listed if and only if there is one of them. -/
theorem names_agree (client : Client m) (n : String) :
    (client.table n = .error (.unknownName n) ↔ client.schema.table? n = none) ∧
      client.table n = (Failure.unknownName n).unlessFound (client.schema.lastTable? n) ∧
      (client.table n = (Failure.unknownName n).unlessFound (client.schema.table? n) ↔
        client.schema.lastTable? n = client.schema.table? n) ∧
      client.function n = (Failure.unknownName n).unlessFound (client.schema.function? n) ∧
      (∀ f arguments, client.function n = .ok f →
        client.call f arguments = client.transport.run (.call ⟨n, some arguments⟩)) ∧
      (isHidden n = false → n ∉ ownMembers →
        client.member n = (Failure.unknownMember n).unlessFound (offer? client.schema n) ∧
          (n ∈ client.memberNames ↔ ∃ offer, client.member n = .ok offer)) := by
  refine ⟨?unknown, table_eq, ?first, function_eq, ?call, ?member⟩
  case unknown => rw [table_eq, Failure.unlessFound_eq_error_iff, SchemaOf.lastTable?_eq_none_iff]
  case first => rw [table_eq, Failure.unlessFound_inj]
  case call =>
    intro f arguments hf
    rw [function_eq] at hf
    cases hfound : client.schema.function? n with
    | none =>
      rw [hfound] at hf
      cases hf
    | some g =>
      rw [hfound] at hf
      cases hf
      exact call_of_function hfound arguments
  case member =>
    intro hhidden hown
    refine ⟨member_eq hhidden hown, ?_⟩
    rw [mem_memberNames hhidden hown, member_eq hhidden hown, Failure.exists_unlessFound_iff]

/-- People by what they are called for short, in a table of the name that they have by number. -/
def peopleByShortName : Table DataType := ⟨"people", "People", [⟨"short", 1, false, .string⟩]⟩

/-- Routines of one name that find a person in different ways. -/
def findByNumber : Routine DataType := ⟨"find", [⟨"id", 1, false, .number⟩], .string⟩
def findByLetters : Routine DataType := ⟨"find", [⟨"ab", 1, false, .string⟩], .number⟩

/-- A schema in which names repeat, among the tables, among the routines and over both. -/
def repeating : Schema where
  enums := []
  types := []
  tables := [Chain.people, peopleByShortName]
  functions := [⟨"people", [], .number⟩, findByNumber, findByLetters]

def ofRepeating : Client Recorded := ⟨repeating, .unsupported "Transport"⟩

theorem names_agree_repeating :
    ofRepeating.table "people" = .ok peopleByShortName ∧
      ofRepeating.function "find" = .ok findByNumber ∧
      ofRepeating.call findByNumber [.int 7] =
        ofRepeating.transport.run (.call ⟨"find", some [.int 7]⟩) ∧
      isHidden "find" = false ∧ "find" ∉ ownMembers ∧
      ofRepeating.member "find" = .ok (.function findByNumber) ∧ "find" ∈ ofRepeating.memberNames := by
  obtain ⟨-, htable, -⟩ := names_agree ofRepeating "people"
  obtain ⟨-, -, -, hfunction, hcall, hmember⟩ := names_agree ofRepeating "find"
  have hhidden : isHidden "find" = false := by decide
  have hown : "find" ∉ ownMembers := by decide
  obtain ⟨hoffer, hlisted⟩ := hmember hhidden hown
  exact ⟨htable, hfunction, hcall findByNumber [.int 7] hfunction, hhidden, hown, hoffer,
    hlisted.mpr ⟨_, hoffer⟩⟩

/-- Of two tables with one name the client does not mean the one that the schema means. -/
theorem table_repeating : ∃ client : Client Recorded,
    client.schema.table? "people" = some Chain.people ∧ client.table "people" = .ok peopleByShortName ∧
      Chain.people ≠ peopleByShortName := by
  have hdiffer : Chain.people ≠ peopleByShortName := fun h => by
    have hcolumns : Chain.people.columns.length = peopleByShortName.columns.length := by rw [h]
    cases hcolumns
  exact ⟨ofRepeating, rfl, rfl, hdiffer⟩

end Client
end SchemaClient
