import SchemaClient.Client.Directory
import SchemaClient.Proofs.Client.Plain
import SchemaClient.Proofs.Transport.Database
import SchemaClient.Proofs.Transport.Wire

/-!
# Databases and servers are interchangeable

What is done with a client has the same effects on a database whether the client's transport runs
commands on the database itself or sends them to a server that does, and the results are the same.
The one exception is a command that compares a column with null: the database runs it, and the
server refuses it.
-/
namespace SchemaClient

open Json (NumberLimit Limits)
open Success (bind_eq_ok)
open Validation (Model)

variable {m : Type → Type}

/-- What is done with a client: a chain of calls on a table of it up to the one that ends the chain,
or a call of a routine of it. -/
inductive Use where
  | chain (table : String) (start : Chain.Start) (steps : List Chain.Step)
  | routine (name : String) (arguments : List Value)

namespace Use

/-- The values that are given, each with the number of lists and records that stand around it when
the command is sent. -/
def values : Use → List (Nat × Value)
  | chain _ start steps => start.values ++ steps.flatMap Chain.Step.values
  | routine _ arguments => arguments.map fun v => (2, v)

/-- The command that is put together, if the client takes what it is given. -/
def command (client : Client m) : Use → Except Failure Command
  | chain name start steps => do
    let table ← client.table name
    let started ← start.chain table
    pure (started.run steps).command
  | routine name arguments => do
    let f ← client.function name
    pure (.call ⟨f.name, some arguments⟩)

theorem command_congr {client other : Client m} (h : client.schema = other.schema) (use : Use) :
    use.command client = use.command other := by
  cases use <;>
    simp only [command, Client.table, Client.function, Client.tables, Client.functions, h]

theorem isPlain_command {client : Client m} {use : Use} {c : Command} {numbers : NumberLimit}
    {levels : Nat} (hnumbers : numbers.IsGenerous)
    (hvalues : Value.PlainWithin numbers (levels + 3) use.values)
    (h : use.command client = .ok c) : c.IsPlain numbers (levels + 3) := by
  cases use with
  | chain name start steps =>
    obtain ⟨table, -, h⟩ := bind_eq_ok.mp h
    obtain ⟨started, hstarted, h⟩ := bind_eq_ok.mp h
    cases h
    obtain ⟨hstart, hsteps⟩ := List.forall_mem_append.mp hvalues
    refine Chain.isPlain_run hnumbers (fun step hstep entry hentry => ?_)
      (Chain.Start.isPlain hstart hstarted)
    exact hsteps entry (List.mem_flatMap.mpr ⟨step, hstep, hentry⟩)
  | routine name arguments =>
    obtain ⟨f, -, h⟩ := bind_eq_ok.mp h
    cases h
    exact ⟨hvalues, List.forall_mem_nil _⟩

variable [Monad m]

def run (client : Client m) : Use → m (Except Failure Value)
  | chain name start steps =>
    match client.table name >>= start.chain with
    | .error failure => pure (.error failure)
    | .ok started =>
      client.finish (started.run steps) (Chain.lastCall (started.run steps).command.operation)
  | routine name arguments =>
    match client.function name with
    | .error failure => pure (.error failure)
    | .ok f => client.call f arguments

/-- A use is no more than handing the command to the transport. -/
theorem run_of_command {client : Client m} {use : Use} {c : Command}
    (h : use.command client = .ok c) : use.run client = client.transport.run c := by
  cases use with
  | chain name start steps =>
    obtain ⟨table, htable, h⟩ := bind_eq_ok.mp h
    obtain ⟨started, hstarted, h⟩ := bind_eq_ok.mp h
    cases h
    have hstart : client.table name >>= start.chain = .ok started :=
      bind_eq_ok.mpr ⟨table, htable, hstarted⟩
    rw [run, hstart]
    exact if_pos rfl
  | routine name arguments =>
    obtain ⟨f, hf, h⟩ := bind_eq_ok.mp h
    cases h
    rw [run, hf]
    rfl

end Use

variable [Monad m]

/-- All results that a program can have are of a kind. -/
def Yields {α : Type} (p : α → Prop) (program : m α) : Prop :=
  ∃ known : m { a // p a }, Subtype.val <$> known = program

theorem Yields.map_congr [LawfulMonad m] {α β : Type} {p : α → Prop} {program : m α}
    (h : Yields p program) {f g : α → β} (hfg : ∀ a, p a → f a = g a) :
    f <$> program = g <$> program := by
  obtain ⟨known, rfl⟩ := h
  rw [Functor.map_map, Functor.map_map]
  congr
  funext a
  exact hfg a.1 a.2

/-- What a value is on the other side if it is sent as JSON. -/
def Value.throughJson (limits : Limits) (v : Value) : Except Failure Value :=
  match v.toJson? with
  | none => .error .undecodable
  | some json =>
    match Json.read limits json.compact with
    | .ok json => .ok json.toValue
    | .error failure => .error (.unread failure.fault)

/-- A plain value is itself on the other side. -/
theorem Value.throughJson_plain {limits : Limits} {v : Value}
    (h : v.Plain limits.numbers limits.levels) : v.throughJson limits = .ok v := by
  obtain ⟨json, hjson, hvalue, hfits⟩ := h.exists_sentAs
  simp only [throughJson, hjson, Json.read_compact hfits, hvalue]

namespace Server

/-- The transport to a server that lets another transport answer; `carry` is how the data of its
answers come to the client. -/
def remote (server : Server) (carry : Value → Except Failure Value) (behind : Transport m) :
    Transport m where
  run command := do
    let result ← (server.serving behind (fun _ => pure ()) fun _ => pure ()).run command
    pure (result >>= carry)

/-- What a client is told of a result that a server has: of a problem, only the status. -/
def told : Except Failure Value → Except Failure Value
  | .error (.problem _) => .error (.badStatus 400)
  | result => result

section

variable [LawfulMonad m] {server : Server} {carry : Value → Except Failure Value}
  {behind : Transport m} {c : Command}

theorem remote_run (h : c.IsPlain Model.jsonLimits.numbers Model.jsonLimits.levels)
    (hnull : ¬ c.ComparesNull) :
    (server.remote carry behind).run c = (told · >>= carry) <$> behind.run c := by
  obtain ⟨json, hjson, hne, hread⟩ := h.exists_read
  have hhandle := handle_plain server behind hne hread hnull
  rw [remote]
  simp only [serving_of_handle_run hjson hhandle, pure_bind, bind_assoc]
  rw [← bind_pure_comp]
  congr
  funext result
  rcases result with failure | v
  · cases failure <;> simp [relayed, told]
  · simp [relayed, told]

theorem remote_run_null (h : c.IsPlain Model.jsonLimits.numbers Model.jsonLimits.levels)
    (hnull : c.ComparesNull) :
    (server.remote carry behind).run c = pure (.error (.badStatus 400)) := by
  obtain ⟨json, hjson, hne, hread⟩ := h.exists_read
  obtain ⟨details, hhandle⟩ := handle_null server behind hne hread hnull
  rw [remote]
  simp only [serving_of_handle_pure hjson (by decide : 400 ≤ 400 ∧ 400 < 600) hhandle, pure_bind]
  rfl

end

end Server

/-- A result whose data, if there are any, are plain. -/
def PlainResult (limits : Limits) (result : Except Failure Value) : Prop :=
  ∀ v, result = .ok v → v.Plain limits.numbers limits.levels

/-- Whatever client of a schema is used with plain values: if the command that comes of it compiles,
a client of the database has just this statement run there. A client of a server that uses this
database has the same statement run with the same parameters, and if the rows are plain it is given
the same rows, as long as no condition compares a column with null. If one does, the server refuses
the command and nothing is run at all. -/
theorem Use.run_remote [LawfulMonad m] (engine : Engine m) (dialect : Sql.Dialect) (server : Server)
    {limits : Limits} {carry : Value → Except Failure Value}
    (hcarry : ∀ v : Value, v.Plain limits.numbers limits.levels → carry v = .ok v)
    {schema : Schema} {use : Use} {c : Command} {compiled : Sql.Compiled}
    (hvalues : Value.PlainWithin Model.jsonLimits.numbers Model.jsonLimits.levels use.values)
    (hc : use.command (⟨schema, engine.transportIn dialect⟩ : Client m) = .ok c)
    (hcompiled : c.compile dialect .bound = .ok compiled) :
    use.run ⟨schema, engine.transportIn dialect⟩ = engine.execute c compiled ∧
      (¬ c.ComparesNull →
        use.run ⟨schema, server.remote carry (engine.transportIn dialect)⟩ =
            (Server.told · >>= carry) <$> engine.execute c compiled ∧
          (Yields (PlainResult limits) (engine.execute c compiled) →
            use.run ⟨schema, server.remote carry (engine.transportIn dialect)⟩ =
              Server.told <$> engine.execute c compiled)) ∧
      (c.ComparesNull →
        use.run ⟨schema, server.remote carry (engine.transportIn dialect)⟩ =
          pure (.error (.badStatus 400))) := by
  have hplain : c.IsPlain Model.jsonLimits.numbers Model.jsonLimits.levels :=
    isPlain_command Model.jsonLimits_isGenerous hvalues hc
  have hdirect : (engine.transportIn dialect).run c = engine.execute c compiled :=
    Engine.run_of_compile hcompiled
  have hremote : use.run ⟨schema, server.remote carry (engine.transportIn dialect)⟩ =
      (server.remote carry (engine.transportIn dialect)).run c :=
    run_of_command ((command_congr rfl use).trans hc)
  refine ⟨(run_of_command hc).trans hdirect, fun hnull => ?_, fun hnull => ?_⟩
  · have hreceived := hremote.trans (Server.remote_run hplain hnull)
    rw [hdirect] at hreceived
    refine ⟨hreceived, fun hyields => hreceived.trans (hyields.map_congr fun result hresult => ?_)⟩
    rcases result with failure | v
    · cases failure <;> rfl
    · exact hcarry v (hresult v rfl)
  · exact hremote.trans (Server.remote_run_null hplain hnull)

theorem yields_of_outcomes {α : Type} {p : α → Prop} {program : Recorded α}
    (h : ∀ events, p (program.run events).1) : Yields p program :=
  ⟨fun events => (⟨_, h events⟩, (program.run events).2), rfl⟩

namespace Client

/-- A client for a table of people. -/
def ofPeople (transport : Transport Recorded) : Client Recorded :=
  ⟨⟨[], [], [Chain.people], []⟩, transport⟩

/-- A database with one person in it, who has no initials. -/
def onePerson : Engine Recorded := .recording "sqlite" (.ok [[("id", .int 1), ("ab", .null)]])

/-- The people with the initials given, the last of them first. -/
def byInitials (initials : Value) : Use :=
  .chain "people" (.select (.list [.text "id", .text "ab"]))
    [.condition (.text "ab") initials none, .order (.list [.text "id"]) (.text "desc")]

/-- The command that comes of it. -/
def selectInitials (initials : Value) : Command :=
  .select ⟨"people", some ["id", "ab"], some [.binary "ab" .equal initials], none, none,
    some ⟨["id"], .desc, List.cons_ne_nil _ _⟩⟩

def answerLimits : Limits := ⟨990, .digits Numeral.digitLimit, true⟩

/-- A client of a server that uses the database of one person. -/
def overServer : Client Recorded :=
  ofPeople (Server.people.remote (Value.throughJson answerLimits) (onePerson.transportIn .sqlite))

/-- The one person, and what is done on the database to find them. -/
def found (compiled : Sql.Compiled) : Except Failure Value × List Event :=
  (.ok (.list [.record [("id", .int 1), ("ab", .null)]]),
    [.connect, .execute compiled.sql compiled.params, .close])

theorem plainWithin_byInitials {initials : Value}
    (h : initials.Plain Model.jsonLimits.numbers 197) :
    Value.PlainWithin Model.jsonLimits.numbers Model.jsonLimits.levels
      (byInitials initials).values := by
  simp only [Value.PlainWithin, byInitials, Use.values, Chain.Start.values, Chain.Step.values,
    List.nil_append, List.flatMap_cons, List.flatMap_nil, List.cons_append, Option.getD_none,
    List.forall_mem_cons, List.not_mem_nil, false_imp_iff, implies_true, and_true]
  exact h

theorem yields_onePerson (initials : Value) (compiled : Sql.Compiled) :
    Yields (PlainResult answerLimits) (onePerson.execute (selectInitials initials) compiled) := by
  refine yields_of_outcomes fun events v hv => ?_
  cases hv
  have hrow : ∀ entry ∈ [("id", Value.int 1), ("ab", .null)],
      entry.2.Plain answerLimits.numbers 988 := by
    simp only [List.forall_mem_cons, List.not_mem_nil, false_imp_iff, implies_true, and_true]
    exact ⟨.int _ (by decide), .null _⟩
  exact .list (List.forall_mem_singleton.mpr (.record (by decide) hrow))

theorem run_byInitials : ∃ compiled,
    (selectInitials (.text "x")).compile .sqlite .bound = .ok compiled ∧
      ((byInitials (.text "x")).run (ofPeople (onePerson.transportIn .sqlite))).outcome =
        found compiled ∧
      ((byInitials (.text "x")).run overServer).outcome = found compiled := by
  obtain ⟨compiled, hcompiled⟩ :
      ∃ compiled, (selectInitials (.text "x")).compile .sqlite .bound = .ok compiled := ⟨_, rfl⟩
  have hcommand : (byInitials (.text "x")).command (ofPeople (onePerson.transportIn .sqlite)) =
      .ok (selectInitials (.text "x")) := rfl
  have hnull : ¬ (selectInitials (.text "x")).ComparesNull := by
    simp [Command.ComparesNull, selectInitials, Command.conditions?, AnyComparesNull,
      Condition.ComparesNull]
  have hcarry : ∀ v : Value, v.Plain answerLimits.numbers answerLimits.levels →
      v.throughJson answerLimits = .ok v := fun _ hplain => Value.throughJson_plain hplain
  obtain ⟨hdirect, hserved, -⟩ := Use.run_remote onePerson .sqlite Server.people hcarry
    (plainWithin_byInitials (.text _ _)) hcommand hcompiled
  refine ⟨compiled, hcompiled, ?_, ?_⟩
  · rw [ofPeople, hdirect]
    rfl
  · rw [overServer, ofPeople, (hserved hnull).2 (yields_onePerson _ compiled)]
    rfl

/-- A person without initials is found on the database itself; the server refuses to look. -/
theorem run_byNoInitials : ∃ compiled,
    (selectInitials .null).compile .sqlite .bound = .ok compiled ∧
      ((byInitials .null).run (ofPeople (onePerson.transportIn .sqlite))).outcome =
        found compiled ∧
      ((byInitials .null).run overServer).outcome = (.error (.badStatus 400), []) := by
  obtain ⟨compiled, hcompiled⟩ :
      ∃ compiled, (selectInitials .null).compile .sqlite .bound = .ok compiled := ⟨_, rfl⟩
  have hcommand : (byInitials .null).command overServer = .ok (selectInitials .null) := rfl
  have hplain : (selectInitials .null).IsPlain Model.jsonLimits.numbers Model.jsonLimits.levels :=
    Use.isPlain_command Model.jsonLimits_isGenerous (plainWithin_byInitials (.null _)) hcommand
  have hnull : (selectInitials .null).ComparesNull :=
    ⟨_, rfl, _, List.mem_cons_self, trivial⟩
  have hdirect : (byInitials .null).run (ofPeople (onePerson.transportIn .sqlite)) =
      (onePerson.transportIn .sqlite).run (selectInitials .null) := Use.run_of_command rfl
  have hserved : (byInitials .null).run overServer =
      overServer.transport.run (selectInitials .null) := Use.run_of_command hcommand
  refine ⟨compiled, hcompiled, ?_, ?_⟩
  · rw [hdirect, Engine.run_of_compile hcompiled]
    rfl
  · rw [hserved, overServer, ofPeople, Server.remote_run_null hplain hnull]
    rfl

end Client

end SchemaClient
