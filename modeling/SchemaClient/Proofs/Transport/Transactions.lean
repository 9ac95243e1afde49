import SchemaClient.Proofs.Command.Returning
import SchemaClient.Proofs.Transport.Database

/-!
# One transaction a command

Everything that commands do to a database, whatever the database answers. A command that has no text
does nothing. Any other asks for one block, runs one statement in it and leaves it; a transaction is
committed only if the statement ran and its rows, if any are to be read, were read.
-/
namespace SchemaClient

open Sql

variable {m : Type → Type} [Monad m]

inductive Opening where
  | connection
  | transaction

/-- Something that a database was asked for, with the failure if there was one. -/
inductive Act where
  | opened (opening : Opening) (failure : Option Failure)
  | ran (sql : String) (params : Record) (failure : Option Failure)
  | read (answer : Except Failure (List Record))
  | closed
  | committed
  | rolledBack

/-- How a block is left. Only a transaction makes a difference between success and failure. -/
def Opening.left : Opening → Bool → Act
  | connection, _ => .closed
  | transaction, true => .committed
  | transaction, false => .rolledBack

/-- The block that a command runs in. -/
def Command.opening : Command → Opening
  | select _ => .connection
  | _ => .transaction

/-- A program that keeps a record of acts. -/
abbrev Observed (m : Type → Type) := StateT (List Act) m

def Act.note (act : Act) : Observed m Unit := modify (· ++ [act])

/-- The failure that a result is, if it is one. -/
def Failure.of? {α : Type} : Except Failure α → Option Failure
  | .error failure => some failure
  | .ok _ => none

/-- What a program gives, as the record keeps it, with an act of it on the record. -/
def observe {α β : Type} (act : α → Act) (kept : α → β) (program : m α) : Observed m β := do
  let a ← program
  Act.note (act a)
  pure (kept a)

namespace Engine

def observedRows (rows : ResultRows m) : ResultRows (Observed m) where
  read := observe .read id rows.read

def observedBlock (opening : Opening) (block : Block m) : Block (Observed m) where
  execute sql params :=
    observe (fun answer => .ran sql params (Failure.of? answer)) (Except.map observedRows)
      (block.execute sql params)
  leave wentWell := observe (fun _ => opening.left wentWell) id (block.leave wentWell)

def observedOpening (opening : Opening) (program : m (Except Failure (Block m))) :
    Observed m (Except Failure (Block (Observed m))) :=
  observe (fun answer => .opened opening (Failure.of? answer))
    (Except.map (observedBlock opening)) program

/-- The same database, with a record of all that it is asked for. -/
def observed (engine : Engine m) : Engine (Observed m) where
  dialect := engine.dialect
  connect := observedOpening .connection engine.connect
  begin := observedOpening .transaction engine.begin

end Engine

/-- Whatever was on the record before, what a program adds to it and what it gives are as said. -/
def Leaves {α : Type} (p : List Act → α → Prop) (program : Observed m α) : Prop :=
  ∃ known : m { e : List Act × α // p e.1 e.2 },
    ∀ record, program.run record = (fun e => (e.1.2, record ++ e.1.1)) <$> known

variable [LawfulMonad m] {α β γ : Type} {p : List Act → α → Prop} {q : List Act → β → Prop}

theorem leaves_pure {a : α} (h : p [] a) : Leaves p (pure a : Observed m α) :=
  ⟨pure ⟨([], a), h⟩, fun record => by simp⟩

theorem Leaves.bind {program : Observed m α} {next : α → Observed m β} (h : Leaves p program)
    (hnext : ∀ acts a, p acts a → Leaves (fun more b => q (acts ++ more) b) (next a)) :
    Leaves q (program >>= next) := by
  obtain ⟨known, hknown⟩ := h
  choose knownNext hknownNext using hnext
  refine ⟨known >>= fun e =>
    (fun e' => ⟨(e.1.1 ++ e'.1.1, e'.1.2), e'.2⟩) <$> knownNext e.1.1 e.1.2 e.2, fun record => ?_⟩
  rw [StateT.run_bind, hknown, bind_map_left, map_bind]
  refine bind_congr fun e => ?_
  rw [hknownNext _ _ e.2, Functor.map_map]
  simp only [List.append_assoc]

theorem leaves_observe {program : m α} {act : α → Act} {kept : α → β} :
    Leaves (fun acts b => ∃ a, acts = [act a] ∧ b = kept a) (observe act kept program) :=
  ⟨(fun a => ⟨([act a], kept a), a, rfl, rfl⟩) <$> program, fun record => by
    simp [observe, Act.note]⟩

/-- The record does not change what a program does. -/
def Unseen (program : Observed m α) (original : m α) : Prop :=
  ∀ record, program.run' record = original

theorem unseen_pure (a : α) : Unseen (pure a : Observed m α) (pure a) := fun record => by simp

theorem Unseen.bind {program : Observed m α} {original : m α} {next : α → Observed m β}
    {originalNext : α → m β} (h : Unseen program original)
    (hnext : ∀ a, Unseen (next a) (originalNext a)) :
    Unseen (program >>= next) (original >>= originalNext) := by
  intro record
  have hnext (a : α) (record : List Act) : Prod.fst <$> (next a).run record = originalNext a :=
    hnext a record
  have hprogram : Prod.fst <$> program.run record = original := h record
  simp [← hprogram, hnext]

theorem unseen_observe_bind {program : m α} {act : α → Act} {kept : α → β} {next : β → Observed m γ}
    {original : α → m γ} (h : ∀ a, Unseen (next (kept a)) (original a)) :
    Unseen (observe act kept program >>= next) (program >>= original) := by
  intro record
  have hnext (a : α) (record : List Act) :
      Prod.fst <$> (next (kept a)).run record = original a := h a record
  simp [observe, Act.note, hnext]

namespace Engine

/-- What a statement adds to the record, and what comes of it. -/
inductive Ran (compiled : Compiled) (hasRows : Prop) : List Act → Except Failure Value → Prop where
  | refused (failure : Failure) :
    Ran compiled hasRows [.ran compiled.sql compiled.params (some failure)] (.error failure)
  | unread (h : hasRows) (failure : Failure) :
    Ran compiled hasRows
      [.ran compiled.sql compiled.params none, .read (.error failure)] (.error failure)
  | rows (h : hasRows) (records : List Record) :
    Ran compiled hasRows
      [.ran compiled.sql compiled.params none, .read (.ok records)]
      (.ok (.list (records.map .record)))
  | silent (h : ¬ hasRows) :
    Ran compiled hasRows [.ran compiled.sql compiled.params none] (.ok (.list []))

theorem leaves_runIn (opening : Opening) (block : Block m) (compiled : Compiled) (reads : Bool) :
    Leaves (Ran compiled reads) (runIn (observedBlock opening block) compiled reads) := by
  refine leaves_observe.bind ?_
  rintro _ _ ⟨answer, rfl, rfl⟩
  cases answer with
  | error failure => exact leaves_pure (.refused failure)
  | ok rows =>
    cases reads with
    | false => exact leaves_pure (.silent Bool.false_ne_true)
    | true =>
      refine leaves_observe.bind ?_
      rintro _ answer ⟨_, rfl, rfl⟩
      cases answer with
      | error failure => exact leaves_pure (.unread rfl failure)
      | ok records => exact leaves_pure (.rows rfl records)

theorem unseen_runIn (opening : Opening) (block : Block m) (compiled : Compiled) (reads : Bool) :
    Unseen (runIn (observedBlock opening block) compiled reads) (runIn block compiled reads) := by
  refine unseen_observe_bind fun answer => ?_
  cases answer with
  | error failure => exact unseen_pure _
  | ok rows =>
    cases reads with
    | false => exact unseen_pure _
    | true =>
      refine unseen_observe_bind fun answer => ?_
      cases answer <;> exact unseen_pure _

/-- What a command adds to the record, and what comes of it. -/
inductive Episode (dialect : Dialect) (c : Command) : List Act → Except Failure Value → Prop where
  /-- The command has no text. -/
  | uncompiled {failure : Failure} (h : c.compile dialect .bound = .error failure) :
    Episode dialect c [] (.error failure)
  /-- The block it asks for does not open. -/
  | unopened {compiled : Compiled} (h : c.compile dialect .bound = .ok compiled)
    (failure : Failure) :
    Episode dialect c [.opened c.opening (some failure)] (.error failure)
  /-- Its statement is run, and the block is left with success or with failure. -/
  | ran {compiled : Compiled} (h : c.compile dialect .bound = .ok compiled) {acts : List Act}
    {result : Except Failure Value}
    (hran : Ran compiled (c.operation = .select ∨ c.operation = .call ∨ Returns compiled.sql)
      acts result) :
    Episode dialect c (.opened c.opening none :: acts ++ [c.opening.left result.isOk]) result

omit [LawfulMonad m] in
theorem block_observed (engine : Engine m) (c : Command) :
    engine.observed.block c = observedOpening c.opening (engine.block c) := by
  cases c <;> rfl

theorem leaves_run (engine : Engine m) (dialect : Dialect) (c : Command) :
    Leaves (Episode dialect c) ((engine.observed.transportIn dialect).run c) := by
  cases hcompiled : c.compile dialect .bound with
  | error failure =>
    rw [run_of_refused hcompiled]
    exact leaves_pure (.uncompiled hcompiled)
  | ok compiled =>
    rw [run_of_compile hcompiled, execute, inBlock, block_observed]
    refine leaves_observe.bind ?_
    rintro _ _ ⟨opened, rfl, rfl⟩
    cases opened with
    | error failure => exact leaves_pure (.unopened hcompiled failure)
    | ok block =>
      refine (leaves_runIn c.opening block compiled c.returnsRows).bind fun acts result hran => ?_
      rw [Command.returnsRows_iff hcompiled] at hran
      refine leaves_observe.bind ?_
      rintro _ _ ⟨_, rfl, -⟩
      exact leaves_pure (.ran hcompiled hran)

/-- The record changes nothing about what a command does. -/
theorem unseen_run (engine : Engine m) (dialect : Dialect) (c : Command) :
    Unseen ((engine.observed.transportIn dialect).run c) ((engine.transportIn dialect).run c) := by
  cases hcompiled : c.compile dialect .bound with
  | error failure =>
    rw [run_of_refused hcompiled, run_of_refused hcompiled]
    exact unseen_pure _
  | ok compiled =>
    rw [run_of_compile hcompiled, run_of_compile hcompiled, execute, execute, inBlock, inBlock,
      block_observed]
    refine unseen_observe_bind fun opened => ?_
    cases opened with
    | error failure => exact unseen_pure _
    | ok block =>
      refine (unseen_runIn c.opening block compiled c.returnsRows).bind fun result => ?_
      exact unseen_observe_bind fun _ => unseen_pure _

/-- What commands add to the record, one after the other, and what comes of each. -/
inductive Episodes (dialect : Dialect) :
    List Command → List Act → List (Except Failure Value) → Prop where
  | nil : Episodes dialect [] [] []
  | cons {c : Command} {commands : List Command} {acts more : List Act}
    {result : Except Failure Value} {results : List (Except Failure Value)}
    (h : Episode dialect c acts result) (hmore : Episodes dialect commands more results) :
    Episodes dialect (c :: commands) (acts ++ more) (result :: results)

theorem leaves_mapM (engine : Engine m) (dialect : Dialect) (commands : List Command) :
    Leaves (Episodes dialect commands)
      (commands.mapM (engine.observed.transportIn dialect).run) := by
  induction commands with
  | nil => exact leaves_pure .nil
  | cons c rest ih =>
    rw [List.mapM_cons]
    refine (leaves_run engine dialect c).bind fun acts result hepisode => ?_
    refine ih.bind fun more results hepisodes => ?_
    exact leaves_pure (by rw [List.append_nil]; exact .cons hepisode hepisodes)

theorem unseen_mapM (engine : Engine m) (dialect : Dialect) (commands : List Command) :
    Unseen (commands.mapM (engine.observed.transportIn dialect).run)
      (commands.mapM (engine.transportIn dialect).run) := by
  induction commands with
  | nil => exact unseen_pure _
  | cons c rest ih =>
    rw [List.mapM_cons, List.mapM_cons]
    exact (unseen_run engine dialect c).bind fun _ => ih.bind fun _ => unseen_pure _

/-- **One transaction a command.** Whatever a database answers, each of a row of commands adds an
episode of its own to the record of what the database is asked for, and its result follows from that
episode alone; keeping the record changes nothing about what is done. -/
theorem commands_leave_episodes (engine : Engine m) (dialect : Dialect) (commands : List Command) :
    Leaves (Episodes dialect commands)
        (commands.mapM (engine.observed.transportIn dialect).run) ∧
      Unseen (commands.mapM (engine.observed.transportIn dialect).run)
        (commands.mapM (engine.transportIn dialect).run) :=
  ⟨leaves_mapM engine dialect commands, unseen_mapM engine dialect commands⟩

def busyBlock : Block (StateM Nat) where
  execute _ _ := do
    let count ← getModify (· + 1)
    pure (if count % 2 = 1 then .error (.disconnected "busy") else .ok ⟨pure (.ok [[("id", .int 7)]])⟩)
  leave _ := pure ()

/-- A database that counts its statements and refuses every second one. -/
def busy : Engine (StateM Nat) := ⟨"sqlite", pure (.ok busyBlock), pure (.ok busyBlock)⟩

/-- A change of nothing, which has no text, and three commands that have one. -/
def mixed : List Command :=
  [.update ⟨"people", [], none, none⟩, .delete ⟨"people", none, none⟩,
    .insert ⟨"people", ["id"], [[("id", .int 7)]], some ["*"]⟩,
    .select ⟨"people", none, none, none, none, none⟩]

def mixedActs : List Act :=
  [.opened .transaction none, .ran "DELETE FROM \"people\"" [] none, .committed,
    .opened .transaction none,
    .ran "INSERT INTO \"people\" (\"id\")\nVALUES (:param_0)\nRETURNING *" [("param_0", .int 7)]
      (some (.disconnected "busy")), .rolledBack,
    .opened .connection none, .ran "SELECT *\nFROM \"people\"" [] none,
    .read (.ok [[("id", .int 7)]]), .closed]

def mixedResults : List (Except Failure Value) :=
  [.error (.problem (.invalidCommand "Update has no values." "update")), .ok (.list []),
    .error (.disconnected "busy"), .ok (.list [.record [("id", .int 7)]])]

theorem commands_leave_episodes_busy :
    (mixed.mapM (busy.observed.transportIn .sqlite).run).run [] 0 = ((mixedResults, mixedActs), 3) ∧
      Episodes .sqlite mixed mixedActs mixedResults := by
  have hvalue : (mixed.mapM (busy.observed.transportIn .sqlite).run).run [] 0 =
      ((mixedResults, mixedActs), 3) := rfl
  obtain ⟨⟨known, hknown⟩, -⟩ := commands_leave_episodes busy .sqlite mixed
  have hrun : ((mixedResults, mixedActs), 3) =
      (((known 0).1.1.2, [] ++ (known 0).1.1.1), (known 0).2) :=
    hvalue.symm.trans (congrFun (hknown []) 0)
  obtain ⟨hresults, hacts⟩ := Prod.mk.inj (Prod.mk.inj hrun).1
  refine ⟨hvalue, ?_⟩
  rw [hacts, hresults]
  exact (known 0).1.2

end Engine

end SchemaClient
