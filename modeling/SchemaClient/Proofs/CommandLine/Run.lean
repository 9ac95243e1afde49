import SchemaClient.CommandLine.Run

/-!
# What a run prints

A discovery with notes gives what the discovery gives; all it does besides is to tell the notes,
which are the same whoever listens. So a report prints the schema that was discovered, and a run
prints that report and closes the connection. Where there is no schema, the run closes the
connection too, and complains.
-/
namespace SchemaClient

variable {α β : Type}

/-- All that a program does is to tell notes, the same to every listener, and to give a result. -/
def Tells (program : ∀ (m : Type → Type) [Monad m], (Note → m Unit) → ExceptT Failure m α)
    (result : Except Failure α) : Prop :=
  ∃ notes : List Note, ∀ (m : Type → Type) [Monad m] [LawfulMonad m] (say : Note → m Unit),
    (program m say).run = do
      forM notes say
      pure result

theorem tells_result (result : Except Failure α) :
    Tells (fun _ _ _ => ExceptT.mk (pure result)) result :=
  ⟨[], fun _ _ _ _ => by simp⟩

theorem tells_note (note : Note) : Tells (fun _ _ say => liftM (say note)) (.ok ()) :=
  ⟨[note], fun _ _ _ say => by simp⟩

/-- One program after the other tells the notes of the first, and those of the second unless the
first has failed. -/
theorem Tells.bind {program : ∀ (m : Type → Type) [Monad m], (Note → m Unit) → ExceptT Failure m α}
    {next : α → ∀ (m : Type → Type) [Monad m], (Note → m Unit) → ExceptT Failure m β}
    {found : Except Failure α} {result : α → Except Failure β} (h : Tells program found)
    (hnext : ∀ a, Tells (next a) (result a)) :
    Tells (fun m _ say => program m say >>= fun a => next a m say) (found >>= result) := by
  obtain ⟨notes, hnotes⟩ := h
  cases found with
  | error failure =>
    refine ⟨notes, fun m _ _ say => ?_⟩
    rw [ExceptT.run_bind, hnotes, bind_assoc, pure_bind]
    rfl
  | ok a =>
    obtain ⟨more, hmore⟩ := hnext a
    refine ⟨notes ++ more, fun m _ _ say => ?_⟩
    rw [ExceptT.run_bind, hnotes, bind_assoc, pure_bind]
    simp only [hmore]
    rw [List.forM_append, bind_assoc]
    rfl

theorem tells_notes (notes : List Note) :
    Tells (fun _ _ say => notes.forM fun note => liftM (say note)) (.ok ()) := by
  induction notes with
  | nil => exact tells_result (.ok ())
  | cons note rest ih => exact (tells_note note).bind fun _ => ih

namespace Catalog

theorem tells_stage (things : String) (found : Except Failure (List α)) :
    Tells (fun _ _ say => stage say things found) found := by
  have h := (tells_note (discoveryNote ("discovering " ++ things))).bind fun _ =>
    (tells_result found).bind fun items =>
      (tells_note
        (discoveryNote ("found " ++ Nat.repr items.length ++ " " ++ things))).bind fun _ =>
          tells_result (.ok items)
  cases found <;> exact h

/-- **Notes are all that they add.** A discovery with notes gives what the discovery gives. -/
theorem tells_discover (catalog : Catalog) (options : DiscoveryOptions) :
    Tells (fun _ _ say => catalog.discoverTelling say options) (catalog.discover options) := by
  have h := (tells_stage "enum types" catalog.enumerations).bind fun enums =>
    (tells_stage "composite types" (catalog.compositeTypes options.udts)).bind fun types =>
    (tells_stage "tables" (catalog.tables options.udts)).bind fun tables =>
    (tells_stage "functions" (catalog.functions options.udts)).bind fun functions =>
    (tells_note (discoveryNote "resolving types")).bind fun _ =>
    (tells_notes (Draft.resolutionNotes ⟨enums, types, tables, functions⟩)).bind fun _ =>
    (tells_result (Failure.ofProblem (Draft.resolve ⟨enums, types, tables, functions⟩))).bind
      fun resolution =>
    (tells_note
      (discoveryNote ("resolved " ++ Nat.repr resolution.resolved ++ " attribute types"))).bind
      fun _ => tells_result (.ok resolution.schema)
  simp only [discover, draft, bind_assoc, pure_bind]
  exact h

end Catalog

namespace CommandLine

/-- To one who does not listen, notes are nothing. -/
theorem forM_unheard {m : Type → Type} [Monad m] [LawfulMonad m] (notes : List Note) :
    (forM notes fun _ => pure () : m Unit) = pure () := by
  induction notes with
  | nil => rfl
  | cons note rest ih => rw [List.forM_cons, pure_bind, ih]

variable {m : Type → Type} [Monad m] [LawfulMonad m] {world : World m} {say : Note → m Unit}
  {command : Report} {plan : Plan} {server : CatalogServer m} {s : Schema} {failure : Failure}

theorem run_liftM_bind (action : m α) (next : α → ExceptT Failure m β) :
    ((liftM action : ExceptT Failure m α) >>= next).run = action >>= fun a => (next a).run :=
  ExceptT.run_bind_lift action next

/-- A report delivers the schema that the discovery gives, after its notes. -/
theorem report_delivered {catalog : Catalog} {options : DiscoveryOptions}
    {output : Option OutputName} (h : catalog.discover options = .ok s) :
    ∃ notes : List Note, (report world say command catalog options output).run = (do
      forM notes say
      (deliver world say output (command.text s)).run) := by
  obtain ⟨notes, hnotes⟩ := catalog.tells_discover options
  refine ⟨notes, ?_⟩
  rw [report, ExceptT.run_bind, hnotes, h, bind_assoc, pure_bind]

/-- Without an output, the schema is printed. -/
theorem report_printed {catalog : Catalog} {options : DiscoveryOptions}
    (h : catalog.discover options = .ok s) :
    ∃ notes : List Note, report world say command catalog options none = ExceptT.lift (do
      forM notes say
      world.print (command.text s ++ "\n")) := by
  obtain ⟨notes, hnotes⟩ := @report_delivered m _ _ world say command _ _ _ none h
  refine ⟨notes, ExceptT.ext ?_⟩
  rw [hnotes, ExceptT.run_lift, map_bind]
  rfl

/-- A report of what cannot be discovered fails as the discovery does, and delivers nothing. -/
theorem report_failed {catalog : Catalog} {options : DiscoveryOptions} {output : Option OutputName}
    (h : catalog.discover options = .error failure) :
    ∃ notes : List Note, (report world say command catalog options output).run = (do
      forM notes say
      pure (.error failure)) := by
  obtain ⟨notes, hnotes⟩ := catalog.tells_discover options
  refine ⟨notes, ?_⟩
  rw [report, ExceptT.run_bind, hnotes, h, bind_assoc, pure_bind]

theorem run_inspect :
    (inspect world say command plan server).run = (do
      let result ←
        (report world say command (server.catalog plan.options) plan.options plan.output).run
      server.close
      pure result) := by
  rw [inspect, ExceptT.run_bind_lift]
  refine bind_congr fun result => ?_
  exact ExceptT.run_bind_lift server.close fun _ => ExceptT.mk (pure result)

/-- An inspection without an output prints the schema that is discovered and closes the
connection. -/
theorem inspect_printed (houtput : plan.output = none)
    (h : (server.catalog plan.options).discover plan.options = .ok s) :
    ∃ notes : List Note, (inspect world say command plan server).run = (do
      forM notes say
      world.print (command.text s ++ "\n")
      server.close
      pure (.ok ())) := by
  obtain ⟨notes, hnotes⟩ := @report_printed m _ _ world say command _ _ _ h
  refine ⟨notes, ?_⟩
  rw [run_inspect, houtput, hnotes, ExceptT.run_lift]
  simp

/-- An inspection of what cannot be discovered closes the connection too. -/
theorem inspect_failed (h : (server.catalog plan.options).discover plan.options = .error failure) :
    ∃ notes : List Note, (inspect world say command plan server).run = (do
      forM notes say
      server.close
      pure (.error failure)) := by
  obtain ⟨notes, hnotes⟩ := @report_failed m _ _ world say command _ _ _ plan.output h
  refine ⟨notes, ?_⟩
  rw [run_inspect, hnotes, bind_assoc, pure_bind]

/-- A world in which a plan is made for arguments and a server is connected to, with what is done
for each. -/
structure Connects (world : World m) (arguments : Arguments) (planning opening : m Unit)
    (plan : Plan) (server : CatalogServer m) : Prop where
  planned : CommandLine.plan world arguments.settings (world.say arguments) =
    ExceptT.lift (do planning; pure plan)
  connected : world.connect plan.url = (do opening; pure server)

variable {texts : List String} {arguments : Arguments} {planning opening : m Unit}

/-- The note of a run that it is connecting. -/
def connectingNote : Note := ⟨.info, "poststack.cli", "connecting"⟩

theorem run_connected (hwords : Arguments.ofWords texts = .ok arguments)
    (hconnects : Connects world arguments planning opening plan server) :
    run world texts = (do
      planning
      opening
      world.say arguments connectingNote
      conclude world
        (← (inspect world (world.say arguments) arguments.command plan server).run)) := by
  have hperform : (perform world arguments).run = (do
      planning
      opening
      world.say arguments connectingNote
      (inspect world (world.say arguments) arguments.command plan server).run) := by
    rw [perform, hconnects.planned, ExceptT.run_bind_lift, bind_assoc]
    simp only [run_liftM_bind, hconnects.connected, bind_assoc, pure_bind, connectingNote]
  simp only [run, hwords, hperform, bind_assoc]

/-- **A run prints what it discovers.** Where a schema is discovered and no output is named, a run
prints the report on it and nothing else, closes the connection and ends well. -/
theorem run_printed (hwords : Arguments.ofWords texts = .ok arguments)
    (hconnects : Connects world arguments planning opening plan server)
    (houtput : plan.output = none)
    (hdiscover : (server.catalog plan.options).discover plan.options = .ok s) :
    ∃ notes : List Note, run world texts = (do
      planning
      opening
      forM notes (world.say arguments)
      world.print (arguments.command.text s ++ "\n")
      server.close
      pure (.ok (.done 0))) := by
  obtain ⟨notes, hnotes⟩ :=
    @inspect_printed m _ _ world (world.say arguments) arguments.command _ _ _ houtput hdiscover
  refine ⟨connectingNote :: notes, ?_⟩
  rw [run_connected hwords hconnects, hnotes]
  simp [conclude]

/-- Where no schema is discovered because of a problem, a run prints nothing, closes the connection
and complains of the problem in a line. -/
theorem run_complained {problem : Problem} (hwords : Arguments.ofWords texts = .ok arguments)
    (hconnects : Connects world arguments planning opening plan server)
    (hdiscover : (server.catalog plan.options).discover plan.options = .error (.problem problem)) :
    ∃ notes : List Note, run world texts = (do
      planning
      opening
      forM notes (world.say arguments)
      server.close
      world.complain ("error: " ++ problem.message ++ "\n")
      pure (.ok (.done 1))) := by
  obtain ⟨notes, hnotes⟩ :=
    @inspect_failed m _ _ world (world.say arguments) arguments.command _ _ _ hdiscover
  refine ⟨connectingNote :: notes, ?_⟩
  rw [run_connected hwords hconnects, hnotes]
  simp [conclude]

end CommandLine
end SchemaClient
