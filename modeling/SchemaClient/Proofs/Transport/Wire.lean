import SchemaClient.Proofs.Command.Plain
import SchemaClient.Proofs.Transport.Dispatch

/-!
# Commands on the wire

A plain command that a client sends to a server reaches the transport behind the server as it was,
once, and the client gets that transport's result. Only a command that compares a column with null
does not: what is sent of it is no command, and the server says so.
-/
namespace SchemaClient

open Validation

theorem arrived_route (server : Server) (operation : Operation) (json : Json) :
    (server.request operation json).arrived.route = operation.name := by
  have hname : operation.name.toList.reverse.all (fun c => c ≠ '/') := by
    cases operation <;> decide
  have hurl : (server.request operation json).url.toList.reverse =
      operation.name.toList.reverse ++ '/' :: server.baseUrl.toList.reverse := by
    simp [Server.request, String.toList_append]
  rw [WebRequest.arrived, hurl,
    Runs.takeWhile_run (List.all_eq_true.mp hname) (Runs.stops_cons (by simp)),
    List.reverse_reverse, String.ofList_toList]

theorem arrived_operation? (server : Server) (operation : Operation) (json : Json) :
    (server.request operation json).arrived.operation? = some operation := by
  have hmethod : (server.request operation json).arrived.method = operation.method := rfl
  rw [ServiceRequest.operation?, ServiceRequest.path, arrived_route, ServiceRequest.verb, hmethod]
  cases operation <;> decide

theorem arrived_payload? (server : Server) (operation : Operation) {json : Json}
    (h : json.compact ≠ "") :
    (server.request operation json).arrived.payload? operation = some (.text json.compact) := by
  have hsome : (Value.text json.compact).isNothing = false := by
    simpa [Value.isNothing] using h
  cases operation <;>
    simp [ServiceRequest.payload?, WebRequest.arrived, Server.request, hsome]

/-- What is sent of a plain command is the text of its data, which is read as it was. -/
theorem Command.IsPlain.exists_read {c : Command}
    (h : c.IsPlain Model.jsonLimits.numbers Model.jsonLimits.levels) :
    ∃ json, (Value.record c.sent).toJson? = some json ∧ json.compact ≠ "" ∧
      c.operation.model.readContent (.text json.compact) =
        c.operation.model.conclude .jsonText
          (c.operation.model.decoder .jsonText (.record c.sent)) := by
  have harity : Model.jsonLimits.numbers.Admits 1 ∧ Model.jsonLimits.numbers.Admits 2 := by
    constructor <;> decide
  obtain ⟨json, hjson, hvalue, hfits⟩ := (h.sent harity).exists_sentAs
  refine ⟨json, hjson, ?_, ?_⟩
  · intro hempty
    obtain ⟨c, more, hchars, -⟩ := Json.opens_chars .line hfits
    rw [Json.chars, ← Json.compact, hempty] at hchars
    cases hchars
  · rw [Model.readContent, Model.readJson, Json.read_compact hfits]
    simp only [hvalue]

variable {m : Type → Type} [Monad m]

theorem handle_of_ok (server : Server) (behind : Transport m) {operation : Operation} {json : Json}
    (hjson : json.compact ≠ "") {c : Command}
    (h : operation.model.readContent (.text json.compact) = .ok c) :
    behind.handle (server.request operation json).arrived =
      (do
        let result ← behind.run c
        pure (ServiceAnswer.ofResult result)) := by
  rw [Transport.handle, arrived_operation?]
  simp only [arrived_payload? server operation hjson, h]

theorem handle_of_error (server : Server) (behind : Transport m) {operation : Operation} {json : Json}
    (hjson : json.compact ≠ "") {r : Rejection}
    (h : operation.model.readContent (.text json.compact) = .error r) :
    behind.handle (server.request operation json).arrived =
      pure (ServiceAnswer.rejected operation r) := by
  rw [Transport.handle, arrived_operation?]
  simp only [arrived_payload? server operation hjson, h]

/-- The answer to a command that compares a column with null: what is sent of it is no command. -/
theorem rejected_of_refused {operation : Operation} {r : Rejection}
    (h : ∀ issue ∈ r.issues, ∃ entries, issue.input = .record entries) :
    ∃ details, ServiceAnswer.rejected operation r = .ok
      (.ofParts 400 "INVALID_REQUEST" ("Invalid " ++ operation.name ++ " payload.") details) := by
  have hsendable : ServiceAnswer.unsendable? r = none := by
    apply ServiceAnswer.unsendable?_eq_none
    intro issue hissue bytes
    obtain ⟨entries, hentries⟩ := h issue hissue
    rw [hentries]
    exact Value.noConfusion
  rw [ServiceAnswer.rejected, hsendable]
  exact ⟨_, rfl⟩

theorem handle_plain [LawfulMonad m] (server : Server) (behind : Transport m) {c : Command}
    {json : Json} (hjson : json.compact ≠ "")
    (hread : c.operation.model.readContent (.text json.compact) =
      c.operation.model.conclude .jsonText
        (c.operation.model.decoder .jsonText (.record c.sent))) (hnull : ¬ c.ComparesNull) :
    behind.handle (server.request c.operation json).arrived =
      ServiceAnswer.ofResult <$> behind.run c := by
  have hdecoded := (c.outcome_sent .jsonText).accepted hnull
  rw [hdecoded] at hread
  rw [handle_of_ok server behind hjson hread, bind_pure_comp]

theorem handle_null (server : Server) (behind : Transport m) {c : Command} {json : Json}
    (hjson : json.compact ≠ "")
    (hread : c.operation.model.readContent (.text json.compact) =
      c.operation.model.conclude .jsonText
        (c.operation.model.decoder .jsonText (.record c.sent))) (hnull : c.ComparesNull) :
    ∃ details, behind.handle (server.request c.operation json).arrived = pure (.ok
      (.ofParts 400 "INVALID_REQUEST" ("Invalid " ++ c.operation.name ++ " payload.") details)) := by
  obtain ⟨issues, hdecoded, hissues⟩ := (c.outcome_sent .jsonText).refused hnull
  rw [hdecoded, Model.conclude] at hread
  obtain ⟨details, hanswer⟩ : ∃ details, ServiceAnswer.rejected c.operation
      ⟨c.operation.model.title, .jsonText, issues⟩ = _ := rejected_of_refused hissues
  exact ⟨details, by rw [handle_of_error server behind hjson hread, hanswer]⟩

/-- What a client gets for what the transport behind a server gives: the same result, or, for a
problem, only the status of the answer. -/
def Server.relayed (answered : ServiceAnswer → m Unit) :
    Except Failure Value → m (Except Failure Value)
  | .ok v => do
    answered ⟨200, v⟩
    pure (.ok v)
  | .error (.problem p) => do
    answered ⟨400, p.response⟩
    pure (.error (.badStatus 400))
  | .error failure => pure (.error failure)

section Clients

variable [LawfulMonad m] {server : Server} {behind : Transport m} {asked : WebRequest → m Unit}
  {answered : ServiceAnswer → m Unit} {c : Command} {json : Json}

theorem serving_of_handle_run (hjson : (Value.record c.sent).toJson? = some json)
    (h : behind.handle (server.request c.operation json).arrived =
      ServiceAnswer.ofResult <$> behind.run c) :
    (server.serving behind asked answered).run c =
      (do
        asked (server.request c.operation json)
        Server.relayed answered (← behind.run c)) := by
  -- The request is told of and the transport asked on both sides; only what follows is compared.
  simp only [Server.serving, Server.transport, hjson, h, bind_assoc, bind_map_left]
  congr
  funext _
  congr
  funext result
  rcases result with failure | v
  · cases failure <;> simp [ServiceAnswer.ofResult, Server.relayed, Server.outcome]
  · simp [ServiceAnswer.ofResult, Server.relayed, Server.outcome]

theorem serving_of_handle_pure (hjson : (Value.record c.sent).toJson? = some json)
    {answer : ServiceAnswer} (hstatus : 400 ≤ answer.status ∧ answer.status < 600)
    (h : behind.handle (server.request c.operation json).arrived = pure (.ok answer)) :
    (server.serving behind asked answered).run c =
      (do
        asked (server.request c.operation json)
        answered answer
        pure (.error (.badStatus answer.status))) := by
  have houtcome :
      Server.outcome ⟨answer.status, answer.payload⟩ = .error (.badStatus answer.status) :=
    if_pos ⟨Int.ofNat_le.mpr hstatus.1, Int.ofNat_lt.mpr hstatus.2⟩
  simp [Server.serving, Server.transport, hjson, h, houtcome]

/-- **Plain commands on the wire.** What is sent of a plain command is understood by the server,
which hands the command over as it was, once and with nothing else done; the client gets the result.
A comparison with null is the exception: then the server answers that the request is invalid, and
the transport behind it is not asked. -/
theorem Server.serving_run (server : Server) (behind : Transport m) (asked : WebRequest → m Unit)
    (answered : ServiceAnswer → m Unit) (c : Command)
    (h : c.IsPlain Model.jsonLimits.numbers Model.jsonLimits.levels) :
    ∃ json, (Value.record c.sent).toJson? = some json ∧
      (¬ c.ComparesNull →
        behind.handle (server.request c.operation json).arrived =
          ServiceAnswer.ofResult <$> behind.run c ∧
        (server.serving behind asked answered).run c =
          (do
            asked (server.request c.operation json)
            Server.relayed answered (← behind.run c))) ∧
      (c.ComparesNull → ∃ details,
        behind.handle (server.request c.operation json).arrived = pure (.ok
          (.ofParts 400 "INVALID_REQUEST" ("Invalid " ++ c.operation.name ++ " payload.") details)) ∧
        (server.serving behind asked answered).run c =
          (do
            asked (server.request c.operation json)
            answered
              (.ofParts 400 "INVALID_REQUEST" ("Invalid " ++ c.operation.name ++ " payload.") details)
            pure (.error (.badStatus 400)))) := by
  obtain ⟨json, hjson, hne, hread⟩ := h.exists_read
  refine ⟨json, hjson, fun hnull => ?_, fun hnull => ?_⟩
  · have hhandle := handle_plain server behind hne hread hnull
    exact ⟨hhandle, serving_of_handle_run hjson hhandle⟩
  · obtain ⟨details, hhandle⟩ := handle_null server behind hne hread hnull
    have herror : 400 ≤ 400 ∧ 400 < 600 := by decide
    exact ⟨details, hhandle, serving_of_handle_pure hjson herror hhandle⟩

end Clients

def Command.correction : Command :=
  .update ⟨"people", [("name", .text "Ann"), ("note", .null), ("tags", .list [.int 1, .record []])],
    some [.binary "id" .equal (.int 7), .unary "gone" .isNull], some []⟩

def Command.unnoted : Command :=
  .select ⟨"people", none, some [.binary "note" .equal .null], some 3, none, none⟩

def Server.people : Server := ⟨"http://localhost", .int 30⟩

/-- A transport that finds no rows. -/
def Transport.emptyHanded : Transport Recorded := .recording fun _ => .ok (.list [])

theorem Command.isPlain_correction :
    correction.IsPlain Model.jsonLimits.numbers Model.jsonLimits.levels := by
  constructor
  · have htags : ∀ item ∈ [Value.int 1, .record []], item.Plain Model.jsonLimits.numbers 197 := by
      simp only [List.forall_mem_cons, List.not_mem_nil, false_imp_iff, implies_true, and_true]
      exact ⟨.int _ (by decide), .emptyRecord _⟩
    simp only [correction, freeValues, Condition.freeValues, Option.getD_some, List.filterMap_cons,
      List.filterMap_nil, Condition.value?, Option.map_some, Option.map_none, List.forall_mem_cons,
      List.not_mem_nil, false_imp_iff, implies_true, and_true]
    refine ⟨.record (by decide) ?_, .int _ (by decide)⟩
    simp only [List.forall_mem_cons, List.not_mem_nil, false_imp_iff, implies_true, and_true]
    exact ⟨.text _ _, .null _, .list htags⟩
  · exact List.forall_mem_nil _

theorem Command.isPlain_unnoted :
    unnoted.IsPlain Model.jsonLimits.numbers Model.jsonLimits.levels := by
  constructor
  · exact List.forall_mem_singleton.mpr (.null _)
  · exact List.forall_mem_singleton.mpr (by decide)

/-- An update with null among its values arrives; a selection by a comparison with null does not. -/
theorem Server.serving_run_people :
    (∃ json, ((Server.people.loopback .emptyHanded).run Command.correction).outcome =
      (.ok (.list []),
        [.request (Server.people.request .update json), .command Command.correction,
          .answer ⟨200, .list []⟩])) ∧
    ∃ json details, ((Server.people.loopback .emptyHanded).run Command.unnoted).outcome =
      (.error (.badStatus 400),
        [.request (Server.people.request .select json),
          .answer (.ofParts 400 "INVALID_REQUEST" "Invalid select payload." details)]) := by
  constructor
  · have hnull : ¬ Command.correction.ComparesNull := by
      simp [Command.ComparesNull, Command.correction, Command.conditions?, AnyComparesNull,
        Condition.ComparesNull]
    obtain ⟨json, -, hserved, -⟩ := serving_run Server.people Transport.emptyHanded
      (fun request => Event.note (.request request)) (fun answer => Event.note (.answer answer))
      Command.correction Command.isPlain_correction
    refine ⟨json, ?_⟩
    rw [loopback, (hserved hnull).2]
    rfl
  · have hnull : Command.unnoted.ComparesNull := by
      simp [Command.ComparesNull, Command.unnoted, Command.conditions?, AnyComparesNull,
        Condition.ComparesNull]
    obtain ⟨json, -, -, hrefused⟩ := serving_run Server.people Transport.emptyHanded
      (fun request => Event.note (.request request)) (fun answer => Event.note (.answer answer))
      Command.unnoted Command.isPlain_unnoted
    obtain ⟨details, -, hrun⟩ := hrefused hnull
    refine ⟨json, details, ?_⟩
    rw [loopback, hrun]
    rfl

end SchemaClient
