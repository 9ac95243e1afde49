import SchemaClient.Proofs.Runs
import SchemaClient.Proofs.Text.Utf8
import SchemaClient.Proofs.Validation.Outcome
import SchemaClient.Proofs.Validation.Parts
import SchemaClient.Transport.Record

/-!
# Dispatch

Which requests reach the transport behind a server, and how all others are answered. A command that
arrives is carried out once and its result is the answer. A request that is not for any operation,
or holds no command of its operation, is answered without the transport. The one exception is
content that is bytes of no text: the answer would have to show it, and fails.
-/
namespace SchemaClient

open Validation

namespace Text

variable {drop : Char → Bool}

/-- What is trimmed away stands in front and behind, and is to be dropped. -/
theorem exists_trimmed (drop : Char → Bool) (text : List Char) :
    ∃ before after, text = before ++ trimmed drop text ++ after ∧
      (∀ c ∈ before, drop c) ∧ ∀ c ∈ after, drop c := by
  refine ⟨text.takeWhile drop, ((text.dropWhile drop).reverse.takeWhile drop).reverse, ?_, ?_, ?_⟩
  · have hback := List.takeWhile_append_dropWhile (p := drop) (l := (text.dropWhile drop).reverse)
    have hfront := List.takeWhile_append_dropWhile (p := drop) (l := text)
    rw [trimmed, List.append_assoc, ← List.reverse_append, hback, List.reverse_reverse, hfront]
  · intro c hc
    exact List.mem_takeWhile_imp hc
  · intro c hc
    exact List.mem_takeWhile_imp (List.mem_reverse.mp hc)

theorem trimmed_around {before core after : List Char} (hbefore : ∀ c ∈ before, drop c)
    (hafter : ∀ c ∈ after, drop c) (hfirst : Runs.Stops drop (core ++ after))
    (hlast : Runs.Stops drop core.reverse) : trimmed drop (before ++ core ++ after) = core := by
  have hreverse : ∀ c ∈ after.reverse, drop c := fun c hc => hafter c (List.mem_reverse.mp hc)
  rw [trimmed, List.append_assoc, Runs.dropWhile_run hbefore hfirst, List.reverse_append,
    Runs.dropWhile_run hreverse hlast, List.reverse_reverse]

end Text

theorem Operation.ofRoute?_eq_some_iff {method route : String} {operation : Operation} :
    Operation.ofRoute? method route = some operation ↔
      operation.method = method ∧ operation.name = route := by
  constructor
  · intro h
    have hfits := List.find?_some h
    simpa using hfits
  · rintro ⟨rfl, rfl⟩
    cases operation <;> decide

theorem Operation.name_stops (operation : Operation) (after : List Char) :
    Runs.Stops (· = '/') (operation.name.toList ++ after) ∧
      Runs.Stops (· = '/') operation.name.toList.reverse := by
  cases operation <;> exact ⟨Runs.stops_cons (by decide), Runs.stops_cons (by decide)⟩

namespace ServiceRequest

variable {request : ServiceRequest} {operation : Operation}

/-- The method is that of the operation in any case of its letters, and the path its name with any
slashes around it. -/
def AsksFor (request : ServiceRequest) (operation : Operation) : Prop :=
  Text.upper request.method = operation.method ∧
    ∃ before after : Nat, request.route.toList =
      List.replicate before '/' ++ operation.name.toList ++ List.replicate after '/'

theorem path_eq_name_iff : operation.name = request.path ↔
    ∃ before after : Nat, request.route.toList =
      List.replicate before '/' ++ operation.name.toList ++ List.replicate after '/' := by
  constructor
  · intro h
    obtain ⟨before, after, htext, hbefore, hafter⟩ :=
      Text.exists_trimmed (· = '/') request.route.toList
    have hcore : Text.trimmed (· = '/') request.route.toList = operation.name.toList := by
      rw [h, path, String.toList_ofList]
    have hslashes : ∀ slashes : List Char, (∀ c ∈ slashes, decide (c = '/')) →
        slashes = List.replicate slashes.length '/' := by
      intro slashes hall
      exact List.eq_replicate_iff.mpr ⟨rfl, fun c hc => of_decide_eq_true (hall c hc)⟩
    refine ⟨before.length, after.length, ?_⟩
    rw [htext, hcore, ← hslashes before hbefore, ← hslashes after hafter]
  · rintro ⟨before, after, hroute⟩
    have hslash : ∀ n : Nat, ∀ c ∈ List.replicate n '/', decide (c = '/') := by
      intro n c hc
      exact decide_eq_true (List.eq_of_mem_replicate hc)
    obtain ⟨hfirst, hlast⟩ := operation.name_stops (List.replicate after '/')
    rw [path, hroute, Text.trimmed_around (hslash before) (hslash after) hfirst hlast,
      String.ofList_toList]

theorem operation?_eq_some_iff : request.operation? = some operation ↔ request.AsksFor operation := by
  rw [operation?, Operation.ofRoute?_eq_some_iff, path_eq_name_iff, verb, eq_comm, AsksFor]

/-- A request asks for one operation at most. -/
theorem AsksFor.unique {other : Operation} (h : request.AsksFor operation)
    (hother : request.AsksFor other) : operation = other := by
  have hsame := (operation?_eq_some_iff.mpr h).symm.trans (operation?_eq_some_iff.mpr hother)
  exact Option.some.inj hsame

/-- Where the command of a request for an operation is to be. -/
def content (request : ServiceRequest) : Operation → Value
  | .select => (request.query.lookup "query").getD .null
  | _ => request.body

theorem payload?_eq : request.payload? operation =
    if (request.content operation).isNothing then none else some (request.content operation) := by
  cases operation <;> rfl

end ServiceRequest

/-- A text, as it is or in bytes. -/
def Value.IsTextOf (content : Value) (s : String) : Prop :=
  content = .text s ∨ ∃ bytes, content = .bytes bytes ∧ Text.ofBytes? bytes = some s

/-- Bytes that encode no text. -/
def Value.IsNoText (content : Value) : Prop :=
  ∃ bytes, content = .bytes bytes ∧ Text.ofBytes? bytes = none

/-- Content is JSON text of data that are a command for the operation. -/
def Operation.Accepts (operation : Operation) (content : Value) (command : Command) : Prop :=
  ∃ s json, content.IsTextOf s ∧ Json.read Model.jsonLimits s = .ok json ∧
    operation.model.decoder .jsonText json.toValue = .ok command

namespace Validation.Model

variable {α : Type} {model : Model α}

theorem conclude_eq_ok {source : Source} {x : Validated α} {a : α}
    (h : model.conclude source x = .ok a) : x = .ok a := by
  cases x with
  | ok b => cases h; rfl
  | error issues => cases h

theorem decoder_map_eq_ok {β : Type} {f : α → β} {source : Source} {v : Value} {b : β}
    (h : (model.map f).decoder source v = .ok b) : ∃ a, b = f a := by
  unfold decoder at h
  split at h
  · next entries =>
    unfold Fields.readAll at h
    split at h
    · next hread _ =>
      cases h
      obtain ⟨a, -, hb⟩ := map_eq_ok hread
      exact ⟨a, hb.symm⟩
    · cases h
    · cases h
  · cases h

theorem readJson_eq_ok_iff {s : String} {a : α} : model.readJson s = .ok a ↔
    ∃ json, Json.read jsonLimits s = .ok json ∧ model.decoder .jsonText json.toValue = .ok a := by
  unfold readJson
  constructor
  · intro h
    split at h
    · next json hjson => exact ⟨json, hjson, conclude_eq_ok h⟩
    · cases h
  · rintro ⟨json, hjson, ha⟩
    rw [hjson]
    dsimp only
    rw [ha, conclude]

end Validation.Model

theorem Operation.accepts_iff {operation : Operation} {content : Value} {command : Command} :
    operation.Accepts content command ↔ operation.model.readContent content = .ok command := by
  constructor
  · rintro ⟨s, json, rfl | ⟨bytes, rfl, hbytes⟩, hjson, hcommand⟩
    · exact Model.readJson_eq_ok_iff.mpr ⟨json, hjson, hcommand⟩
    · rw [Model.readContent, hbytes]
      exact Model.readJson_eq_ok_iff.mpr ⟨json, hjson, hcommand⟩
  · intro h
    unfold Model.readContent at h
    split at h
    · next s =>
      obtain ⟨json, hjson, hcommand⟩ := Model.readJson_eq_ok_iff.mp h
      exact ⟨s, json, .inl rfl, hjson, hcommand⟩
    · next bytes =>
      split at h
      · next s hbytes =>
        obtain ⟨json, hjson, hcommand⟩ := Model.readJson_eq_ok_iff.mp h
        exact ⟨s, json, .inr ⟨bytes, rfl, hbytes⟩, hjson, hcommand⟩
      · cases h
    · cases h

/-- What is read is a command of the operation, and of no other. -/
theorem Operation.Accepts.operation_eq {operation : Operation} {content : Value} {command : Command}
    (h : operation.Accepts content command) : command.operation = operation := by
  obtain ⟨s, json, -, -, hcommand⟩ := h
  cases operation with
  | select =>
    obtain ⟨query, rfl⟩ := Model.decoder_map_eq_ok hcommand
    rfl
  | insert | update | delete | call =>
    obtain ⟨command, rfl⟩ := Model.decoder_map_eq_ok hcommand
    rfl

section Local

open Decoder Fields

theorem OrderBy.local_columnsDecoder : OrderBy.columnsDecoder.Local := by
  intro source v
  unfold OrderBy.columnsDecoder
  split
  · next issues h => exact about_error (local_text.list source v issues h)
  · exact about_fail _
  · exact about_ok

theorem Condition.local_decoder : Condition.decoder.Local := by
  have hunary : Condition.unaryModel.decoder.Local := Fields.Local.decoder
    ((((local_required "column" local_text).map _).seq
      (local_withDefault "arity" () (local_only 1))).seq
        (local_required "operator" (local_choice UnaryOperator.words)))
  have hbinary : Condition.binaryModel.decoder.Local := Fields.Local.decoder
    (((((local_required "column" local_text).map _).seq
      (local_withDefault "arity" () (local_only 2))).seq
        (local_required "operator" (local_choice BinaryOperator.words))).seq
          (local_required "value" local_value))
  intro source v
  unfold Condition.decoder
  split
  · next issues h => exact about_error (Tag.about_find "arity" Condition.tags v issues h)
  · next tag htag =>
    have hmem : tag ∈ Condition.tags := Tag.mem_of_find htag
    apply About.under
    simp only [Condition.tags, List.mem_cons, List.not_mem_nil, or_false] at hmem
    rcases hmem with rfl | rfl
    · exact hunary source v
    · exact hbinary source v

variable {α : Type} {decoder : Decoder α}

theorem Command.local_optionalField (name : String) (h : decoder.Local) :
    (Command.optionalField name decoder).Local := local_withDefault name none h.optional

theorem Command.local_columnsField (name : String) : (Command.columnsField name).Local :=
  Command.local_optionalField name local_text.list

theorem Command.local_conditionsField : Command.conditionsField.Local :=
  Command.local_optionalField "conditions" Condition.local_decoder.list

theorem OrderBy.local_decoder : OrderBy.model.decoder.Local := Fields.Local.decoder
  (((local_required "columns" OrderBy.local_columnsDecoder).map _).seq
    (local_withDefault "direction" .asc (local_choice Direction.words)))

theorem Select.local_fields : Select.model.fields.Local :=
  ((((((local_required "table" local_text).map _).seq
    (Command.local_columnsField "selected")).seq Command.local_conditionsField).seq
      (Command.local_optionalField "limit" local_count)).seq
        (Command.local_optionalField "offset" local_count)).seq
          (Command.local_optionalField "order_by" OrderBy.local_decoder)

theorem Insert.local_fields : Insert.model.fields.Local :=
  ((((local_required "table" local_text).map _).seq
    (local_withDefault "columns" [] local_text.list)).seq
      (local_withDefault "rows" [] local_record.list)).seq (Command.local_columnsField "returning")

theorem Update.local_fields : Update.model.fields.Local :=
  ((((local_required "table" local_text).map _).seq
    (local_withDefault "values" [] local_record)).seq Command.local_conditionsField).seq
      (Command.local_columnsField "returning")

theorem Delete.local_fields : Delete.model.fields.Local :=
  (((local_required "table" local_text).map _).seq Command.local_conditionsField).seq
    (Command.local_columnsField "returning")

theorem Call.local_fields : Call.model.fields.Local :=
  ((local_required "procedure" local_text).map _).seq
    (Command.local_optionalField "parameters" local_value.list)

/-- What is told of data that are no command is told of values that lie in the data. -/
theorem Operation.local_decoder (operation : Operation) : operation.model.decoder.Local := by
  cases operation with
  | select => exact Select.local_fields.mapped Command.select
  | insert => exact Insert.local_fields.mapped Command.insert
  | update => exact Update.local_fields.mapped Command.update
  | delete => exact Delete.local_fields.mapped Command.delete
  | call => exact Call.local_fields.mapped Command.call

end Local

theorem Json.mem_toValues {items : List Json} {v : Value} (h : v ∈ Json.toValues items) :
    ∃ json ∈ items, v = json.toValue := by
  induction items with
  | nil => cases h
  | cons first rest ih =>
    rw [Json.toValues] at h
    rcases List.mem_cons.mp h with rfl | hrest
    · exact ⟨first, List.mem_cons_self, rfl⟩
    · obtain ⟨json, hmem, hv⟩ := ih hrest
      exact ⟨json, List.mem_cons_of_mem _ hmem, hv⟩

theorem Json.mem_toEntries {members : List (String × Json)} {entry : String × Value}
    (h : entry ∈ Json.toEntries members) : ∃ json : Json, entry.2 = json.toValue := by
  induction members with
  | nil => cases h
  | cons first rest ih =>
    rw [Json.toEntries] at h
    rcases List.mem_cons.mp h with rfl | hrest
    · exact ⟨first.2, rfl⟩
    · exact ih hrest

/-- What lies in the data of a JSON text is the value of some JSON value, and so never bytes. -/
theorem Value.Within.exists_json {part v : Value} (h : part.Within v) {json : Json}
    (hv : v = json.toValue) : ∃ inner : Json, part = inner.toValue := by
  induction h generalizing json with
  | whole => exact ⟨json, hv⟩
  | item hmem _ ih =>
    cases json with
    | array items =>
      cases hv
      obtain ⟨inner, -, hinner⟩ := Json.mem_toValues hmem
      exact ih hinner
    | _ => cases hv
  | tupleItem =>
    cases json <;> cases hv
  | entry hmem _ ih =>
    cases json with
    | object members =>
      cases hv
      obtain ⟨inner, hinner⟩ := Json.mem_toEntries hmem
      exact ih hinner
    | unnamed =>
      cases hv
      cases hmem
    | _ => cases hv

theorem Json.toValue_ne_bytes (json : Json) (bytes : List UInt8) : json.toValue ≠ .bytes bytes := by
  cases json <;> exact Value.noConfusion

namespace ServiceAnswer

theorem unsendable?_eq_none {r : Rejection}
    (h : ∀ issue ∈ r.issues, ∀ bytes, issue.input ≠ .bytes bytes) : unsendable? r = none := by
  rw [unsendable?, List.findSome?_eq_none_iff]
  intro issue hmem
  split
  · next bytes hinput => exact absurd hinput (h issue hmem bytes)
  · rfl

end ServiceAnswer

theorem Validation.Model.conclude_eq_error {α : Type} {model : Model α} {source : Source}
    {x : Validated α} {r : Rejection} (h : model.conclude source x = .error r) :
    x = .error r.issues := by
  cases x with
  | ok a => cases h
  | error issues => cases h; rfl

/-- A JSON text that is refused can be shown in the answer. -/
theorem Operation.readJson_sendable {operation : Operation} {s : String} {r : Rejection}
    (h : operation.model.readJson s = .error r) : ServiceAnswer.unsendable? r = none := by
  apply ServiceAnswer.unsendable?_eq_none
  intro issue hmem bytes
  unfold Model.readJson at h
  split at h
  · next json _ =>
    have hissues := Model.conclude_eq_error h
    have hwithin := operation.local_decoder .jsonText json.toValue r.issues hissues issue hmem
    obtain ⟨inner, hinner⟩ := hwithin.exists_json rfl
    rw [hinner]
    exact inner.toValue_ne_bytes bytes
  · cases h
    rw [List.mem_singleton.mp hmem]
    exact Value.noConfusion

/-- Refused content can be shown in the answer unless it is bytes of no text. -/
theorem Operation.readContent_sendable {operation : Operation} {content : Value} {r : Rejection}
    (h : operation.model.readContent content = .error r) (htext : ¬ content.IsNoText) :
    ServiceAnswer.unsendable? r = none := by
  unfold Model.readContent at h
  split at h
  · exact Operation.readJson_sendable h
  · next bytes =>
    split at h
    · exact Operation.readJson_sendable h
    · next hbytes => exact absurd ⟨bytes, rfl, hbytes⟩ htext
  · next hnotText hnotBytes =>
    cases h
    apply ServiceAnswer.unsendable?_eq_none
    intro issue hmem bytes
    rw [List.mem_singleton.mp hmem]
    exact hnotBytes bytes

theorem Operation.readContent_unsendable (operation : Operation) {content : Value}
    (h : content.IsNoText) : ∃ r fault, operation.model.readContent content = .error r ∧
      ServiceAnswer.unsendable? r = some fault := by
  obtain ⟨bytes, rfl, hbytes⟩ := h
  obtain ⟨fault, hfault⟩ := Text.exists_encodingFault hbytes
  refine ⟨operation.model.notJson (.bytes bytes), fault, ?_, ?_⟩
  · rw [Model.readContent, hbytes]
  · rw [ServiceAnswer.unsendable?, Model.notJson, List.findSome?_cons]
    simp only [hfault]

namespace Transport

variable {m : Type → Type} [Monad m]

/-- What has to come of a request, case by case. An answer that is `pure` is given without the
transport. -/
structure Dispatched (transport : Transport m) (request : ServiceRequest)
    (answer : m (Except Failure ServiceAnswer)) : Prop where
  /-- Not for any operation. -/
  unrouted : (∀ operation, ¬ request.AsksFor operation) →
    answer = pure (.ok (.notFound request.verb request.path))
  /-- Without content. -/
  empty {operation : Operation} : request.AsksFor operation →
    (request.content operation).isNothing →
      answer = pure (.ok (.noPayload operation))
  /-- With content that is no command, but can be shown. -/
  refused {operation : Operation} : request.AsksFor operation →
    ¬ (request.content operation).isNothing →
      (∀ command, ¬ operation.Accepts (request.content operation) command) →
        ¬ (request.content operation).IsNoText →
          ∃ details, answer = pure
            (.ok (.badRequest ("Invalid " ++ operation.name ++ " payload.") details))
  /-- With content that is bytes of no text. -/
  unsendable {operation : Operation} : request.AsksFor operation →
    ¬ (request.content operation).isNothing → (request.content operation).IsNoText →
      ∃ fault, answer = pure (.error (.unsendable fault))
  /-- With a command. -/
  carriedOut {operation : Operation} {command : Command} : request.AsksFor operation →
    ¬ (request.content operation).isNothing →
      operation.Accepts (request.content operation) command →
        command.operation = operation ∧
          answer = transport.run command >>= fun result => pure
            (match result with
            | .ok v => .ok ⟨200, v⟩
            | .error (.problem p) => .ok ⟨400, p.response⟩
            | .error failure => .error failure)

variable {request : ServiceRequest} {operation : Operation}

theorem handle_of_unrouted (transport : Transport m) (h : request.operation? = none) :
    transport.handle request = pure (.ok (.notFound request.verb request.path)) := by
  rw [handle, h]

theorem handle_of_routed (transport : Transport m) (h : request.AsksFor operation) :
    transport.handle request =
      if (request.content operation).isNothing then pure (.ok (.noPayload operation)) else
        match operation.model.readContent (request.content operation) with
        | .error r => pure (ServiceAnswer.rejected operation r)
        | .ok command => transport.run command >>= fun result =>
          pure (ServiceAnswer.ofResult result) := by
  rw [handle, ServiceRequest.operation?_eq_some_iff.mpr h]
  dsimp only
  rw [ServiceRequest.payload?_eq]
  split_ifs <;> rfl

/-- Every request is dispatched as it has to be, whatever the transport does. -/
theorem handle_dispatched (transport : Transport m) (request : ServiceRequest) :
    Dispatched transport request (transport.handle request) where
  unrouted h := by
    apply handle_of_unrouted
    rw [Option.eq_none_iff_forall_ne_some]
    intro operation hoperation
    exact h operation (ServiceRequest.operation?_eq_some_iff.mp hoperation)
  empty hasks hnothing := by rw [handle_of_routed transport hasks, if_pos hnothing]
  refused {operation} hasks hsome hnone htext := by
    rw [handle_of_routed transport hasks, if_neg hsome]
    cases hread : operation.model.readContent (request.content operation) with
    | ok command => exact absurd (Operation.accepts_iff.mpr hread) (hnone command)
    | error r =>
      have hsendable := Operation.readContent_sendable hread htext
      dsimp only
      rw [ServiceAnswer.rejected, hsendable]
      exact ⟨_, rfl⟩
  unsendable {operation} hasks hsome htext := by
    obtain ⟨r, fault, hread, hfault⟩ := operation.readContent_unsendable htext
    refine ⟨fault, ?_⟩
    rw [handle_of_routed transport hasks, if_neg hsome, hread]
    dsimp only
    rw [ServiceAnswer.rejected, hfault]
  carriedOut {operation command} hasks hsome haccepts := by
    have hread := Operation.accepts_iff.mp haccepts
    refine ⟨haccepts.operation_eq, ?_⟩
    rw [handle_of_routed transport hasks, if_neg hsome, hread]
    rfl

/-- A row to insert as one byte that starts no character. -/
def unreadableInsert : ServiceRequest := ⟨"POST", "insert", [], .bytes [0xff]⟩

/-- Content without a command that is not answered with a refusal. -/
theorem handle_unreadableInsert : unreadableInsert.AsksFor .insert ∧
    (unreadableInsert.content .insert).isNothing = false ∧
    (∀ command, ¬ Operation.insert.Accepts (unreadableInsert.content .insert) command) ∧
    ((recording fun _ => .ok .null).handle unreadableInsert).outcome =
      (.error (.unsendable ⟨0, some 1⟩), []) := by
  refine ⟨ServiceRequest.operation?_eq_some_iff.mp (by decide), rfl, ?_, rfl⟩
  intro command haccepts
  have hbytes : (unreadableInsert.content .insert).IsNoText := ⟨[0xff], rfl, by decide⟩
  obtain ⟨r, fault, hread, -⟩ := Operation.insert.readContent_unsendable hbytes
  rw [Operation.accepts_iff, hread] at haccepts
  cases haccepts

end Transport
end SchemaClient
