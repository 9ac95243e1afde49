import SchemaClient.Proofs.CommandLine.Run
import SchemaClient.Proofs.Json.Depth
import SchemaClient.Proofs.Schema.Admission

/-!
# Schemas that are printed and read

The text that is printed of a schema is read as its data, of which the model of schemas makes the
same schema and the model of drafts its draft. The reader has to go into the levels of the data,
which are those of the nested arrays and a few more, and the numbers have to be such as JSON has
digits for.
-/
namespace SchemaClient

open Interchange Validation
open Json (NumberLimit IsPlain isPlain_string isPlain_bool isPlain_int isPlain_float isPlain_array
  isPlain_object isPlain_texts)

namespace Interchange

variable {numbers : NumberLimit} {α τ ρ : Type} {type : τ → Json}

theorem isPlain_list {write : α → Json} {items : List α}
    (h : ∀ item ∈ items, (write item).IsPlain numbers) :
    (Json.array (items.map write)).IsPlain numbers := by
  apply isPlain_array
  rwa [List.forall_mem_map]

/-- Data of something with a name, a name for display and parts. -/
theorem isPlain_described (name displayName : String) {field : String}
    (hfield : field ∉ ["name", "display_name"]) {parts : Json} (h : parts.IsPlain numbers) :
    (Json.object [("name", .string name), ("display_name", .string displayName),
      (field, parts)]).IsPlain numbers := by
  apply isPlain_object
  · simp only [List.mem_cons, List.not_mem_nil, or_false, not_or] at hfield
    simp [Entries.names, Ne.symm hfield.1, Ne.symm hfield.2]
  · simp only [List.forall_mem_cons]
    exact ⟨isPlain_string name, isPlain_string displayName, h, List.forall_mem_nil _⟩

/-- Data of any type are plain, however deep its arrays. -/
theorem isPlain_typeJson (leaf : ρ → String × String) (type : TypeShape ρ) :
    (typeJson leaf type).IsPlain numbers := by
  induction type with
  | array element ih =>
    apply isPlain_object
    · simp [Entries.names]
    · simp only [List.forall_mem_cons]
      exact ⟨isPlain_string "array", ih, List.forall_mem_nil _⟩
  | reference target => exact isPlain_texts (by simp [Entries.names])
  | _ => exact isPlain_texts (List.nodup_singleton _)

theorem isPlain_enumerationJson {e : Enumeration} (hroom : numbers.HasRoom)
    (h : ∀ label ∈ e.fields, label.order.isFinite) : (enumerationJson e).IsPlain numbers := by
  apply isPlain_described e.name e.displayName (by decide)
  apply isPlain_list
  intro label hlabel
  apply isPlain_object
  · simp [Entries.names]
  · simp only [List.forall_mem_cons]
    exact ⟨isPlain_string label.name, isPlain_float (h label hlabel) hroom, List.forall_mem_nil _⟩

theorem isPlain_attributesJson (htype : ∀ t, (type t).IsPlain numbers)
    {attributes : List (Attribute τ)} (h : ∀ a ∈ attributes, numbers.Admits a.order) :
    (attributesJson type attributes).IsPlain numbers := by
  apply isPlain_list
  intro a ha
  apply isPlain_object
  · simp [Entries.names]
  · simp only [List.forall_mem_cons]
    exact ⟨isPlain_string a.name, isPlain_int (h a ha), isPlain_bool a.nullable, htype a.type,
      List.forall_mem_nil _⟩

end Interchange

/-- All attributes of a schema: of its types, its tables and its routines. -/
def SchemaOf.attributes {τ : Type} (s : SchemaOf τ) : List (Attribute τ) :=
  s.types.flatMap Composite.attributes ++ s.tables.flatMap Table.columns ++
    s.functions.flatMap Routine.parameters

/-- The orders of labels are numbers that JSON has digits for. -/
def SchemaOf.HasFiniteOrders {τ : Type} (s : SchemaOf τ) : Prop :=
  ∀ e ∈ s.enums, ∀ label ∈ e.fields, label.order.isFinite

instance {τ : Type} (s : SchemaOf τ) : Decidable s.HasFiniteOrders :=
  inferInstanceAs (Decidable (∀ e ∈ s.enums, ∀ label ∈ e.fields, label.order.isFinite))

/-- A reader of JSON goes into the levels of a schema and takes numbers as long as those in it. -/
structure Schema.IsWithin (s : Schema) (limits : Json.Limits) : Prop where
  levels : s.toJson.depth ≤ limits.levels
  orders : ∀ a ∈ s.attributes, limits.numbers.Admits a.order
  room : limits.numbers.HasRoom

namespace Schema

variable {s : Schema}

theorem isPlain_toJson {limits : Json.Limits} (horders : s.HasFiniteOrders)
    (hlimits : s.IsWithin limits) : s.toJson.IsPlain limits.numbers := by
  have htype : ∀ type : DataType, (dataTypeJson type).IsPlain limits.numbers :=
    isPlain_typeJson targetKind
  have hattributes := hlimits.orders
  simp only [SchemaOf.attributes, List.forall_mem_append, List.forall_mem_flatMap] at hattributes
  obtain ⟨⟨htypes, htables⟩, hroutines⟩ := hattributes
  apply isPlain_object
  · simp [Entries.names]
  simp only [List.forall_mem_cons]
  refine ⟨isPlain_list ?_, isPlain_list ?_, isPlain_list ?_, isPlain_list ?_,
    List.forall_mem_nil _⟩
  · exact fun e he => isPlain_enumerationJson hlimits.room (horders e he)
  · exact fun t ht => isPlain_described t.name t.displayName (by decide)
      (isPlain_attributesJson htype (htypes t ht))
  · exact fun t ht => isPlain_described t.name t.displayName (by decide)
      (isPlain_attributesJson htype (htables t ht))
  · intro f hf
    apply isPlain_object
    · simp [Entries.names]
    · simp only [List.forall_mem_cons]
      exact ⟨isPlain_string f.name, isPlain_attributesJson htype (hroutines f hf),
        htype f.returnType, List.forall_mem_nil _⟩

open CommandLine in
/-- **A printed schema is read as itself.** Where a schema is discovered, a report in JSON prints
one text after its notes. That text is read as the data of the schema within any limits that the
schema keeps to; the model of schemas makes the same schema of them, and the model of drafts its
draft. -/
theorem read_printed {limits : Json.Limits} (horders : s.HasFiniteOrders)
    (hlimits : s.IsWithin limits) :
    (∀ (m : Type → Type) [Monad m] [LawfulMonad m] (world : World m) (say : Note → m Unit)
      (catalog : Catalog) (options : DiscoveryOptions), catalog.discover options = .ok s →
        ∃ notes : List Note, report world say .json catalog options none = ExceptT.lift (do
          forM notes say
          world.print (Report.json.text s ++ "\n"))) ∧
      Json.read limits (Report.json.text s ++ "\n") = .ok s.toJson ∧
      Schema.read s.toJson.toValue = .ok s ∧ Draft.read s.toJson.toValue = .ok s.toDraft := by
  refine ⟨fun m _ _ world say catalog options hs => report_printed hs, ?_, ?_, ?_⟩
  · apply Json.read_write ((isPlain_toJson horders hlimits).fits hlimits.levels)
    simp
  · rw [Schema.read, Model.read, decode_toJson]
    rfl
  · have hdraft := Draft.decode_toJson .values s.toDraft
    rw [toJson_toDraft] at hdraft
    rw [Draft.read, Model.read, hdraft]
    rfl

/-- Letters with a mood, a tone and pages of lines, and what is known of their senders. -/
def letters : Schema where
  enums :=
    [⟨"mood", "Mood", [⟨"\"fröhlich\"", ⟨0x3ff0000000000000⟩⟩]⟩,
      ⟨"tone", "Tone", [⟨"low", ⟨0x4004000000000000⟩⟩]⟩]
  types := [⟨"letter", "Letter", [⟨"pages", 1, false, .array (.array .string)⟩]⟩]
  tables :=
    [⟨"senders", "Senders", [⟨"mood", 1, true, .reference (.enum "mood")⟩]⟩,
      ⟨"boxes", "Boxes", [⟨"letters", 1, true, .array (.reference (.composite "letter"))⟩]⟩]
  functions := [⟨"count_letters", [⟨"tone", 1, false, .reference (.enum "tone")⟩], .number⟩]

/-- A catalog that has those letters. -/
def letterCatalog : Catalog where
  enumLabels :=
    .ok [⟨"mood", "\"fröhlich\"", ⟨0x3ff0000000000000⟩⟩, ⟨"tone", "low", ⟨0x4004000000000000⟩⟩]
  typeNames := .ok ["letter"]
  typeAttributes _ := .ok [⟨"pages", 1, false, TypeNames.array, some "__text"⟩]
  tableNames := .ok ["senders", "boxes"]
  tableColumns name :=
    if name = "senders" then .ok [⟨"mood", 1, true, TypeNames.userDefined, some "mood"⟩]
    else .ok [⟨"letters", 1, true, TypeNames.array, some "_letter"⟩]
  routines := .ok [⟨"count_letters", "count_letters_1", "integer", some "int4"⟩]
  routineParameters _ := .ok [⟨some "tone", 1, TypeNames.userDefined, some "tone"⟩]

theorem discover_letters : letterCatalog.discover ⟨.empty, "public", 4⟩ = .ok letters := by
  have h : (letterCatalog.discover ⟨.empty, "public", 4⟩).toOption = some letters := by
    decide +kernel
  cases hdiscover : letterCatalog.discover ⟨.empty, "public", 4⟩ with
  | error failure => rw [hdiscover] at h; cases h
  | ok s => rw [hdiscover] at h; exact congrArg Except.ok (Option.some.inj h)

open CommandLine in
/-- A world that keeps what is printed. -/
def keepingWorld : World (StateM (List String)) where
  files := ⟨pure "/", fun _ => pure (.ok false), fun _ => pure (.error .fileMissing),
    fun _ _ => pure (.ok ())⟩
  environment := pure []
  connect _ := pure ⟨fun _ _ => [], pure ()⟩
  print text := modify (· ++ [text])
  complain _ := pure ()

open CommandLine in
theorem read_printed_letters :
    (letters.HasFiniteOrders ∧ letters.IsWithin ⟨990, .digits 4300, true⟩ ∧
      letterCatalog.discover ⟨.empty, "public", 4⟩ = .ok letters) ∧
    ((report keepingWorld (fun _ => pure ()) .json letterCatalog ⟨.empty, "public", 4⟩ none).run.run
      []).2 = [Report.json.text letters ++ "\n"] ∧
    Json.read ⟨990, .digits 4300, true⟩ (Report.json.text letters ++ "\n") = .ok letters.toJson ∧
    Schema.read letters.toJson.toValue = .ok letters ∧
    Draft.read letters.toJson.toValue = .ok letters.toDraft := by
  have horders : letters.HasFiniteOrders := by decide
  have hlimits : letters.IsWithin ⟨990, .digits 4300, true⟩ :=
    { levels := by decide, orders := by decide, room := trivial }
  obtain ⟨hprinted, hread⟩ := read_printed horders hlimits
  refine ⟨⟨horders, hlimits, discover_letters⟩, ?_, hread⟩
  obtain ⟨notes, hnotes⟩ := hprinted (StateM (List String)) keepingWorld (fun _ => pure ())
    letterCatalog ⟨.empty, "public", 4⟩ discover_letters
  rw [hnotes, forM_unheard, pure_bind]
  rfl

end Schema
end SchemaClient
