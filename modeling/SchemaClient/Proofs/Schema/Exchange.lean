import SchemaClient.Proofs.Schema.Retraction
import SchemaClient.Proofs.Validation.Exact
import SchemaClient.Schema.Interchange

/-!
# Schemas read as data

A schema or draft is written as data and read by the model of schemas or of drafts. What is read
agrees with what was written slot by slot, so all issues lie at slots, each at the path of its slot
in the data. The model of schemas knows every kind of type but that of a name still to be looked up.
-/
namespace SchemaClient

open Validation

/-- A slot and the way to its type in the data of a schema. -/
abbrev Place (τ : Type) := List Step × Slot τ

namespace Place

variable {τ : Type} {α : Type}

/-- The places of a part, seen from the whole. -/
def within (step : Step) (places : List (Place τ)) : List (Place τ) :=
  places.map fun place => (step :: place.1, place.2)

/-- The places of items, each under the number of its item. -/
def numbered (of : α → List (Place τ)) (start : Nat) (items : List α) : List (Place τ) :=
  (items.zipIdx start).flatMap fun item => within (.number item.2) (of item.1)

def ofAttribute (owner : String) (a : Attribute τ) : List (Place τ) :=
  [([.name "type"], ⟨owner, a.name, a.type⟩)]

def ofAttributes (field owner : String) (attributes : List (Attribute τ)) : List (Place τ) :=
  within (.name field) (numbered (ofAttribute owner) 0 attributes)

def ofRoutine (r : Routine τ) : List (Place τ) :=
  ofAttributes "parameters" r.name r.parameters ++
    [([.name "return_type"], ⟨r.name, returnSlot, r.returnType⟩)]

end Place

open Place in
/-- The slots of a schema with the ways to them. -/
def SchemaOf.places {τ : Type} (s : SchemaOf τ) : List (Place τ) :=
  within (.name "types")
      (numbered (fun t => ofAttributes "attributes" t.name t.attributes) 0 s.types) ++
    within (.name "tables")
      (numbered (fun t => ofAttributes "columns" t.name t.columns) 0 s.tables) ++
    within (.name "functions") (numbered ofRoutine 0 s.functions)

namespace Place

variable {τ : Type} {α : Type}

theorem slots_within (step : Step) (places : List (Place τ)) :
    (within step places).map Prod.snd = places.map Prod.snd := by
  rw [within, List.map_map]
  rfl

theorem slots_numbered (of : α → List (Place τ)) (start : Nat) (items : List α) :
    (numbered of start items).map Prod.snd = items.flatMap fun item => (of item).map Prod.snd := by
  induction items generalizing start with
  | nil => rfl
  | cons item rest ih =>
    have htail := ih (start + 1)
    unfold numbered at htail ⊢
    rw [List.zipIdx_cons, List.flatMap_cons, List.map_append, htail, slots_within, List.flatMap_cons]

theorem slots_ofAttributes (field owner : String) (attributes : List (Attribute τ)) :
    (ofAttributes field owner attributes).map Prod.snd =
      SchemaOf.attributeSlots owner attributes := by
  rw [ofAttributes, slots_within, slots_numbered, SchemaOf.attributeSlots, List.map_eq_flatMap]
  rfl

end Place

/-- Every slot of a schema has its place, in the same order. -/
theorem SchemaOf.slots_places {τ : Type} (s : SchemaOf τ) : s.places.map Prod.snd = s.slots := by
  simp only [places, Place.ofRoutine, List.map_append, Place.slots_within, Place.slots_numbered,
    Place.slots_ofAttributes, slots, List.map_cons, List.map_nil]

namespace Place

variable {τ α : Type} (issuesOf : τ → List Issue)

/-- The issues of the types at places, seen from the whole. -/
def issues (places : List (Place τ)) : List Issue :=
  places.flatMap fun place =>
    (issuesOf place.2.type).map fun issue => { issue with path := place.1 ++ issue.path }

variable {issuesOf}

theorem issues_append (places others : List (Place τ)) :
    issues issuesOf (places ++ others) = issues issuesOf places ++ issues issuesOf others :=
  List.flatMap_append

theorem issues_within (step : Step) (places : List (Place τ)) :
    issues issuesOf (within step places) = (issues issuesOf places).map (Issue.into step) := by
  rw [issues, issues, within, List.flatMap_map, List.map_flatMap]
  simp only [List.map_map]
  rfl

theorem issues_numbered (of : α → List (Place τ)) (start : Nat) (items : List α) :
    issues issuesOf (numbered of start items) =
      itemIssues (fun item => issues issuesOf (of item)) start items := by
  rw [issues, numbered, List.flatMap_assoc, itemIssues]
  simp only [← issues_within]
  rfl

theorem issues_ofAttribute (owner : String) (a : Attribute τ) :
    issues issuesOf (ofAttribute owner a) = (issuesOf a.type).map (Issue.into (.name "type")) := by
  rw [issues, ofAttribute, List.flatMap_singleton]
  rfl

end Place

namespace Interchange

open Validation.Fields

theorem toValues_map {α : Type} (write : α → Json) (items : List α) :
    Json.toValues (items.map write) = items.map fun item => (write item).toValue := by
  induction items with
  | nil => rfl
  | cons item rest ih => rw [List.map_cons, Json.toValues, ih, List.map_cons]

theorem enumLabel_read (source : Source) (label : EnumLabel) :
    Yields [] (enumLabelModel.decoder source (enumLabelJson label).toValue) label := .of_ok rfl

theorem itemIssues_nil {α : Type} (start : Nat) (items : List α) :
    itemIssues (fun _ => []) start items = [] :=
  List.flatMap_eq_nil_iff.mpr fun _ _ => rfl

theorem enumeration_read (source : Source) (e : Enumeration) :
    Yields [] (enumerationModel.decoder source (enumerationJson e).toValue) e := by
  have hfields : Yields [] (Decoder.fixed enumLabelModel.decoder source
      (Json.array (e.fields.map enumLabelJson)).toValue) e.fields := by
    have hitems := yields_itemsFrom (fun label (_ : label ∈ e.fields) => enumLabel_read source label) 0
    rw [itemIssues_nil] at hitems
    rw [Json.toValue, toValues_map]
    exact hitems.trans (by rw [List.map_id'])
  exact enumerationModel.yields source
    [("name", .text e.name), ("display_name", .text e.displayName),
      ("fields", (Json.array (e.fields.map enumLabelJson)).toValue)]
    (yields_seq
      (yields_seq (yields_map (yields_required rfl (.of_ok rfl)) Enumeration.mk)
        (yields_required rfl (.of_ok rfl)))
      (yields_withDefault rfl hfields))
    fun _ hname => hname

variable {τ σ : Type}

/-- A variant reads the types that are written by `type`, with the issues of each, and its
collections are read item by item. -/
structure Variant.Reads (variant : Variant τ) (source : Source) (type : σ → Json)
    (issuesOf : σ → List Issue) (value : σ → τ) : Prop where
  types (t : σ) : Yields (issuesOf t) (variant.type source (type t).toValue) (value t)
  items {α : Type} (decoder : Decoder α) (items : List Value) :
    variant.collection decoder source (.list items) = Decoder.itemsFrom (decoder source) 0 items

namespace Variant.Reads

variable {variant : Variant τ} {source : Source} {type : σ → Json} {issuesOf : σ → List Issue}
  {value : σ → τ}

theorem collection (h : variant.Reads source type issuesOf value) {α β : Type}
    {decoder : Decoder α} {write : β → Json} {read : β → α} {of : β → List Issue}
    (each : ∀ item, Yields (of item) (decoder source (write item).toValue) (read item))
    (list : List β) :
    Yields (itemIssues of 0 list)
      (variant.collection decoder source (Json.array (list.map write)).toValue) (list.map read) := by
  rw [Json.toValue, toValues_map, h.items]
  exact yields_itemsFrom (fun item _ => each item) 0

theorem enums (h : variant.Reads source type issuesOf value) (enums : List Enumeration) :
    Yields [] (variant.collection enumerationModel.decoder source
      (Json.array (enums.map enumerationJson)).toValue) enums := by
  have hread := h.collection (fun e => enumeration_read source e) enums
  rwa [itemIssues_nil, List.map_id'] at hread

theorem column (h : variant.Reads source type issuesOf value) (owner : String)
    (a : Attribute σ) :
    Yields (Place.issues issuesOf (Place.ofAttribute owner a))
      (variant.attributeModel.decoder source (attributeJson type a).toValue)
      (SchemaOf.map.retyped value a) := by
  rw [Place.issues_ofAttribute]
  exact variant.attributeModel.yields source
    [("name", .text a.name), ("order", .int a.order), ("nullable", .bool a.nullable),
      ("type", (type a.type).toValue)]
    (yields_seq
      (yields_seq
        (yields_seq (yields_map (yields_required rfl (.of_ok rfl)) Attribute.mk)
          (yields_required rfl (.of_ok rfl)))
        (yields_withDefault rfl (.of_ok rfl)))
      (yields_required rfl (h.types a.type)))
    fun _ hname => hname

/-- Attributes are read where their field is. -/
theorem attributes (h : variant.Reads source type issuesOf value) {entries : Record}
    (field owner : String) (attributes : List (Attribute σ))
    (hfield : entries.lookup field = some (attributesJson type attributes).toValue) :
    Yields (Place.issues issuesOf (Place.ofAttributes field owner attributes))
      ((variant.attributes field).read source entries)
      (attributes.map (SchemaOf.map.retyped value)) := by
  rw [Place.ofAttributes, Place.issues_within, Place.issues_numbered]
  exact yields_withDefault hfield (h.collection (h.column owner) attributes)

theorem composite (h : variant.Reads source type issuesOf value) (t : Composite σ) :
    Yields (Place.issues issuesOf (Place.ofAttributes "attributes" t.name t.attributes))
      (variant.compositeModel.decoder source (compositeJson type t).toValue)
      ⟨t.name, t.displayName, t.attributes.map (SchemaOf.map.retyped value)⟩ := by
  exact variant.compositeModel.yields source
    [("name", .text t.name), ("display_name", .text t.displayName),
      ("attributes", (attributesJson type t.attributes).toValue)]
    (yields_seq
      (yields_seq (yields_map (yields_required rfl (.of_ok rfl)) Composite.mk)
        (yields_required rfl (.of_ok rfl)))
      (h.attributes "attributes" t.name t.attributes rfl))
    fun _ hname => hname

theorem table (h : variant.Reads source type issuesOf value) (t : Table σ) :
    Yields (Place.issues issuesOf (Place.ofAttributes "columns" t.name t.columns))
      (variant.tableModel.decoder source (tableJson type t).toValue)
      ⟨t.name, t.displayName, t.columns.map (SchemaOf.map.retyped value)⟩ := by
  exact variant.tableModel.yields source
    [("name", .text t.name), ("display_name", .text t.displayName),
      ("columns", (attributesJson type t.columns).toValue)]
    (yields_seq
      (yields_seq (yields_map (yields_required rfl (.of_ok rfl)) Table.mk)
        (yields_required rfl (.of_ok rfl)))
      (h.attributes "columns" t.name t.columns rfl))
    fun _ hname => hname

theorem routine (h : variant.Reads source type issuesOf value) (r : Routine σ) :
    Yields (Place.issues issuesOf (Place.ofRoutine r))
      (variant.routineModel.decoder source (routineJson type r).toValue)
      ⟨r.name, r.parameters.map (SchemaOf.map.retyped value), value r.returnType⟩ := by
  have hreturn : Place.issues issuesOf [([.name "return_type"], ⟨r.name, returnSlot, r.returnType⟩)] =
      (issuesOf r.returnType).map (Issue.into (.name "return_type")) := by
    rw [Place.issues, List.flatMap_singleton]
    rfl
  rw [Place.ofRoutine, Place.issues_append, hreturn]
  exact variant.routineModel.yields source
    [("name", .text r.name), ("parameters", (attributesJson type r.parameters).toValue),
      ("return_type", (type r.returnType).toValue)]
    (yields_seq
      (yields_seq (yields_map (yields_required rfl (.of_ok rfl)) Routine.mk)
        (h.attributes "parameters" r.name r.parameters rfl))
      (yields_required rfl (h.types r.returnType)))
    fun _ hname => hname

/-- A schema that is written and read has the issues of its types, in the order and at the places of
its slots. -/
theorem schema (h : variant.Reads source type issuesOf value) (s : SchemaOf σ) :
    Yields (Place.issues issuesOf s.places)
      (variant.schemaModel.decoder source (schemaJson type s).toValue) (s.map value) := by
  simp only [SchemaOf.places, Place.issues_append, Place.issues_within, Place.issues_numbered]
  exact variant.schemaModel.yields source
    [("enums", (Json.array (s.enums.map enumerationJson)).toValue),
      ("types", (Json.array (s.types.map (compositeJson type))).toValue),
      ("tables", (Json.array (s.tables.map (tableJson type))).toValue),
      ("functions", (Json.array (s.functions.map (routineJson type))).toValue)]
    (yields_seq
      (yields_seq
        (yields_seq (yields_map (yields_withDefault rfl (h.enums s.enums)) SchemaOf.mk)
          (yields_withDefault rfl (h.collection h.composite s.types)))
        (yields_withDefault rfl (h.collection h.table s.tables)))
      (yields_withDefault rfl (h.collection h.routine s.functions)))
    fun _ hname => hname

end Variant.Reads
section Types

variable {ρ : Type} {kinds : List (Kind ρ)} {kind : Kind ρ} {rest : Record}

theorem find_tag (hkind : kinds.find? (·.word == kind.word) = some kind) :
    Tag.find "kind" (kinds.map Kind.tag) (.record (("kind", .text kind.word) :: rest)) =
      .ok kind.tag := by
  have hfits : (fun other : Kind ρ => other.tag.fits (.text kind.word)) =
      fun other => other.word == kind.word := by
    funext other
    exact BEq.comm
  rw [Tag.find, List.lookup_cons_self]
  dsimp only
  rw [List.find?_map, Function.comp_def, hfits, hkind]
  rfl

/-- What is read of data of a kind, given what is read of the element there may be. -/
theorem decodeType_of_kind (source : Source)
    (hkind : kinds.find? (·.word == kind.word) = some kind) :
    decodeType kinds source (.record (("kind", .text kind.word) :: rest)) =
      ((kind.fields (Fields.given "element"
        (decodeMembers kinds source (("kind", .text kind.word) :: rest)))).readAll source
          (("kind", .text kind.word) :: rest)).under (.name kind.word) := by
  rw [decodeType, find_tag hkind]
  rfl

theorem word_read (source : Source) (word : String) :
    Yields [] (Decoder.onlyText word source (.text word)) () := by
  rw [Decoder.onlyText, Decoder.choice, List.lookup_cons_self]
  exact .of_ok rfl

theorem simple_read (kind : Kind ρ) (source : Source) {type : TypeShape ρ}
    (hkind : kinds.find? (·.word == kind.word) = some kind) (hform : kind.form = .simple type) :
    Yields [] (decodeType kinds source (.record [("kind", .text kind.word)])) type := by
  rw [decodeType_of_kind source hkind, Kind.fields, hform]
  have hread := yields_readAll
    ((fun _ => type) <$> withDefault "kind" () (Decoder.onlyText kind.word)) source
    [("kind", .text kind.word)]
    (yields_map (yields_withDefault rfl (word_read source kind.word)) _) fun _ hname => hname
  exact hread.under (.name kind.word)

theorem named_read (kind : Kind ρ) (source : Source) {reference : String → ρ}
    (hkind : kinds.find? (·.word == kind.word) = some kind) (hform : kind.form = .named reference)
    (name : String) :
    Yields [] (decodeType kinds source (.record [("kind", .text kind.word), ("name", .text name)]))
      (.reference (reference name)) := by
  rw [decodeType_of_kind source hkind, Kind.fields, hform]
  have hread := yields_readAll
    ((fun _ name => TypeShape.reference (reference name)) <$>
      withDefault "kind" () (Decoder.onlyText kind.word) <*> required "name" Decoder.text) source
    [("kind", .text kind.word), ("name", .text name)]
    (yields_seq (yields_map (yields_withDefault rfl (word_read source kind.word)) _)
      (yields_required rfl (.of_ok rfl)))
    fun _ hname => hname
  exact hread.under (.name kind.word)

theorem element_read (kind : Kind ρ) (source : Source) {v : Value} {issues : List Issue}
    {element : TypeShape ρ}
    (hkind : kinds.find? (·.word == kind.word) = some kind) (hform : kind.form = .array)
    (h : Yields issues (decodeType kinds source v) element) :
    Yields ((issues.map (Issue.into (.name "element"))).map (Issue.into (.name kind.word)))
      (decodeType kinds source (.record [("kind", .text kind.word), ("element", v)]))
      (.array element) := by
  rw [decodeType_of_kind source hkind, Kind.fields, hform]
  have helement : Yields (issues.map (Issue.into (.name "element")))
      ((Fields.given "element" (decodeMembers kinds source
        [("kind", .text kind.word), ("element", v)])).read source
          [("kind", .text kind.word), ("element", v)]) element := h.under (.name "element")
  exact (yields_readAll _ source _
    (yields_seq (yields_map (yields_withDefault rfl (word_read source kind.word)) _) helement)
    fun _ hname => hname).under (.name kind.word)

/-- The fault of a kind of type that is none of the kinds. -/
def unknownKind (kinds : List (Kind ρ)) (word : String) : Fault :=
  .unknownTag (Text.quoted "kind") word
    (Text.joined ", " (kinds.map fun kind => Text.quoted kind.word))

theorem unknown_read (source : Source) {word : String} (hkind : ∀ kind ∈ kinds, kind.word ≠ word)
    (a : TypeShape ρ) :
    Yields [⟨[], unknownKind kinds word, .record (("kind", .text word) :: rest)⟩]
      (decodeType kinds source (.record (("kind", .text word) :: rest))) a := by
  have hnone : (kinds.map Kind.tag).find? (·.fits (.text word)) = none := by
    rw [List.find?_map, Option.map_eq_none_iff, List.find?_eq_none]
    intro kind hmem hfits
    exact hkind kind hmem (beq_iff_eq.mp hfits).symm
  rw [decodeType, Tag.find, List.lookup_cons_self]
  dsimp only
  rw [hnone]
  exact congrArg Except.error (by rw [unknownKind, List.map_map]; rfl)

/-- The issues of a type, given those of what it refers to. -/
def typeIssues {σ : Type} (issuesOf : σ → List Issue) : TypeShape σ → List Issue
  | .array element =>
    ((typeIssues issuesOf element).map (Issue.into (.name "element"))).map
      (Issue.into (.name "array"))
  | .reference target => issuesOf target
  | _ => []

theorem find_simple (others : List (Kind ρ)) :
    ∀ kind ∈ simpleKinds, (simpleKinds ++ others).find? (·.word == kind.word) = some kind := by
  intro kind hmem
  simp only [simpleKinds, List.mem_cons, List.not_mem_nil, or_false] at hmem
  rcases hmem with rfl | rfl | rfl | rfl <;> rfl

/-- Types of all shapes are read if what they refer to is. -/
theorem type_read {σ : Type} {source : Source} {leaf : σ → String × String}
    {issuesOf : σ → List Issue} {value : σ → ρ} {title : String}
    (hsimple : ∀ kind ∈ simpleKinds, kinds.find? (·.word == kind.word) = some kind)
    (harray : kinds.find? (·.word == "array") = some ⟨"array", title, .array⟩)
    (hreference : ∀ target, Yields (issuesOf target)
      (decodeType kinds source (typeJson leaf (.reference target)).toValue)
      (.reference (value target)))
    (type : TypeShape σ) :
    Yields (typeIssues issuesOf type) (decodeType kinds source (typeJson leaf type).toValue)
      (type.map value) := by
  have hkind : ∀ word title (shape : TypeShape ρ), ⟨word, title, .simple shape⟩ ∈ simpleKinds →
      Yields [] (decodeType kinds source (.record [("kind", .text word)])) shape :=
    fun word title shape hmem => simple_read ⟨word, title, .simple shape⟩ source (hsimple _ hmem) rfl
  induction type with
  | boolean => exact hkind "boolean" "BooleanType" .boolean (by simp [simpleKinds])
  | number => exact hkind "number" "NumberType" .number (by simp [simpleKinds])
  | string => exact hkind "string" "StringType" .string (by simp [simpleKinds])
  | date => exact hkind "date" "DateType" .date (by simp [simpleKinds])
  | array element ih => exact element_read ⟨"array", title, .array⟩ source harray rfl ih
  | reference target => exact hreference target

end Types

theorem draft_reference (source : Source) (reference : Reference) :
    Yields [] (decodeType draftKinds source (draftTypeJson (.reference reference)).toValue)
      (.reference reference) := by
  cases reference with
  | known target =>
    cases target with
    | enum name =>
      exact named_read ⟨"enum", "EnumRef", .named (Reference.known ∘ Target.enum)⟩
        source rfl rfl name
    | composite name =>
      exact named_read ⟨"composite", "CompositeRef", .named (Reference.known ∘ Target.composite)⟩
        source rfl rfl name
  | unresolved name =>
    exact named_read ⟨"unresolved", "UnresolvedUdt", .named Reference.unresolved⟩ source rfl rfl name

/-- The issue of a reference that the model of schemas does not know. -/
def referenceIssues : Reference → List Issue
  | .known _ => []
  | .unresolved name =>
    [⟨[], unknownKind dataKinds "unresolved",
      (draftTypeJson (.reference (.unresolved name))).toValue⟩]

theorem schema_reference (source : Source) (reference : Reference) :
    Yields (referenceIssues reference)
      (decodeType dataKinds source (draftTypeJson (.reference reference)).toValue)
      (.reference (reference.settled ⟨[], []⟩)) := by
  cases reference with
  | known target =>
    cases target with
    | enum name => exact named_read ⟨"enum", "EnumRef", .named Target.enum⟩ source rfl rfl name
    | composite name =>
      exact named_read ⟨"composite", "CompositeRef", .named Target.composite⟩ source rfl rfl name
  | unresolved name => exact unknown_read source (by decide) _

theorem draftVariant_reads (source : Source) :
    draftVariant.Reads source draftTypeJson (typeIssues fun _ => []) (TypeShape.map id) where
  types := type_read (find_simple _) rfl (draft_reference source)
  items _ _ := rfl

theorem schemaVariant_reads (source : Source) :
    schemaVariant.Reads source draftTypeJson (typeIssues referenceIssues)
      (TypeShape.map (Reference.settled ⟨[], []⟩)) where
  types := type_read (find_simple _) rfl (schema_reference source)
  items _ _ := rfl

end Interchange
end SchemaClient
