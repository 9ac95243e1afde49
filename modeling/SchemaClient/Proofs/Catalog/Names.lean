import SchemaClient.Proofs.Catalog.Discovery
import SchemaClient.Proofs.Catalog.Markers
import SchemaClient.Proofs.Catalog.Rows

/-!
# Names of a catalog in the schema

Where a row of a catalog says by name that an attribute is of a user's own type, or an array of it,
the schema that is discovered refers to what it has under this very name. Names that start with the
mark of an array are the exception, for one mark is taken off every name: they lead to what has the
rest of the name.
-/
namespace SchemaClient

open TypeNames (IsMarked)

namespace Schema

/-- A type that refers to what a schema has under a name. -/
inductive Names (s : Schema) (name : String) : DataType → Prop where
  | composite (h : ∃ t ∈ s.types, t.name = name) : Names s name (.reference (.composite name))
  | enum (h : ∃ e ∈ s.enums, e.name = name) : Names s name (.reference (.enum name))

theorem Names.target_name {s : Schema} {name : String} {target : Target}
    (h : s.Names name (.reference target)) : target.name = name := by
  cases h <;> rfl

/-- A type names a user's own type as a row does, exactly if no marker gets in the way. -/
structure Honours (s : Schema) (lists : AllowLists) (row : TypedRow) (type : DataType) : Prop where
  single : ∀ name, lists.IsOwn name → row.dataType = TypeNames.userDefined →
    row.udtName = some name → (s.Names name type ↔ ¬ IsMarked name)
  elements : ∀ name, lists.IsOwn name → row.dataType = TypeNames.array →
    row.udtName = some ("_" ++ name) →
    ((∃ element, type = .array element ∧ s.Names name element) ↔
      ¬ IsMarked name ∧ name ≠ "not_null")

/-- Attributes stand for rows, one for each of them in some order, under its name and at its
position, and honour the names of types in it. -/
def Shows (s : Schema) (lists : AllowLists) (rows : List TypedRow)
    (attributes : List (Attribute DataType)) : Prop :=
  ∃ image, image.Perm attributes ∧
    List.Forall₂ (fun row a => a.name = row.name ∧ a.order = row.order ∧
      s.Honours lists row a.type) rows image

end Schema

namespace Draft

variable {draft : Draft} {type : DraftType} {name : String}

theorem exists_type_settled_iff :
    (∃ t ∈ draft.settled.types, t.name = name) ↔ ∃ t ∈ draft.types, t.name = name := by
  simp [settled, SchemaOf.map]

/-- In a settled schema a type names what the draft's type leaves to be looked up. -/
theorem names_settled_iff (hnames : type.NamesOnly)
    (hknown : ∀ name, type.Mentions (.unresolved name) → draft.knownNames.find? name ≠ none) :
    draft.settled.Names name (type.map (Reference.settled draft.knownNames)) ↔
      type = .reference (.unresolved name) := by
  constructor
  · intro h
    generalize hresolved : type.map (Reference.settled draft.knownNames) = resolved at h
    cases type with
    | reference target =>
      cases target with
      | known target => exact absurd .here (hnames target)
      | unresolved other =>
        rw [TypeShape.map, Reference.settled] at hresolved
        split at hresolved <;> subst hresolved <;> cases h <;> rfl
    | _ => cases hresolved; cases h
  · rintro rfl
    rw [TypeShape.map, Reference.settled]
    split
    · next hcomposite =>
      exact .composite (exists_type_settled_iff.mpr (mem_composites.mp hcomposite))
    · next hcomposite =>
      refine .enum (mem_enums.mp ?_)
      by_contra henum
      exact hknown name .here (KnownNames.find?_eq_none_iff.mpr ⟨hcomposite, henum⟩)

theorem names_element_settled_iff (hnames : type.NamesOnly)
    (hknown : ∀ name, type.Mentions (.unresolved name) → draft.knownNames.find? name ≠ none) :
    (∃ element, type.map (Reference.settled draft.knownNames) = .array element ∧
      draft.settled.Names name element) ↔ type = .array (.reference (.unresolved name)) := by
  constructor
  · rintro ⟨element', helement, h⟩
    cases type with
    | array element =>
      cases helement
      have hitems : DraftType.NamesOnly element :=
        fun target hmention => hnames target (.element hmention)
      rw [(names_settled_iff hitems fun name hmention => hknown name (.element hmention)).mp h]
    | _ => cases helement
  · rintro rfl
    refine ⟨_, rfl, (names_settled_iff (DraftType.namesOnly_unresolved name) ?_).mpr rfl⟩
    exact fun other hmention => hknown other (.element hmention)

theorem AllKnown.find?_ne_none (h : draft.AllKnown) {slot : Slot DraftType}
    (hslot : slot ∈ draft.slots) (name : String)
    (hmention : slot.type.Mentions (.unresolved name)) :
    draft.knownNames.find? name ≠ none :=
  fun hnone => h slot hslot name (missing_iff.mpr ⟨hmention, hnone⟩)

/-- The type that the rules give for a row honours the names in it once it is resolved. -/
theorem honours_settled {lists : AllowLists} (hsingle : lists.Lacks TypeNames.userDefined)
    (harray : lists.Lacks TypeNames.array) {row : TypedRow} {nullable : Bool}
    (h : lists.typeOf? row.dataType (normalizeName row.udtName nullable).1 = some type)
    (hknown : ∀ name, type.Mentions (.unresolved name) → draft.knownNames.find? name ≠ none) :
    draft.settled.Honours lists row (type.map (Reference.settled draft.knownNames)) := by
  have hnames := AllowLists.typeOf?_namesOnly h
  constructor
  · intro name hown hdata hudt
    rw [hdata, hudt] at h
    exact (names_settled_iff hnames hknown).trans (AllowLists.typeOf?_single hsingle hown h)
  · intro name hown hdata hudt
    rw [hdata, hudt] at h
    exact (names_element_settled_iff hnames hknown).trans
      (AllowLists.typeOf?_elements harray hown h)

/-- Attributes that rows describe show them once they are resolved. -/
theorem shows_settled {lists : AllowLists} (hsingle : lists.Lacks TypeNames.userDefined)
    (harray : lists.Lacks TypeNames.array) {rows : List TypedRow}
    {fields : List (Attribute DraftType)} (h : Catalog.Described lists rows fields)
    (hknown : ∀ field ∈ fields, ∀ name, field.type.Mentions (.unresolved name) →
      draft.knownNames.find? name ≠ none) :
    draft.settled.Shows lists rows
      (fields.map (SchemaOf.map.retyped (TypeShape.map (Reference.settled draft.knownNames)))) := by
  obtain ⟨image, himage, rfl⟩ := h
  have hperm : (sortedAttributes image).Perm image := List.mergeSort_perm image _
  refine ⟨_, hperm.symm.map _,
    List.forall₂_map_right_iff.mpr ((Success.forall₂_mem_results himage).imp ?_)⟩
  rintro row field ⟨hmem, hdescribes⟩
  obtain ⟨nullable, htype⟩ := hdescribes.type
  exact ⟨hdescribes.name, hdescribes.order,
    honours_settled hsingle harray htype (hknown field (hperm.mem_iff.mpr hmem))⟩

end Draft

namespace Catalog

open Success

/-- **Names are honoured end to end.** If no list has the raw type of user-defined types or that of
arrays, a discovered schema has, in the order of the catalog, a composite type for each type name, a
table for each table name and a routine for each routine, and their attributes stand for their rows:
where a row names a user's own type, or an array of one, the attribute refers to what has this name.
Only a name that starts with the mark of an array is not honoured, and, in an array, the one that
together with the mark is the ending of a domain without null. -/
theorem discover_honours_names {catalog : Catalog} {options : DiscoveryOptions} {s : Schema}
    (h : catalog.discover options = .ok s) (hsingle : options.udts.Lacks TypeNames.userDefined)
    (harray : options.udts.Lacks TypeNames.array) :
    (∃ names, catalog.typeNames = .ok names ∧
      List.Forall₂ (fun name t => t.name = name ∧ ∃ rows, catalog.typeAttributes name = .ok rows ∧
        s.Shows options.udts (rows.map AttributeRow.typed) t.attributes) names s.types) ∧
    (∃ names, catalog.tableNames = .ok names ∧
      List.Forall₂ (fun name t => t.name = name ∧ ∃ rows, catalog.tableColumns name = .ok rows ∧
        s.Shows options.udts (rows.map AttributeRow.typed) t.columns) names s.tables) ∧
    ∃ routines, catalog.routines = .ok routines ∧
      List.Forall₂ (fun (routine : RoutineRow) f => f.name = routine.name ∧
        ∃ rows, catalog.routineParameters routine.specificName = .ok rows ∧
          s.Shows options.udts (rows.map ParameterRow.typed) f.parameters) routines s.functions := by
  simp only [discover, draft, bind_eq_ok, pure_eq_ok, ofProblem_eq_ok] at h
  obtain ⟨draft, ⟨enums, -, types, htypes, tables, htables, functions, hfunctions, rfl⟩,
    resolution, hresolution, rfl⟩ := h
  obtain ⟨hknown, -, rfl⟩ := Draft.resolve_eq_ok_iff.mp hresolution
  obtain ⟨typeNames, htypeNames, htypes⟩ := compositeTypes_forall₂ htypes
  obtain ⟨tableNames, htableNames, htables⟩ := tables_forall₂ htables
  obtain ⟨routines, hroutines, hfunctions⟩ := functions_forall₂ hfunctions
  refine ⟨⟨typeNames, htypeNames, ?_⟩, ⟨tableNames, htableNames, ?_⟩, routines, hroutines, ?_⟩
  · refine List.forall₂_map_right_iff.mpr ((forall₂_mem_results htypes).imp ?_)
    rintro name t ⟨ht, hname, rows, hrows, hfields⟩
    exact ⟨hname, rows, hrows, Draft.shows_settled hsingle harray hfields fun field hfield =>
      hknown.find?_ne_none (SchemaOf.mem_slots_of_type ht hfield)⟩
  · refine List.forall₂_map_right_iff.mpr ((forall₂_mem_results htables).imp ?_)
    rintro name t ⟨ht, hname, rows, hrows, hfields⟩
    exact ⟨hname, rows, hrows, Draft.shows_settled hsingle harray hfields fun field hfield =>
      hknown.find?_ne_none (SchemaOf.mem_slots_of_table ht hfield)⟩
  · refine List.forall₂_map_right_iff.mpr ((forall₂_mem_results hfunctions).imp ?_)
    rintro routine r ⟨hr, hname, rows, hrows, hfields⟩
    exact ⟨hname, rows, hrows, Draft.shows_settled hsingle harray hfields fun field hfield =>
      hknown.find?_ne_none (SchemaOf.mem_slots_of_function hr hfield)⟩

/-- A catalog with two moods, of which one is named like an array of the other, and with addresses;
a table of each. -/
def moods : Catalog where
  enumLabels := .ok [⟨"mood", "glad", .zero⟩, ⟨"_mood", "sad", .zero⟩]
  typeNames := .ok ["address"]
  typeAttributes _ := .ok [⟨"street", 1, false, "text", some "text"⟩]
  tableNames := .ok ["homes", "moods", "feelings"]
  tableColumns name :=
    if name = "homes" then .ok [⟨"all", 1, true, "ARRAY", some "_address"⟩]
    else if name = "moods" then .ok [⟨"mood", 1, false, "USER-DEFINED", some "mood"⟩]
    else .ok [⟨"feeling", 1, true, "USER-DEFINED", some "_mood"⟩]
  routines := .ok [⟨"moods_of", "moods_of_1", "ARRAY", some "_mood"⟩]
  routineParameters _ := .ok [⟨none, 1, "USER-DEFINED", some "address"⟩]

/-- The tables of that catalog: feelings are moods too. -/
def moodTables : List (Table DataType) :=
  [⟨"homes", "Homes", [⟨"all", 1, true, .array (.reference (.composite "address"))⟩]⟩,
    ⟨"moods", "Moods", [⟨"mood", 1, false, .reference (.enum "mood")⟩]⟩,
    ⟨"feelings", "Feelings", [⟨"feeling", 1, true, .reference (.enum "mood")⟩]⟩]

theorem tables_moods : (moods.discover ⟨.empty, "public", 4⟩).toOption.map (·.tables) =
    some moodTables := by
  decide +kernel

theorem lacks_empty (name : String) : AllowLists.empty.Lacks name :=
  ⟨List.not_mem_nil, List.not_mem_nil⟩

theorem discover_moods : ∃ s, moods.discover ⟨.empty, "public", 4⟩ = .ok s ∧ s.tables = moodTables ∧
    ∃ names, moods.tableNames = .ok names ∧
      List.Forall₂ (fun name t => t.name = name ∧ ∃ rows, moods.tableColumns name = .ok rows ∧
        s.Shows .empty (rows.map AttributeRow.typed) t.columns) names s.tables := by
  obtain ⟨s, hs⟩ : ∃ s, moods.discover ⟨.empty, "public", 4⟩ = .ok s :=
    exists_of_toBool (by decide +kernel)
  have htables := tables_moods
  rw [hs] at htables
  have hnames := discover_honours_names hs (lacks_empty TypeNames.userDefined)
    (lacks_empty TypeNames.array)
  exact ⟨s, hs, Option.some.inj htables, hnames.2.1⟩

/-- The enumeration whose name starts with the mark of an array is a user's own type, and a column
is of it; but the schema has the other enumeration there. -/
theorem discover_otherMood :
    (AllowLists.empty.IsOwn "_mood" ∧ AllowLists.empty.Lacks TypeNames.userDefined ∧
      AllowLists.empty.Lacks TypeNames.array) ∧
    (∃ labels, moods.enumLabels = .ok labels ∧ "_mood" ∈ labels.map (·.enumName)) ∧
    moods.tableColumns "feelings" = .ok [⟨"feeling", 1, true, TypeNames.userDefined, some "_mood"⟩] ∧
    ∃ s, moods.discover ⟨.empty, "public", 4⟩ = .ok s ∧
      ⟨"feelings", "Feelings", [⟨"feeling", 1, true, .reference (.enum "mood")⟩]⟩ ∈ s.tables ∧
      ¬ s.Names "_mood" (.reference (.enum "mood")) := by
  obtain ⟨s, hs⟩ : ∃ s, moods.discover ⟨.empty, "public", 4⟩ = .ok s :=
    exists_of_toBool (by decide +kernel)
  have htables := tables_moods
  rw [hs] at htables
  have hmoods : s.tables = moodTables := Option.some.inj htables
  have hown : AllowLists.empty.IsOwn "_mood" := by
    refine ⟨by decide, lacks_empty _, ?_⟩
    rw [TypeNames.IsNotNull]
    decide
  have hlabels : ∃ labels, moods.enumLabels = .ok labels ∧ "_mood" ∈ labels.map (·.enumName) :=
    ⟨_, rfl, by decide⟩
  refine ⟨⟨hown, lacks_empty _, lacks_empty _⟩, hlabels, rfl, s, hs, ?_, fun hnames => ?_⟩
  · rw [hmoods]
    decide
  · exact absurd hnames.target_name (by decide)

end Catalog
end SchemaClient
