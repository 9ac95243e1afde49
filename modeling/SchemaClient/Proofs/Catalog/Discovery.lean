import SchemaClient.Proofs.Catalog.Rows
import SchemaClient.Proofs.Catalog.Typing
import SchemaClient.Proofs.Schema.Resolution

/-!
# Schemas that are discovered

A catalog answers a question about a type name always in the same way, so types that it lists twice
have the same attributes. With that, a schema that is discovered refers only to what it has, and its
composite types do not contain each other in a cycle.
-/
namespace SchemaClient

open Relation (TransGen)

/-- Everything that a schema refers to is in it; a name that a composite type has is never taken for
an enumeration's. -/
structure Schema.Closed (s : Schema) : Prop where
  composite : ∀ slot ∈ s.slots, ∀ name, slot.type.Mentions (.composite name) →
    ∃ t ∈ s.types, t.name = name
  enum : ∀ slot ∈ s.slots, ∀ name, slot.type.Mentions (.enum name) →
    (∃ e ∈ s.enums, e.name = name) ∧ ∀ t ∈ s.types, t.name ≠ name

/-- Every reference of a draft is a name that is still to be looked up. -/
def Draft.NamesOnly (draft : Draft) : Prop := ∀ slot ∈ draft.slots, slot.type.NamesOnly

namespace Catalog

open Success

theorem attributes_namesOnly {lists : AllowLists} {rows : List AttributeRow}
    {fields : List (Attribute DraftType)} (h : attributes lists rows = .ok fields) :
    ∀ field ∈ fields, field.type.NamesOnly := by
  intro field hfield
  obtain ⟨row, -, hrow⟩ := exists_row_of_readSorted h hfield
  exact AttributeRow.attr_namesOnly hrow

theorem parameters_namesOnly {lists : AllowLists} {rows : List ParameterRow}
    {fields : List (Attribute DraftType)} (h : parameters lists rows = .ok fields) :
    ∀ field ∈ fields, field.type.NamesOnly := by
  intro field hfield
  obtain ⟨row, -, hrow⟩ := exists_row_of_readSorted h hfield
  exact ParameterRow.attr_namesOnly hrow

theorem compositeTypes_of_ok {catalog : Catalog} {lists : AllowLists}
    {types : List (Composite DraftType)} (h : catalog.compositeTypes lists = .ok types) :
    ∀ t ∈ types, ∃ rows, catalog.typeAttributes t.name = .ok rows ∧
      attributes lists rows = .ok t.attributes := by
  obtain ⟨names, -, hall⟩ := compositeTypes_eq_ok_iff.mp h
  intro t ht
  obtain ⟨name, -, rows, hrows, fields, hfields, rfl⟩ := exists_of_mem_results hall ht
  exact ⟨rows, hrows, hfields⟩

theorem tables_of_ok {catalog : Catalog} {lists : AllowLists} {tables : List (Table DraftType)}
    (h : catalog.tables lists = .ok tables) :
    ∀ t ∈ tables, ∃ rows, attributes lists rows = .ok t.columns := by
  obtain ⟨names, -, hall⟩ := tables_eq_ok_iff.mp h
  intro t ht
  obtain ⟨name, -, rows, -, fields, hfields, rfl⟩ := exists_of_mem_results hall ht
  exact ⟨rows, hfields⟩

theorem functions_of_ok {catalog : Catalog} {lists : AllowLists}
    {functions : List (Routine DraftType)} (h : catalog.functions lists = .ok functions) :
    ∀ r ∈ functions, (∃ rows, parameters lists rows = .ok r.parameters) ∧
      ∃ row, RoutineRow.returnType lists row = .ok r.returnType := by
  obtain ⟨routines, -, hall⟩ := functions_eq_ok_iff.mp h
  intro r hr
  obtain ⟨row, -, rows, -, fields, hfields, type, htype, rfl⟩ := exists_of_mem_results hall hr
  exact ⟨⟨rows, hfields⟩, row, htype⟩

theorem draft_namesOnly {catalog : Catalog} {options : DiscoveryOptions} {draft : Draft}
    (h : catalog.draft options = .ok draft) : draft.NamesOnly := by
  simp only [Catalog.draft, bind_eq_ok, pure_eq_ok] at h
  obtain ⟨enums, -, types, htypes, tables, htables, functions, hfunctions, rfl⟩ := h
  intro slot hslot
  simp only [SchemaOf.slots, SchemaOf.attributeSlots, List.mem_append, List.mem_flatMap,
    List.mem_map, List.mem_singleton] at hslot
  rcases hslot with (⟨t, ht, field, hfield, rfl⟩ | ⟨t, ht, field, hfield, rfl⟩) | ⟨r, hr, hslot⟩
  · obtain ⟨rows, -, hrows⟩ := compositeTypes_of_ok htypes t ht
    exact attributes_namesOnly hrows field hfield
  · obtain ⟨rows, hrows⟩ := tables_of_ok htables t ht
    exact attributes_namesOnly hrows field hfield
  · obtain ⟨⟨rows, hrows⟩, row, hreturn⟩ := functions_of_ok hfunctions r hr
    rcases hslot with ⟨field, hfield, rfl⟩ | rfl
    · exact parameters_namesOnly hrows field hfield
    · exact AllowLists.typeOf_namesOnly hreturn

theorem draft_coherent {catalog : Catalog} {options : DiscoveryOptions} {draft : Draft}
    (h : catalog.draft options = .ok draft) : draft.Coherent := by
  simp only [Catalog.draft, bind_eq_ok, pure_eq_ok] at h
  obtain ⟨enums, -, types, htypes, tables, -, functions, -, rfl⟩ := h
  intro t ht u hu hname
  obtain ⟨rows, hfetched, hfields⟩ := compositeTypes_of_ok htypes t ht
  obtain ⟨rows', hfetched', hfields'⟩ := compositeTypes_of_ok htypes u hu
  rw [hname, hfetched', Except.ok.injEq] at hfetched
  rw [hfetched, hfields, Except.ok.injEq] at hfields'
  exact hfields'

end Catalog

theorem Draft.settled_closed {draft : Draft} (hnames : draft.NamesOnly)
    (hknown : draft.AllKnown) : draft.settled.Closed := by
  have hslot : ∀ slot ∈ draft.settled.slots, ∀ target, slot.type.Mentions target →
      ∃ name, draft.knownNames.find? name ≠ none ∧
        target = Reference.settled draft.knownNames (.unresolved name) := by
    intro slot hslot target hmention
    rw [settled, SchemaOf.slots_map] at hslot
    obtain ⟨source, hsource, rfl⟩ := List.mem_map.mp hslot
    rw [TypeShape.mentions_iff, TypeShape.target?_map, Option.map_eq_some_iff] at hmention
    obtain ⟨known | name, hreference, rfl⟩ := hmention
    · exact absurd (TypeShape.mentions_iff.mpr hreference) (hnames source hsource known)
    · refine ⟨name, fun hnone => hknown source hsource name ?_, rfl⟩
      exact missing_iff.mpr ⟨TypeShape.mentions_iff.mpr hreference, hnone⟩
  have htypes : ∀ name, (∃ t ∈ draft.settled.types, t.name = name) ↔
      name ∈ draft.knownNames.composites := by
    intro name
    simp [settled, SchemaOf.map, knownNames]
  constructor
  · intro slot hmem name hmention
    obtain ⟨other, -, htarget⟩ := hslot slot hmem _ hmention
    rw [Reference.settled] at htarget
    split at htarget
    · next hcomposite => cases htarget; exact (htypes name).mpr hcomposite
    · cases htarget
  · intro slot hmem name hmention
    obtain ⟨other, hfound, htarget⟩ := hslot slot hmem _ hmention
    rw [Reference.settled] at htarget
    split at htarget
    · cases htarget
    · next hcomposite =>
      cases htarget
      refine ⟨mem_enums.mp ?_, fun t ht hname => hcomposite ((htypes name).mp ⟨t, ht, hname⟩)⟩
      by_contra henum
      exact hfound (KnownNames.find?_eq_none_iff.mpr ⟨hcomposite, henum⟩)

/-- A schema that is discovered is closed, and its composite types contain no cycle. -/
theorem Catalog.discover_closed_acyclic {catalog : Catalog} {options : DiscoveryOptions}
    {s : Schema} (h : catalog.discover options = .ok s) : s.Closed ∧ s.Acyclic := by
  simp only [discover, Success.bind_eq_ok, Success.pure_eq_ok, Success.ofProblem_eq_ok] at h
  obtain ⟨draft, hdraft, resolution, hresolution, rfl⟩ := h
  obtain ⟨hknown, hcycle, rfl⟩ := Draft.resolve_eq_ok_iff.mp hresolution
  refine ⟨Draft.settled_closed (draft_namesOnly hdraft) hknown, ?_⟩
  have hacyclic := (Draft.settled_cycle?_eq_none_iff (draft_coherent hdraft)).mp hcycle
  intro a ha
  exact hacyclic ⟨a, TransGen.mono (fun b c => Draft.settled_contains_iff.mp) a a ha⟩

/-- A catalog of people, who have any number of addresses in rows. -/
def Catalog.people : Catalog where
  enumLabels := .ok [⟨"mood", "glad", .zero⟩]
  typeNames := .ok ["person", "address"]
  typeAttributes name :=
    if name = "person" then .ok [⟨"homes", 1, true, "ARRAY", some "__address"⟩]
    else .ok [⟨"street", 1, false, "text", some "text"⟩]
  tableNames := .ok ["people"]
  tableColumns _ := .ok [⟨"person", 1, false, "USER-DEFINED", some "person"⟩]
  routines := .ok [⟨"mood_of", "mood_of_1", "USER-DEFINED", some "mood"⟩]
  routineParameters _ := .ok [⟨none, 1, "integer", some "int4"⟩]

theorem Catalog.discover_people : ∃ s, people.discover ⟨.empty, "public", 4⟩ = .ok s ∧
    s.Closed ∧ s.Acyclic := by
  obtain ⟨s, hs⟩ : ∃ s, people.discover ⟨.empty, "public", 4⟩ = .ok s :=
    Success.exists_of_toBool (by decide +kernel)
  exact ⟨s, hs, discover_closed_acyclic hs⟩

end SchemaClient
