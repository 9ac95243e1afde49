import SchemaClient.Proofs.Catalog.Markers
import SchemaClient.Proofs.Catalog.Rows
import SchemaClient.Proofs.Sorting

/-!
# Facts of a catalog

A draft that is read from a catalog has everything that the catalog says, once and in its order. The
attributes of a type, a table or a routine are what its own rows say, one attribute for each row,
sorted stably by their positions. So where the rows of one thing have different positions, the order
in which the catalog gives them does not matter.
-/
namespace SchemaClient

open Sorting (Ranks Stable)
open Success
open TypeNames (IsNotNull)

/-- The attribute that a row of a type or a table says: with its name, at its position, of the type
that the rules give, and without null if the row has none or its underlying type is by its name a
domain without null. -/
structure AttributeRow.Gives (lists : AllowLists) (row : AttributeRow)
    (field : Attribute DraftType) : Prop where
  name : field.name = row.name
  order : field.order = row.order
  nullable : field.nullable = true ↔
    row.nullable = true ∧ ∀ udtName, row.udtName = some udtName → ¬ IsNotNull udtName
  type : lists.typeOf? row.dataType (normalizeName row.udtName row.nullable).1 = some field.type

/-- The parameter that a row of a routine says, which never is null. One without a name is called
after its position. -/
structure ParameterRow.Gives (lists : AllowLists) (row : ParameterRow)
    (field : Attribute DraftType) : Prop where
  named : ∀ name, row.name = some name → name ≠ "" → field.name = name
  unnamed : row.name = none ∨ row.name = some "" → field.name = "arg" ++ toString row.order
  order : field.order = row.order
  nullable : field.nullable = false
  type : lists.typeOf? row.dataType (normalizeName row.udtName false).1 = some field.type

theorem dropSuffix?_eq_none_iff {suffix text : List Char} :
    dropSuffix? suffix text = none ↔ ¬ suffix <:+ text := by
  rw [dropSuffix?, ← List.isSuffixOf_iff_suffix]
  split <;> simp_all

/-- Null is allowed where it was, unless the name ends like that of a domain without null. -/
theorem normalizeName_nullable (udtName : Option String) (nullable : Bool) :
    (normalizeName udtName nullable).2 = true ↔
      nullable = true ∧ ∀ name, udtName = some name → ¬ IsNotNull name := by
  cases udtName with
  | none => simp [normalizeName]
  | some name =>
    simp only [Option.some.injEq, forall_eq', IsNotNull, ← dropSuffix?_eq_none_iff, normalizeName]
    cases dropSuffix? TypeNames.notNullSuffix name.toList <;> simp

theorem AttributeRow.attr_eq_ok_iff {lists : AllowLists} {row : AttributeRow}
    {field : Attribute DraftType} : row.attr lists = .ok field ↔ row.Gives lists field := by
  simp only [attr, bind_eq_ok, pure_eq_ok, AllowLists.typeOf_eq_ok]
  constructor
  · rintro ⟨type, htype, rfl⟩
    exact ⟨rfl, rfl, normalizeName_nullable row.udtName row.nullable, htype⟩
  · intro h
    have hnullable : (normalizeName row.udtName row.nullable).2 = field.nullable := by
      rw [Bool.eq_iff_iff, normalizeName_nullable, h.nullable]
    exact ⟨field.type, h.type, by rw [hnullable, ← h.name, ← h.order]⟩

theorem ParameterRow.label_of_named {row : ParameterRow} {name : String}
    (h : row.name = some name) (hname : name ≠ "") : row.label = name := by
  rw [label, h]
  split
  · next hnone => cases hnone
  · next hempty => exact absurd (Option.some.inj hempty) hname
  · next hsome => exact (Option.some.inj hsome).symm

theorem ParameterRow.label_of_unnamed {row : ParameterRow}
    (h : row.name = none ∨ row.name = some "") : row.label = "arg" ++ toString row.order := by
  rcases h with h | h <;> simp [label, h]

theorem ParameterRow.Gives.name {lists : AllowLists} {row : ParameterRow}
    {field : Attribute DraftType} (h : row.Gives lists field) : field.name = row.label := by
  cases hname : row.name with
  | none =>
    have hunnamed : row.name = none ∨ row.name = some "" := .inl hname
    rw [h.unnamed hunnamed, label_of_unnamed hunnamed]
  | some name =>
    by_cases hempty : name = ""
    · have hunnamed : row.name = none ∨ row.name = some "" := .inr (hempty ▸ hname)
      rw [h.unnamed hunnamed, label_of_unnamed hunnamed]
    · rw [h.named name hname hempty, label_of_named hname hempty]

theorem ParameterRow.attr_eq_ok_iff {lists : AllowLists} {row : ParameterRow}
    {field : Attribute DraftType} : row.attr lists = .ok field ↔ row.Gives lists field := by
  simp only [attr, bind_eq_ok, pure_eq_ok, AllowLists.typeOf_eq_ok]
  constructor
  · rintro ⟨type, htype, rfl⟩
    exact ⟨fun _ => label_of_named, label_of_unnamed, rfl, rfl, htype⟩
  · intro h
    exact ⟨field.type, h.type, by rw [← h.name, ← h.order, ← h.nullable]⟩

/-- An attribute may stand before another one if its position is not above the other's. -/
def Attribute.le {τ : Type} (a b : Attribute τ) : Bool := a.order ≤ b.order

theorem Attribute.ranks_le {τ : Type} : Ranks fun a b : Attribute τ => a.le b where
  trans a b c hab hbc := by
    simp only [le, decide_eq_true_eq] at hab hbc ⊢
    omega
  total a b := by
    simp only [le, Bool.or_eq_true, decide_eq_true_eq]
    omega

theorem Attribute.tied_le {τ : Type} (a b : Attribute τ) :
    Sorting.tied Attribute.le a b = decide (a.order = b.order) := by
  rw [Sorting.tied, le, le, ← Bool.decide_and, decide_eq_decide]
  omega

namespace Catalog

variable {ρ : Type} {attr : ρ → Except Problem (Attribute DraftType)} {lists : AllowLists}

/-- Attributes are what rows give, one for each of them, sorted stably by position. -/
def Gathered (gives : ρ → Attribute DraftType → Prop) (rows : List ρ)
    (fields : List (Attribute DraftType)) : Prop :=
  ∃ images, List.Forall₂ gives rows images ∧ Stable Attribute.le images fields

variable {gives : ρ → Attribute DraftType → Prop}

theorem readSorted_iff_gathered (hgives : ∀ row field, attr row = .ok field ↔ gives row field)
    {rows : List ρ} {fields : List (Attribute DraftType)} :
    readSorted attr rows = .ok fields ↔ Gathered gives rows fields := by
  rw [readSorted_eq_ok_iff]
  refine exists_congr fun images => and_congr ?_ Attribute.ranks_le.stable_iff.symm
  rw [mapM_eq_ok]
  exact ⟨fun h => h.imp fun row field => (hgives row field).mp,
    fun h => h.imp fun row field => (hgives row field).mpr⟩

theorem attributes_iff_gathered {rows : List AttributeRow} {fields : List (Attribute DraftType)} :
    attributes lists rows = .ok fields ↔ Gathered (AttributeRow.Gives lists) rows fields :=
  readSorted_iff_gathered fun _ _ => AttributeRow.attr_eq_ok_iff

theorem parameters_iff_gathered {rows : List ParameterRow} {fields : List (Attribute DraftType)} :
    parameters lists rows = .ok fields ↔ Gathered (ParameterRow.Gives lists) rows fields :=
  readSorted_iff_gathered fun _ _ => ParameterRow.attr_eq_ok_iff

/-- Rows at different positions may come in any order. -/
theorem Gathered.of_perm {order : ρ → Int}
    (horder : ∀ row field, gives row field → field.order = order row) {rows rows' : List ρ}
    {fields : List (Attribute DraftType)} (h : Gathered gives rows fields)
    (hperm : rows'.Perm rows) (distinct : (rows.map order).Nodup) :
    Gathered gives rows' fields := by
  obtain ⟨images, himages, hstable⟩ := h
  obtain ⟨images', himages', hsame⟩ := List.perm_comp_forall₂ hperm himages
  have horders : List.Forall₂ (· = ·) (rows.map order) (images.map (·.order)) := by
    rw [List.forall₂_map_left_iff, List.forall₂_map_right_iff]
    exact himages.imp fun row field hrow => (horder row field hrow).symm
  rw [List.forall₂_eq_eq_eq] at horders
  rw [horders] at distinct
  refine ⟨images', himages', hstable.of_perm Attribute.ranks_le hsame ?_⟩
  refine (List.pairwise_map.mp distinct).imp fun hne => ?_
  rw [Attribute.tied_le]
  exact decide_eq_false hne

/-- A draft has what a catalog says: a type for each type name, a table for each table name and a
routine for each routine, in the order of the catalog, with what the rows of each give. -/
structure Faithful (catalog : Catalog) (lists : AllowLists) (draft : Draft) : Prop where
  enums : ∃ rows, catalog.enumLabels = .ok rows ∧ draft.enums = groupLabels rows
  types : ∃ names, catalog.typeNames = .ok names ∧
    List.Forall₂ (fun name t => t.name = name ∧ t.displayName = Text.pascalCase name ∧
      ∃ rows, catalog.typeAttributes name = .ok rows ∧
        Gathered (AttributeRow.Gives lists) rows t.attributes) names draft.types
  tables : ∃ names, catalog.tableNames = .ok names ∧
    List.Forall₂ (fun name t => t.name = name ∧ t.displayName = Text.pascalCase name ∧
      ∃ rows, catalog.tableColumns name = .ok rows ∧
        Gathered (AttributeRow.Gives lists) rows t.columns) names draft.tables
  functions : ∃ routines, catalog.routines = .ok routines ∧
    List.Forall₂ (fun (routine : RoutineRow) r => r.name = routine.name ∧
      routine.returnType lists = .ok r.returnType ∧
      ∃ rows, catalog.routineParameters routine.specificName = .ok rows ∧
        Gathered (ParameterRow.Gives lists) rows r.parameters) routines draft.functions

variable {catalog other : Catalog} {options : DiscoveryOptions} {draft : Draft}

theorem faithful_of_draft (h : catalog.draft options = .ok draft) :
    catalog.Faithful options.udts draft := by
  simp only [Catalog.draft, enumerations, bind_eq_ok, pure_eq_ok] at h
  obtain ⟨enums, ⟨labels, hlabels, rfl⟩, types, htypes, tables, htables, functions, hfunctions,
    rfl⟩ := h
  obtain ⟨typeNames, htypeNames, htypes⟩ := compositeTypes_eq_ok_iff.mp htypes
  obtain ⟨tableNames, htableNames, htables⟩ := tables_eq_ok_iff.mp htables
  obtain ⟨routines, hroutines, hfunctions⟩ := functions_eq_ok_iff.mp hfunctions
  refine ⟨⟨labels, hlabels, rfl⟩, ⟨typeNames, htypeNames, htypes.imp ?_⟩,
    ⟨tableNames, htableNames, htables.imp ?_⟩, routines, hroutines, hfunctions.imp ?_⟩
  · rintro name t ⟨rows, hrows, fields, hfields, rfl⟩
    exact ⟨rfl, rfl, rows, hrows, attributes_iff_gathered.mp hfields⟩
  · rintro name t ⟨rows, hrows, fields, hfields, rfl⟩
    exact ⟨rfl, rfl, rows, hrows, attributes_iff_gathered.mp hfields⟩
  · rintro routine r ⟨rows, hrows, fields, hfields, type, htype, rfl⟩
    exact ⟨rfl, htype, rows, hrows, parameters_iff_gathered.mp hfields⟩

theorem Faithful.draft_ok (h : catalog.Faithful options.udts draft) :
    catalog.draft options = .ok draft := by
  obtain ⟨⟨labels, hlabels, henums⟩, ⟨typeNames, htypeNames, htypes⟩,
    ⟨tableNames, htableNames, htables⟩, routines, hroutines, hfunctions⟩ := h
  have htypes : catalog.compositeTypes options.udts = .ok draft.types := by
    refine compositeTypes_eq_ok_iff.mpr ⟨typeNames, htypeNames, htypes.imp ?_⟩
    rintro _ t ⟨rfl, hdisplay, rows, hrows, hfields⟩
    exact ⟨rows, hrows, t.attributes, attributes_iff_gathered.mpr hfields, by rw [← hdisplay]⟩
  have htables : catalog.tables options.udts = .ok draft.tables := by
    refine tables_eq_ok_iff.mpr ⟨tableNames, htableNames, htables.imp ?_⟩
    rintro _ t ⟨rfl, hdisplay, rows, hrows, hfields⟩
    exact ⟨rows, hrows, t.columns, attributes_iff_gathered.mpr hfields, by rw [← hdisplay]⟩
  have hfunctions : catalog.functions options.udts = .ok draft.functions := by
    refine functions_eq_ok_iff.mpr ⟨routines, hroutines, hfunctions.imp ?_⟩
    rintro routine r ⟨hname, htype, rows, hrows, hfields⟩
    exact ⟨rows, hrows, r.parameters, parameters_iff_gathered.mpr hfields, r.returnType, htype,
      by rw [← hname]⟩
  simp only [Catalog.draft, enumerations, bind_eq_ok, pure_eq_ok]
  exact ⟨draft.enums, ⟨labels, hlabels, henums.symm⟩, draft.types, htypes, draft.tables, htables,
    draft.functions, hfunctions, rfl⟩

/-- An answer has the same rows as another, and in the same order unless they differ in position. -/
def RowsReordered (order : ρ → Int) (answer other : Except Failure (List ρ)) : Prop :=
  other = answer ∨ ∃ rows rows', answer = .ok rows ∧ other = .ok rows' ∧ rows'.Perm rows ∧
    (rows.map order).Nodup

/-- A catalog that gives the same answers as another one, but where the rows of a type, a table or a
routine have different positions, gives them in any order. -/
structure Reordered (catalog other : Catalog) : Prop where
  enumLabels : other.enumLabels = catalog.enumLabels
  typeNames : other.typeNames = catalog.typeNames
  tableNames : other.tableNames = catalog.tableNames
  routines : other.routines = catalog.routines
  typeAttributes : ∀ name,
    RowsReordered (·.order) (catalog.typeAttributes name) (other.typeAttributes name)
  tableColumns : ∀ name,
    RowsReordered (·.order) (catalog.tableColumns name) (other.tableColumns name)
  routineParameters : ∀ name,
    RowsReordered (·.order) (catalog.routineParameters name) (other.routineParameters name)

theorem RowsReordered.gathered {order : ρ → Int}
    (horder : ∀ row field, gives row field → field.order = order row)
    {answer other : Except Failure (List ρ)} (hreordered : RowsReordered order answer other)
    {fields : List (Attribute DraftType)}
    (h : ∃ rows, answer = .ok rows ∧ Gathered gives rows fields) :
    ∃ rows, other = .ok rows ∧ Gathered gives rows fields := by
  obtain ⟨rows, hrows, hgathered⟩ := h
  rcases hreordered with rfl | ⟨rows, rows', rfl, rfl, hperm, distinct⟩
  · exact ⟨rows, hrows, hgathered⟩
  · cases hrows
    exact ⟨rows', rfl, hgathered.of_perm horder hperm distinct⟩

/-- What is faithful to a catalog is faithful to it in another order. -/
theorem Faithful.reordered (h : catalog.Faithful lists draft) (hother : Reordered catalog other) :
    other.Faithful lists draft := by
  obtain ⟨⟨labels, hlabels, henums⟩, ⟨typeNames, htypeNames, htypes⟩,
    ⟨tableNames, htableNames, htables⟩, routines, hroutines, hfunctions⟩ := h
  refine ⟨⟨labels, hother.enumLabels.trans hlabels, henums⟩,
    ⟨typeNames, hother.typeNames.trans htypeNames, htypes.imp ?_⟩,
    ⟨tableNames, hother.tableNames.trans htableNames, htables.imp ?_⟩,
    routines, hother.routines.trans hroutines, hfunctions.imp ?_⟩
  · rintro name t ⟨hname, hdisplay, hrows⟩
    exact ⟨hname, hdisplay, (hother.typeAttributes name).gathered (fun _ _ h => h.order) hrows⟩
  · rintro name t ⟨hname, hdisplay, hrows⟩
    exact ⟨hname, hdisplay, (hother.tableColumns name).gathered (fun _ _ h => h.order) hrows⟩
  · rintro routine r ⟨hname, htype, hrows⟩
    exact ⟨hname, htype,
      (hother.routineParameters routine.specificName).gathered (fun _ _ h => h.order) hrows⟩

/-- **A draft has the facts of its catalog.** A catalog that can be read has the one draft that is
faithful to it, in which no fact is lost, none comes twice and all are in order; and a catalog that
gives rows with different positions in another order has the same draft. -/
theorem draft_keeps_facts (catalog : Catalog) (options : DiscoveryOptions) (draft : Draft) :
    (catalog.draft options = .ok draft ↔ catalog.Faithful options.udts draft) ∧
      ∀ other, Reordered catalog other → catalog.draft options = .ok draft →
        other.draft options = .ok draft :=
  ⟨⟨faithful_of_draft, Faithful.draft_ok⟩,
    fun _ hother h => ((faithful_of_draft h).reordered hother).draft_ok⟩

/-- A catalog of shelves, which are a type, listed twice, and a table, and of a routine with a
parameter that has no name. The columns of the table come in their order or turned round. -/
def shelves (turned : Bool) : Catalog where
  enumLabels := .ok [⟨"wood", "oak", .zero⟩]
  typeNames := .ok ["size", "size"]
  typeAttributes _ := .ok
    [⟨"height", 2, true, "integer", some "int4"⟩,
      ⟨"width", 1, true, "integer", some "length_not_null"⟩, ⟨"depth", 2, false, "integer", none⟩]
  tableNames := .ok ["shelves"]
  tableColumns _ :=
    let columns : List AttributeRow :=
      [⟨"id", 1, false, "integer", some "int4"⟩, ⟨"size", 2, true, "USER-DEFINED", some "size"⟩,
        ⟨"woods", 3, true, "ARRAY", some "_wood"⟩]
    .ok (if turned then columns.reverse else columns)
  routines := .ok [⟨"shelves_of", "shelves_of_1", "ARRAY", some "_size"⟩]
  routineParameters _ :=
    .ok [⟨some "", 2, "text", none⟩, ⟨some "wood", 1, "USER-DEFINED", some "wood"⟩]

theorem draft_shelves : ∃ draft, (shelves false).draft ⟨.empty, "public", 4⟩ = .ok draft ∧
    (shelves false).Faithful .empty draft ∧
    (shelves true).draft ⟨.empty, "public", 4⟩ = .ok draft := by
  obtain ⟨draft, hdraft⟩ : ∃ draft, (shelves false).draft ⟨.empty, "public", 4⟩ = .ok draft :=
    exists_of_toBool (by decide +kernel)
  obtain ⟨hfaithful, hreordered⟩ := draft_keeps_facts (shelves false) ⟨.empty, "public", 4⟩ draft
  have hturned : Reordered (shelves false) (shelves true) :=
    ⟨rfl, rfl, rfl, rfl, fun _ => .inl rfl,
      fun _ => .inr ⟨_, _, rfl, rfl, List.reverse_perm _, by decide⟩, fun _ => .inl rfl⟩
  exact ⟨draft, hdraft, hfaithful.mp hdraft, hreordered _ hturned hdraft⟩

end Catalog
end SchemaClient
