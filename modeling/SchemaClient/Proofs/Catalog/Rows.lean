import SchemaClient.Catalog.Discovery
import SchemaClient.Proofs.Success

/-!
# Drafts row by row

A draft has one type for each type name of its catalog, one table for each table name and one
routine for each routine, in the order of the catalog. The attributes of each are those that its own
rows describe, sorted.
-/
namespace SchemaClient

open Success

/-- What a row says of an attribute, apart from whether it may be null. -/
structure TypedRow where
  name : String
  order : Int
  dataType : String
  udtName : Option String

def AttributeRow.typed (row : AttributeRow) : TypedRow :=
  ⟨row.name, row.order, row.dataType, row.udtName⟩

def ParameterRow.typed (row : ParameterRow) : TypedRow :=
  ⟨row.label, row.order, row.dataType, row.udtName⟩

namespace TypedRow

/-- The attribute that a row describes has its name, its position and the type that the rules
give. -/
structure Describes (lists : AllowLists) (row : TypedRow) (field : Attribute DraftType) : Prop where
  name : field.name = row.name
  order : field.order = row.order
  type : ∃ nullable,
    lists.typeOf? row.dataType (normalizeName row.udtName nullable).1 = some field.type

end TypedRow

theorem AllowLists.typeOf_eq_ok {lists : AllowLists} {dataType : String}
    {udtName attr : Option String} {type : DraftType} :
    lists.typeOf dataType udtName attr = .ok type ↔ lists.typeOf? dataType udtName = some type := by
  rw [typeOf]
  cases lists.typeOf? dataType udtName <;> simp

theorem AttributeRow.describes_of_attr {lists : AllowLists} {row : AttributeRow}
    {field : Attribute DraftType} (h : row.attr lists = .ok field) :
    row.typed.Describes lists field := by
  simp only [attr, bind_eq_ok, pure_eq_ok, AllowLists.typeOf_eq_ok] at h
  obtain ⟨type, htype, rfl⟩ := h
  exact ⟨rfl, rfl, row.nullable, htype⟩

theorem ParameterRow.describes_of_attr {lists : AllowLists} {row : ParameterRow}
    {field : Attribute DraftType} (h : row.attr lists = .ok field) :
    row.typed.Describes lists field := by
  simp only [attr, bind_eq_ok, pure_eq_ok, AllowLists.typeOf_eq_ok] at h
  obtain ⟨type, htype, rfl⟩ := h
  exact ⟨rfl, rfl, false, htype⟩

namespace Catalog

variable {ρ : Type} {attr : ρ → Except Problem (Attribute DraftType)} {lists : AllowLists}

/-- The attributes that the rows of one thing are read as, sorted. Both the rows of attributes and
those of parameters are read so. -/
def readSorted (attr : ρ → Except Problem (Attribute DraftType)) (rows : List ρ) :
    Except Failure (List (Attribute DraftType)) := do
  pure (sortedAttributes (← Failure.ofProblem (rows.mapM attr)))

theorem readSorted_eq_ok_iff {rows : List ρ} {fields : List (Attribute DraftType)} :
    readSorted attr rows = .ok fields ↔
      ∃ images, rows.mapM attr = .ok images ∧ sortedAttributes images = fields := by
  simp only [readSorted, bind_eq_ok, pure_eq_ok, ofProblem_eq_ok]

/-- Each attribute that is read is read from a row. -/
theorem exists_row_of_readSorted {rows : List ρ} {fields : List (Attribute DraftType)}
    (h : readSorted attr rows = .ok fields) {field : Attribute DraftType}
    (hfield : field ∈ fields) : ∃ row ∈ rows, attr row = .ok field := by
  obtain ⟨images, himages, rfl⟩ := readSorted_eq_ok_iff.mp h
  rw [sortedAttributes, List.mem_mergeSort] at hfield
  exact exists_step himages hfield

/-- Attributes are described by rows, one by each, and sorted. -/
def Described (lists : AllowLists) (rows : List TypedRow) (fields : List (Attribute DraftType)) :
    Prop :=
  ∃ image, List.Forall₂ (TypedRow.Describes lists) rows image ∧ fields = sortedAttributes image

theorem described_of_readSorted {typed : ρ → TypedRow}
    (hdescribes : ∀ row field, attr row = .ok field → (typed row).Describes lists field)
    {rows : List ρ} {fields : List (Attribute DraftType)} (h : readSorted attr rows = .ok fields) :
    Described lists (rows.map typed) fields := by
  obtain ⟨images, himages, rfl⟩ := readSorted_eq_ok_iff.mp h
  exact ⟨images, List.forall₂_map_left_iff.mpr ((mapM_eq_ok.mp himages).imp hdescribes), rfl⟩

theorem described_of_attributes {rows : List AttributeRow} {fields : List (Attribute DraftType)}
    (h : attributes lists rows = .ok fields) :
    Described lists (rows.map AttributeRow.typed) fields :=
  described_of_readSorted (fun _ _ => AttributeRow.describes_of_attr) h

theorem described_of_parameters {rows : List ParameterRow} {fields : List (Attribute DraftType)}
    (h : parameters lists rows = .ok fields) :
    Described lists (rows.map ParameterRow.typed) fields :=
  described_of_readSorted (fun _ _ => ParameterRow.describes_of_attr) h

/-- Rows that are fetched for each of several things are worked on beside the thing they belong
to. -/
theorem fetchAll_eq_ok_iff {ι α β : Type} {key : ι → String} {fetch : String → Except Failure α}
    {step : ι × α → Except Failure β} {items : List ι} {results : List β} :
    (∃ fetched, fetchAll (items.map key) fetch = .ok fetched ∧
        (items.zip fetched).mapM step = .ok results) ↔
      List.Forall₂ (fun item b => ∃ rows, fetch (key item) = .ok rows ∧ step (item, rows) = .ok b)
        items results := by
  constructor
  · rintro ⟨fetched, hfetched, hresults⟩
    have hrows := List.forall₂_map_left_iff.mp (mapM_eq_ok.mp hfetched)
    clear hfetched
    induction hrows generalizing results with
    | nil =>
      cases mapM_eq_ok.mp hresults
      exact .nil
    | cons hfetch _ ih =>
      obtain ⟨b, others, hb, hothers, rfl⟩ :=
        List.forall₂_cons_left_iff.mp (mapM_eq_ok.mp hresults)
      exact .cons ⟨_, hfetch, hb⟩ (ih (mapM_eq_ok.mpr hothers))
  · intro h
    induction h with
    | nil => exact ⟨[], rfl, rfl⟩
    | cons hfirst _ ih =>
      obtain ⟨rows, hfetch, hstep⟩ := hfirst
      obtain ⟨fetched, hfetched, hresults⟩ := ih
      refine ⟨rows :: fetched, mapM_eq_ok.mpr (.cons hfetch (mapM_eq_ok.mp hfetched)), ?_⟩
      exact mapM_eq_ok.mpr (.cons hstep (mapM_eq_ok.mp hresults))

/-- The composite types of a catalog are those of its type names, each with the attributes of its
own rows. -/
theorem compositeTypes_eq_ok_iff {catalog : Catalog} {types : List (Composite DraftType)} :
    catalog.compositeTypes lists = .ok types ↔
      ∃ names, catalog.typeNames = .ok names ∧
        List.Forall₂ (fun name t => ∃ rows, catalog.typeAttributes name = .ok rows ∧
          ∃ fields, attributes lists rows = .ok fields ∧ ⟨name, Text.pascalCase name, fields⟩ = t)
          names types := by
  simp only [compositeTypes, bind_eq_ok]
  refine exists_congr fun names => and_congr_right fun _ => ?_
  nth_rewrite 1 [← List.map_id names]
  rw [fetchAll_eq_ok_iff]
  simp only [bind_eq_ok, pure_eq_ok, id]

theorem tables_eq_ok_iff {catalog : Catalog} {tables : List (Table DraftType)} :
    catalog.tables lists = .ok tables ↔
      ∃ names, catalog.tableNames = .ok names ∧
        List.Forall₂ (fun name t => ∃ rows, catalog.tableColumns name = .ok rows ∧
          ∃ fields, attributes lists rows = .ok fields ∧ ⟨name, Text.pascalCase name, fields⟩ = t)
          names tables := by
  simp only [Catalog.tables, bind_eq_ok]
  refine exists_congr fun names => and_congr_right fun _ => ?_
  nth_rewrite 1 [← List.map_id names]
  rw [fetchAll_eq_ok_iff]
  simp only [bind_eq_ok, pure_eq_ok, id]

theorem functions_eq_ok_iff {catalog : Catalog} {functions : List (Routine DraftType)} :
    catalog.functions lists = .ok functions ↔
      ∃ routines, catalog.routines = .ok routines ∧
        List.Forall₂ (fun (routine : RoutineRow) r =>
          ∃ rows, catalog.routineParameters routine.specificName = .ok rows ∧
            ∃ fields, parameters lists rows = .ok fields ∧
              ∃ type, routine.returnType lists = .ok type ∧ ⟨routine.name, fields, type⟩ = r)
          routines functions := by
  simp only [Catalog.functions, bind_eq_ok]
  refine exists_congr fun routines => and_congr_right fun _ => ?_
  rw [fetchAll_eq_ok_iff]
  simp only [bind_eq_ok, pure_eq_ok, ofProblem_eq_ok]

theorem compositeTypes_forall₂ {catalog : Catalog} {types : List (Composite DraftType)}
    (h : catalog.compositeTypes lists = .ok types) :
    ∃ names, catalog.typeNames = .ok names ∧
      List.Forall₂ (fun name t => t.name = name ∧ ∃ rows, catalog.typeAttributes name = .ok rows ∧
        Described lists (rows.map AttributeRow.typed) t.attributes) names types := by
  obtain ⟨names, hnames, htypes⟩ := compositeTypes_eq_ok_iff.mp h
  refine ⟨names, hnames, htypes.imp ?_⟩
  rintro name t ⟨rows, hrows, fields, hfields, rfl⟩
  exact ⟨rfl, rows, hrows, described_of_attributes hfields⟩

theorem tables_forall₂ {catalog : Catalog} {tables : List (Table DraftType)}
    (h : catalog.tables lists = .ok tables) :
    ∃ names, catalog.tableNames = .ok names ∧
      List.Forall₂ (fun name t => t.name = name ∧ ∃ rows, catalog.tableColumns name = .ok rows ∧
        Described lists (rows.map AttributeRow.typed) t.columns) names tables := by
  obtain ⟨names, hnames, htables⟩ := tables_eq_ok_iff.mp h
  refine ⟨names, hnames, htables.imp ?_⟩
  rintro name t ⟨rows, hrows, fields, hfields, rfl⟩
  exact ⟨rfl, rows, hrows, described_of_attributes hfields⟩

theorem functions_forall₂ {catalog : Catalog} {functions : List (Routine DraftType)}
    (h : catalog.functions lists = .ok functions) :
    ∃ routines, catalog.routines = .ok routines ∧
      List.Forall₂ (fun (routine : RoutineRow) r => r.name = routine.name ∧
        ∃ rows, catalog.routineParameters routine.specificName = .ok rows ∧
          Described lists (rows.map ParameterRow.typed) r.parameters) routines functions := by
  obtain ⟨routines, hroutines, hfunctions⟩ := functions_eq_ok_iff.mp h
  refine ⟨routines, hroutines, hfunctions.imp ?_⟩
  rintro routine r ⟨rows, hrows, fields, hfields, type, -, rfl⟩
  exact ⟨rfl, rows, hrows, described_of_parameters hfields⟩

end Catalog
end SchemaClient
