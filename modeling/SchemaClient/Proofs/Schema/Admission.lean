import SchemaClient.Proofs.Schema.Exchange

/-!
# Drafts as schemas

The data of a draft are those of a schema exactly if no slot of the draft has a name still to be
looked up, under any number of arrays; then they are the data of the schema of which it is the
draft. Otherwise there is one issue for each such slot, at the place where the model of schemas
meets the unknown kind of type: behind every array around it. Schemas and drafts themselves are read
back as they were written.
-/
namespace SchemaClient

open Validation Interchange

/-- The way from a type to what it refers to: through every array. -/
def TypeShape.elementPath {ρ : Type} : TypeShape ρ → List Step
  | array element => .name "array" :: .name "element" :: element.elementPath
  | _ => []

theorem DraftType.isUnresolved_iff {type : DraftType} :
    type.isUnresolved ↔ ∃ name, type.Mentions (.unresolved name) := by
  simp only [TypeShape.mentions_iff, isUnresolved]
  split
  · next name htarget => exact iff_of_true rfl ⟨name, htarget⟩
  · next hother =>
    apply iff_of_false Bool.noConfusion
    rintro ⟨name, htarget⟩
    exact hother name htarget

theorem typeIssues_paths (type : DraftType) :
    (typeIssues referenceIssues type).map (·.path) =
      if type.isUnresolved then [type.elementPath] else [] := by
  induction type with
  | array element ih =>
    have hsame : DraftType.isUnresolved (.array element) = DraftType.isUnresolved element := rfl
    have hpaths : (typeIssues referenceIssues (.array element)).map (·.path) =
        ((typeIssues referenceIssues element).map (·.path)).map
          fun path => .name "array" :: .name "element" :: path := by
      simp only [typeIssues, List.map_map]
      rfl
    rw [hpaths, ih, hsame]
    split <;> rfl
  | reference reference => cases reference <;> rfl
  | _ => rfl

theorem typeIssues_fault {type : DraftType} {issue : Issue}
    (h : issue ∈ typeIssues referenceIssues type) :
    issue.fault = unknownKind dataKinds "unresolved" := by
  induction type generalizing issue with
  | array element ih =>
    obtain ⟨outer, houter, rfl⟩ := List.mem_map.mp h
    obtain ⟨inner, hinner, rfl⟩ := List.mem_map.mp houter
    have hfault := ih hinner
    exact hfault
  | reference reference =>
    cases reference with
    | known target => cases h
    | unresolved name => rw [List.mem_singleton.mp h]
  | _ => cases h

/-- The issues of a draft that is read as a schema. -/
def Draft.issues (d : Draft) : List Issue := Place.issues (typeIssues referenceIssues) d.places

theorem Draft.issues_paths (d : Draft) :
    d.issues.map (·.path) =
      (d.places.filter fun place => place.2.type.isUnresolved).map fun place =>
        place.1 ++ place.2.type.elementPath := by
  rw [issues, Place.issues]
  induction d.places with
  | nil => rfl
  | cons place rest ih =>
    have hplace : ((typeIssues referenceIssues place.2.type).map fun issue =>
        { issue with path := place.1 ++ issue.path }).map (·.path) =
          if place.2.type.isUnresolved then [place.1 ++ place.2.type.elementPath] else [] := by
      have hpaths := congrArg (List.map (place.1 ++ ·)) (typeIssues_paths place.2.type)
      rw [List.map_map] at hpaths ⊢
      refine hpaths.trans ?_
      split <;> rfl
    rw [List.flatMap_cons, List.map_append, hplace, ih, List.filter_cons]
    split <;> rfl

theorem Draft.issues_eq_nil_iff {d : Draft} :
    d.issues = [] ↔ ∀ slot ∈ d.slots, ∀ name, ¬ slot.type.Mentions (.unresolved name) := by
  have hpaths : d.issues = [] ↔ ∀ place ∈ d.places, ¬ place.2.type.isUnresolved := by
    rw [← List.map_eq_nil_iff (f := fun issue => issue.path), issues_paths, List.map_eq_nil_iff,
      List.filter_eq_nil_iff]
  rw [hpaths, ← d.slots_places, List.forall_mem_map]
  simp only [DraftType.isUnresolved_iff, not_exists]

/-- Types that agree slot by slot make the same schema. -/
theorem SchemaOf.map_congr {τ σ : Type} {f g : τ → σ} {s : SchemaOf τ}
    (h : ∀ slot ∈ s.slots, f slot.type = g slot.type) : s.map f = s.map g := by
  have hf : s.retype (m := Id) (fun slot => f slot.type) = pure (s.map f) :=
    retype_pure fun _ _ => rfl
  have hg : s.retype (m := Id) (fun slot => f slot.type) = pure (s.map g) :=
    retype_pure h
  exact hf.symm.trans hg

theorem DraftType.map_known_settled {type : DraftType} (names : KnownNames)
    (h : ∀ name, ¬ type.Mentions (.unresolved name)) :
    type.map (Reference.known ∘ Reference.settled names) = type := by
  induction type with
  | array element ih =>
    rw [TypeShape.map, ih fun name hmention => h name (.element hmention)]
  | reference reference =>
    cases reference with
    | known target => rfl
    | unresolved name => exact absurd .here (h name)
  | _ => rfl

/-- A draft without unresolved slots is the draft of the schema that is read of its data. -/
theorem Draft.settled_toDraft {d : Draft} {names : KnownNames}
    (h : ∀ slot ∈ d.slots, ∀ name, ¬ slot.type.Mentions (.unresolved name)) :
    Schema.toDraft (d.map (TypeShape.map (Reference.settled names))) = d := by
  have hsame : ∀ slot ∈ d.slots,
      (DataType.toDraft ∘ TypeShape.map (Reference.settled names)) slot.type = id slot.type := by
    intro slot hslot
    rw [Function.comp_apply, DataType.toDraft, TypeShape.map_map]
    exact DraftType.map_known_settled names (h slot hslot)
  rw [Schema.toDraft, SchemaOf.map_map, SchemaOf.map_congr hsame, SchemaOf.map_id]

theorem Draft.issues_fault {d : Draft} {issue : Issue} (h : issue ∈ d.issues) :
    issue.fault = unknownKind dataKinds "unresolved" := by
  obtain ⟨place, -, hissue⟩ := List.mem_flatMap.mp h
  obtain ⟨inner, hinner, rfl⟩ := List.mem_map.mp hissue
  have hfault := typeIssues_fault hinner
  exact hfault

theorem Schema.read_toJson_draft (d : Draft) :
    Schema.read d.toJson.toValue =
      if d.issues = [] then .ok (d.map (TypeShape.map (Reference.settled ⟨[], []⟩)))
      else .error ⟨"Schema", .values, d.issues⟩ := by
  have hread := (schemaVariant_reads .values).schema d
  rw [Schema.read, Model.read, Draft.toJson, hread, Draft.issues]
  split <;> rfl

/-- **No unresolved reference enters a schema.** The data of a draft are read as a schema if and
only if no slot has a name still to be looked up; the schema is then the one of which it is the
draft. If they are refused, the issues lie at the slots with such a name, one for each, in order. -/
theorem Schema.read_draft (d : Draft) :
    ((∃ s, Schema.read d.toJson.toValue = .ok s) ↔
      ∀ slot ∈ d.slots, ∀ name, ¬ slot.type.Mentions (.unresolved name)) ∧
    (∀ s, Schema.read d.toJson.toValue = .ok s → s.toDraft = d) ∧
    ∀ r, Schema.read d.toJson.toValue = .error r →
      r.issues.map (·.path) =
          ((d.places.filter fun place => place.2.type.isUnresolved).map fun place =>
            place.1 ++ place.2.type.elementPath) ∧
        ∀ issue ∈ r.issues, issue.fault = unknownKind dataKinds "unresolved" := by
  rw [Schema.read_toJson_draft]
  by_cases hnone : d.issues = []
  · have hknown := Draft.issues_eq_nil_iff.mp hnone
    rw [if_pos hnone]
    refine ⟨iff_of_true ⟨_, rfl⟩ hknown, ?_, ?_⟩
    · intro s hs
      cases hs
      exact Draft.settled_toDraft hknown
    · intro r hr
      cases hr
  · rw [if_neg hnone]
    refine ⟨iff_of_false ?_ fun hknown => hnone (Draft.issues_eq_nil_iff.mpr hknown), ?_, ?_⟩
    · rintro ⟨s, hs⟩
      cases hs
    · intro s hs
      cases hs
    · intro r hr
      cases hr
      exact ⟨d.issues_paths, fun issue hissue => Draft.issues_fault hissue⟩

theorem typeJson_map {ρ σ : Type} (f : ρ → σ) (leaf : σ → String × String) (type : TypeShape ρ) :
    typeJson leaf (type.map f) = typeJson (leaf ∘ f) type := by
  induction type with
  | array element ih => rw [TypeShape.map, typeJson, typeJson, ih]
  | _ => rfl

theorem schemaJson_map {τ σ : Type} (f : τ → σ) (type : σ → Json) (s : SchemaOf τ) :
    schemaJson type (s.map f) = schemaJson (type ∘ f) s := by
  have hattributes : ∀ attributes : List (Attribute τ),
      attributesJson type (attributes.map (SchemaOf.map.retyped f)) =
        attributesJson (type ∘ f) attributes := by
    intro attributes
    rw [attributesJson, attributesJson, List.map_map]
    rfl
  simp only [schemaJson, SchemaOf.map, List.map_map, Function.comp_def, compositeJson, tableJson,
    routineJson, hattributes]
  rfl

/-- A schema and its draft have the same data. -/
theorem Schema.toJson_toDraft (s : Schema) : s.toDraft.toJson = s.toJson := by
  have htype : draftTypeJson ∘ DataType.toDraft = dataTypeJson := by
    funext type
    exact typeJson_map Reference.known referenceKind type
  rw [Draft.toJson, toDraft, schemaJson_map, htype, toJson]

/-- The data of a draft are read as the draft. -/
theorem Draft.decode_toJson (source : Source) (d : Draft) :
    draftVariant.schemaModel.decoder source d.toJson.toValue = .ok d := by
  have htype : ∀ type : DraftType, typeIssues (fun _ => []) type = [] := by
    intro type
    induction type with
    | array element ih => rw [typeIssues, ih]; rfl
    | _ => rfl
  have hnone : Place.issues (typeIssues fun _ => []) d.places = [] := by
    rw [Place.issues, List.flatMap_eq_nil_iff]
    intro place _
    rw [htype]
    rfl
  have hmap : TypeShape.map (id : Reference → Reference) = id := funext TypeShape.map_id
  have hread := (draftVariant_reads source).schema d
  rw [hnone, hmap, SchemaOf.map_id] at hread
  exact hread.eq_ok

/-- The data of a schema are read as the schema. -/
theorem Schema.decode_toJson (source : Source) (s : Schema) :
    schemaVariant.schemaModel.decoder source s.toJson.toValue = .ok s := by
  have hnone : s.toDraft.issues = [] :=
    Draft.issues_eq_nil_iff.mpr fun _ hslot => not_mentions_of_mem_slots hslot
  have hread := (schemaVariant_reads source).schema s.toDraft
  rw [← Draft.issues, hnone, map_settled_toDraft] at hread
  rw [← toJson_toDraft]
  exact hread.eq_ok

end SchemaClient
