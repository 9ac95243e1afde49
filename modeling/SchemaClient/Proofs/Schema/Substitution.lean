import SchemaClient.Proofs.Schema.Simplification

/-!
# Resolution as substitution

A resolved schema is its draft once more, with a reference put in for each name that was to be
looked up, under as many arrays as the name stood under. Nothing else is touched, and the number
that a resolution gives is that of the slots where something was put in.
-/
namespace SchemaClient

namespace SchemaOf

variable {τ σ : Type} {r : τ → σ → Prop} {f : τ → σ} {s : SchemaOf τ} {t : SchemaOf σ}

/-- Where each type is related to the one that replaces it, so are the schemas. -/
theorem alike_map (h : ∀ slot ∈ s.slots, r slot.type (f slot.type)) : s.Alike r (s.map f) where
  enums := rfl
  types := List.forall₂_map_right_iff.mpr <| List.forall₂_same.mpr fun _ ht =>
    ⟨rfl, rfl, List.forall₂_map_right_iff.mpr <| List.forall₂_same.mpr fun _ ha =>
      ⟨rfl, rfl, rfl, h _ (mem_slots_of_type ht ha)⟩⟩
  tables := List.forall₂_map_right_iff.mpr <| List.forall₂_same.mpr fun _ ht =>
    ⟨rfl, rfl, List.forall₂_map_right_iff.mpr <| List.forall₂_same.mpr fun _ ha =>
      ⟨rfl, rfl, rfl, h _ (mem_slots_of_table ht ha)⟩⟩
  functions := List.forall₂_map_right_iff.mpr <| List.forall₂_same.mpr fun _ hf =>
    ⟨rfl, List.forall₂_map_right_iff.mpr <| List.forall₂_same.mpr fun _ ha =>
      ⟨rfl, rfl, rfl, h _ (mem_slots_of_function hf ha)⟩, h _ (mem_slots_of_return hf)⟩

theorem eq_map_of_forall₂ {α β : Type} {related : α → β → Prop} {g : α → β} {items : List α}
    {others : List β} (h : List.Forall₂ related items others)
    (hrelated : ∀ a b, related a b → b = g a) : others = items.map g := by
  have hmap : List.Forall₂ (· = ·) (items.map g) others :=
    List.forall₂_map_left_iff.mpr (h.imp fun a b hab => (hrelated a b hab).symm)
  rw [List.forall₂_eq_eq_eq] at hmap
  exact hmap.symm

theorem eq_retyped_of_alike (hr : ∀ a b, r a b → b = f a) {attributes : List (Attribute τ)}
    {others : List (Attribute σ)} (h : List.Forall₂ (Attribute.Alike r) attributes others) :
    others = attributes.map (map.retyped f) := by
  refine eq_map_of_forall₂ h fun a b halike => ?_
  obtain ⟨name, order, nullable, type⟩ := b
  obtain ⟨rfl, rfl, rfl, htype⟩ := halike
  have htype : type = f a.type := hr _ _ htype
  rw [htype]
  rfl

/-- A relation that leaves a type no choice leaves a schema none. -/
theorem eq_map_of_alike (hr : ∀ a b, r a b → b = f a) (h : s.Alike r t) : t = s.map f := by
  have types := eq_map_of_forall₂
    (g := fun t => (⟨t.name, t.displayName, t.attributes.map (map.retyped f)⟩ : Composite σ))
    h.types fun t u halike => by
      obtain ⟨name, displayName, attributes⟩ := u
      obtain ⟨rfl, rfl, hattributes⟩ := halike
      have hattributes : attributes = _ := eq_retyped_of_alike hr hattributes
      rw [hattributes]
  have tables := eq_map_of_forall₂
    (g := fun t => (⟨t.name, t.displayName, t.columns.map (map.retyped f)⟩ : Table σ))
    h.tables fun t u halike => by
      obtain ⟨name, displayName, columns⟩ := u
      obtain ⟨rfl, rfl, hcolumns⟩ := halike
      have hcolumns : columns = _ := eq_retyped_of_alike hr hcolumns
      rw [hcolumns]
  have functions := eq_map_of_forall₂
    (g := fun p => (⟨p.name, p.parameters.map (map.retyped f), f p.returnType⟩ : Routine σ))
    h.functions fun p q halike => by
      obtain ⟨name, parameters, returnType⟩ := q
      obtain ⟨rfl, hparameters, hreturn⟩ := halike
      have hparameters : parameters = _ := eq_retyped_of_alike hr hparameters
      have hreturn : returnType = f p.returnType := hr _ _ hreturn
      rw [hparameters, hreturn]
  obtain ⟨enums, types', tables', functions'⟩ := t
  rw [map, ← types, ← tables, ← functions, ← h.enums]

end SchemaOf

namespace Draft

/-- A type of a draft and the type that it becomes: the same one, with the same arrays, but for a
name that is to be looked up. In its place stands a reference to a composite type if the draft has
one of this name, else to an enumeration. -/
inductive Becomes (draft : Draft) : DraftType → DataType → Prop
  | boolean : Becomes draft .boolean .boolean
  | number : Becomes draft .number .number
  | string : Becomes draft .string .string
  | date : Becomes draft .date .date
  | array {element : DraftType} {element' : DataType} (h : Becomes draft element element') :
    Becomes draft (.array element) (.array element')
  | known (target : Target) : Becomes draft (.reference (.known target)) (.reference target)
  | composite {name : String} (h : ∃ t ∈ draft.types, t.name = name) :
    Becomes draft (.reference (.unresolved name)) (.reference (.composite name))
  | enum {name : String} (hother : ∀ t ∈ draft.types, t.name ≠ name)
    (h : ∃ e ∈ draft.enums, e.name = name) :
    Becomes draft (.reference (.unresolved name)) (.reference (.enum name))

variable {draft : Draft} {type : DraftType}

theorem Becomes.eq_settled {type' : DataType} (h : draft.Becomes type type') :
    type' = type.map (Reference.settled draft.knownNames) := by
  induction h with
  | array _ ih => rw [ih, TypeShape.map]
  | composite h => rw [TypeShape.map, Reference.settled, if_pos (mem_composites.mpr h)]
  | enum hother _ =>
    have hnone : ¬ _ ∈ draft.knownNames.composites := fun hmem => by
      obtain ⟨t, ht, hname⟩ := mem_composites.mp hmem
      exact hother t ht hname
    rw [TypeShape.map, Reference.settled, if_neg hnone]
  | _ => rfl

/-- What becomes of a type has no name to be looked up that is not known. -/
theorem Becomes.find?_ne_none {type' : DataType} (h : draft.Becomes type type') {name : String}
    (hmention : type.Mentions (.unresolved name)) : draft.knownNames.find? name ≠ none := by
  rw [ne_eq, KnownNames.find?_eq_none_iff, mem_composites, mem_enums]
  induction h with
  | array _ ih =>
    cases hmention with
    | element hmention => exact ih hmention
  | composite h =>
    cases hmention
    exact fun hnone => hnone.1 h
  | enum _ h =>
    cases hmention
    exact fun hnone => hnone.2 h
  | _ => cases hmention

theorem becomes_settled
    (h : ∀ name, type.Mentions (.unresolved name) → draft.knownNames.find? name ≠ none) :
    draft.Becomes type (type.map (Reference.settled draft.knownNames)) := by
  induction type with
  | boolean => exact .boolean
  | number => exact .number
  | string => exact .string
  | date => exact .date
  | array element ih => exact .array (ih fun name hmention => h name (.element hmention))
  | reference reference =>
    cases reference with
    | known target => exact .known target
    | unresolved name =>
      have hknown := h name .here
      rw [ne_eq, KnownNames.find?_eq_none_iff, mem_composites, mem_enums] at hknown
      rw [TypeShape.map, Reference.settled]
      split
      · next hmem => exact .composite (mem_composites.mp hmem)
      · next hmem =>
        rw [mem_composites] at hmem
        exact .enum (fun t ht hname => hmem ⟨t, ht, hname⟩)
          (not_not.mp fun hnone => hknown ⟨hmem, hnone⟩)

/-- **Resolution is substitution of leaves.** The outcome of a resolution is a schema with the
enumerations of the draft and with its types, tables and routines, one for one and attribute by
attribute, in which each type has become what its names stand for; beside it stands the number of
slots that left a name to be looked up. Any such schema is the outcome, unless its composite types
contain each other. -/
theorem resolve_substitutes (draft : Draft) (resolution : Resolution) :
    draft.resolve = .ok resolution ↔
      draft.Alike draft.Becomes resolution.schema ∧
        resolution.resolved = draft.unresolvedSlots.length ∧ resolution.schema.cycle? = none := by
  rw [resolve_eq_ok_iff]
  constructor
  · rintro ⟨hknown, hcycle, rfl⟩
    refine ⟨SchemaOf.alike_map fun slot hslot => becomes_settled fun name hmention hnone => ?_,
      rfl, hcycle⟩
    exact hknown slot hslot name (missing_iff.mpr ⟨hmention, hnone⟩)
  · rintro ⟨halike, hcount, hcycle⟩
    have hschema : resolution.schema = draft.settled :=
      SchemaOf.eq_map_of_alike (fun _ _ h => h.eq_settled) halike
    have hknown : draft.AllKnown := fun slot hslot name hmissing => by
      obtain ⟨hmention, hnone⟩ := missing_iff.mp hmissing
      obtain ⟨_, -, hbecomes⟩ := Success.exists_of_mem_results halike.slots.flip hslot
      exact hbecomes.type.find?_ne_none hmention hnone
    rw [hschema] at hcycle
    refine ⟨hknown, hcycle, ?_⟩
    rw [← hschema, ← hcount]

/-- A draft with an enumeration and a composite type of one name, and lists of lists of it. -/
def moodBoard : Draft where
  enums := [⟨"mood", "Mood", [⟨"glad", .zero⟩]⟩, ⟨"size", "Size", [⟨"small", .zero⟩]⟩]
  types := [⟨"mood", "Mood", [⟨"colour", 1, false, .string⟩]⟩]
  tables :=
    [⟨"boards", "Boards",
      [⟨"moods", 1, true, .array (.array (.reference (.unresolved "mood")))⟩,
        ⟨"first", 2, true, .reference (.known (.enum "mood"))⟩]⟩]
  functions := [⟨"sizes", [], .array (.reference (.unresolved "size"))⟩]

example : ∃ s, moodBoard.resolve = .ok ⟨s, 2⟩ ∧
    s.slots.map (·.type) = [.string, .array (.array (.reference (.composite "mood"))),
      .reference (.enum "mood"), .array (.reference (.enum "size"))] :=
  ⟨_, rfl, rfl⟩

end Draft
end SchemaClient
