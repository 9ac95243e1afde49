import SchemaClient.Proofs.Schema.Resolution
import SchemaClient.Proofs.Success

/-!
# Schemas with simpler types

Two schemas are alike if they differ at most in the types of their attributes. Where one part of a
type is taken for a number or a text, the type refers to nothing it did not refer to before; so a
draft that can be resolved can still be resolved with simpler types, to a schema with simpler types.
-/
namespace SchemaClient

open Relation (TransGen)

namespace TypeShape

variable {ρ σ : Type}

/-- The second type is the first one, or the first one with one part taken for a number or a text,
under any number of arrays. A flag is never taken for anything else, and a number never for a
text. -/
inductive Simplified : TypeShape ρ → TypeShape ρ → Prop
  | same (type : TypeShape ρ) : Simplified type type
  | number {type : TypeShape ρ} (noFlag : type ≠ .boolean) : Simplified type .number
  | text {type : TypeShape ρ} (noFlag : type ≠ .boolean) (noNumber : type ≠ .number) :
      Simplified type .string
  | element {first second : TypeShape ρ} :
      Simplified first second → Simplified (.array first) (.array second)

/-- A simpler type refers to nothing new. -/
theorem Simplified.mentions {first second : TypeShape ρ} (h : first.Simplified second) {target : ρ}
    (hmention : second.Mentions target) : first.Mentions target := by
  induction h with
  | same => exact hmention
  | number => cases hmention
  | text => cases hmention
  | element _ ih =>
    cases hmention with
    | element hmention => exact .element (ih hmention)

theorem map_eq_boolean {f : ρ → σ} {type : TypeShape ρ} :
    type.map f = .boolean ↔ type = .boolean := by
  cases type <;> simp [map]

theorem map_eq_number {f : ρ → σ} {type : TypeShape ρ} :
    type.map f = .number ↔ type = .number := by
  cases type <;> simp [map]

theorem Simplified.map (f : ρ → σ) {first second : TypeShape ρ} (h : first.Simplified second) :
    (first.map f).Simplified (second.map f) := by
  induction h with
  | same type => exact .same _
  | number noFlag => exact .number (mt map_eq_boolean.mp noFlag)
  | text noFlag noNumber =>
    exact .text (mt map_eq_boolean.mp noFlag) (mt map_eq_number.mp noNumber)
  | element _ ih => exact .element ih

end TypeShape

section Alike

variable {τ σ : Type}

/-- One attribute is the other one with a type that is related to its type. -/
structure Attribute.Alike (r : τ → σ → Prop) (a : Attribute τ) (b : Attribute σ) : Prop where
  name : b.name = a.name
  order : b.order = a.order
  nullable : b.nullable = a.nullable
  type : r a.type b.type

structure Composite.Alike (r : τ → σ → Prop) (t : Composite τ) (u : Composite σ) : Prop where
  name : u.name = t.name
  displayName : u.displayName = t.displayName
  attributes : List.Forall₂ (Attribute.Alike r) t.attributes u.attributes

structure Table.Alike (r : τ → σ → Prop) (t : Table τ) (u : Table σ) : Prop where
  name : u.name = t.name
  displayName : u.displayName = t.displayName
  columns : List.Forall₂ (Attribute.Alike r) t.columns u.columns

structure Routine.Alike (r : τ → σ → Prop) (f : Routine τ) (g : Routine σ) : Prop where
  name : g.name = f.name
  parameters : List.Forall₂ (Attribute.Alike r) f.parameters g.parameters
  returnType : r f.returnType g.returnType

/-- One schema is the other one with types that are related to its types, each in its place. -/
structure SchemaOf.Alike (r : τ → σ → Prop) (s : SchemaOf τ) (t : SchemaOf σ) : Prop where
  enums : t.enums = s.enums
  types : List.Forall₂ (Composite.Alike r) s.types t.types
  tables : List.Forall₂ (Table.Alike r) s.tables t.tables
  functions : List.Forall₂ (Routine.Alike r) s.functions t.functions

structure Slot.Alike (r : τ → σ → Prop) (first : Slot τ) (second : Slot σ) : Prop where
  owner : second.owner = first.owner
  name : second.name = first.name
  type : r first.type second.type

variable {r : τ → σ → Prop}

theorem SchemaOf.attributeSlots_alike {owner : String} {attributes : List (Attribute τ)}
    {others : List (Attribute σ)} (h : List.Forall₂ (Attribute.Alike r) attributes others) :
    List.Forall₂ (Slot.Alike r) (attributeSlots owner attributes) (attributeSlots owner others) :=
  List.rel_map (fun _ _ halike => ⟨rfl, halike.name, halike.type⟩) h

/-- Schemas that are alike have their slots in the same places. -/
theorem SchemaOf.Alike.slots {s : SchemaOf τ} {t : SchemaOf σ} (h : s.Alike r t) :
    List.Forall₂ (Slot.Alike r) s.slots t.slots := by
  refine List.rel_append (List.rel_append ?_ ?_) ?_
  · refine List.rel_flatMap h.types fun first second halike => ?_
    rw [halike.name]
    exact attributeSlots_alike halike.attributes
  · refine List.rel_flatMap h.tables fun first second halike => ?_
    rw [halike.name]
    exact attributeSlots_alike halike.columns
  · refine List.rel_flatMap h.functions fun first second halike => ?_
    rw [halike.name]
    exact List.rel_append (attributeSlots_alike halike.parameters)
      (.cons ⟨rfl, rfl, halike.returnType⟩ .nil)

variable {τ' σ' : Type} {r' : τ' → σ' → Prop} {f : τ → τ'} {g : σ → σ'}

theorem SchemaOf.retyped_alike (hmap : ∀ first second, r first second → r' (f first) (g second))
    {attributes : List (Attribute τ)} {others : List (Attribute σ)}
    (h : List.Forall₂ (Attribute.Alike r) attributes others) :
    List.Forall₂ (Attribute.Alike r') (attributes.map (SchemaOf.map.retyped f))
      (others.map (SchemaOf.map.retyped g)) :=
  List.rel_map (fun _ _ halike =>
    ⟨halike.name, halike.order, halike.nullable, hmap _ _ halike.type⟩) h

theorem SchemaOf.Alike.map {s : SchemaOf τ} {t : SchemaOf σ} (h : s.Alike r t)
    (hmap : ∀ first second, r first second → r' (f first) (g second)) :
    (s.map f).Alike r' (t.map g) where
  enums := h.enums
  types := List.rel_map (fun _ _ halike =>
    ⟨halike.name, halike.displayName, retyped_alike hmap halike.attributes⟩) h.types
  tables := List.rel_map (fun _ _ halike =>
    ⟨halike.name, halike.displayName, retyped_alike hmap halike.columns⟩) h.tables
  functions := List.rel_map (fun _ _ halike =>
    ⟨halike.name, retyped_alike hmap halike.parameters, hmap _ _ halike.returnType⟩) h.functions

end Alike

namespace Draft

open TypeShape (Simplified)

variable {draft simpler : Draft}

theorem knownNames_of_alike (h : draft.Alike Simplified simpler) :
    simpler.knownNames = draft.knownNames := by
  have htypes : draft.types.map (·.name) = simpler.types.map (·.name) := by
    refine List.forall₂_eq_eq_eq ▸ List.rel_map ?_ h.types
    exact fun _ _ halike => halike.name.symm
  rw [knownNames, knownNames, htypes, h.enums]

/-- Simpler types leave no name that was not left before. -/
theorem allKnown_of_alike (h : draft.Alike Simplified simpler) (hknown : draft.AllKnown) :
    simpler.AllKnown := by
  intro second hsecond name hmissing
  obtain ⟨first, hfirst, halike⟩ := Success.exists_of_mem_results h.slots hsecond
  obtain ⟨hmention, hnone⟩ := missing_iff.mp hmissing
  rw [knownNames_of_alike h] at hnone
  exact hknown first hfirst name (missing_iff.mpr ⟨halike.type.mentions hmention, hnone⟩)

/-- With simpler types, composite types contain at most what they contained before. -/
theorem contains_of_alike (h : draft.Alike Simplified simpler) {a b : String}
    (hcontains : simpler.Contains a b) : draft.Contains a b := by
  obtain ⟨u, hu, rfl, second, hsecond, hmention⟩ := hcontains
  obtain ⟨t, ht, htype⟩ := Success.exists_of_mem_results h.types hu
  obtain ⟨first, hfirst, hfield⟩ := Success.exists_of_mem_results htype.attributes hsecond
  refine ⟨t, ht, htype.name.symm, first, hfirst, ?_⟩
  rcases hmention with hmention | ⟨hmention, hcomposite⟩
  · exact .inl (hfield.type.mentions hmention)
  · refine .inr ⟨hfield.type.mentions hmention, ?_⟩
    rw [← mem_composites, knownNames_of_alike h] at hcomposite
    exact mem_composites.mp hcomposite

theorem cyclic_of_alike (h : draft.Alike Simplified simpler) (hcyclic : simpler.Cyclic) :
    draft.Cyclic := by
  obtain ⟨a, ha⟩ := hcyclic
  exact ⟨a, TransGen.mono (fun _ _ => contains_of_alike h) _ _ ha⟩

theorem settled_alike (h : draft.Alike Simplified simpler) :
    draft.settled.Alike Simplified simpler.settled := by
  rw [settled, settled, knownNames_of_alike h]
  exact h.map fun _ _ hsimplified => hsimplified.map _

/-- A draft that can be resolved can be resolved with simpler types too, to a schema with simpler
types. -/
theorem resolve_of_alike (h : draft.Alike Simplified simpler) (hcoherent : draft.Coherent)
    (hsimpler : simpler.Coherent) {resolution : Resolution}
    (hresolve : draft.resolve = .ok resolution) :
    ∃ other, simpler.resolve = .ok other ∧ resolution.schema.Alike Simplified other.schema := by
  obtain ⟨hknown, hcycle, rfl⟩ := resolve_eq_ok_iff.mp hresolve
  have hacyclic : ¬ simpler.Cyclic := fun hcyclic =>
    (settled_cycle?_eq_none_iff hcoherent).mp hcycle (cyclic_of_alike h hcyclic)
  refine ⟨_, resolve_eq_ok_iff.mpr ⟨allKnown_of_alike h hknown, ?_, rfl⟩, settled_alike h⟩
  exact (settled_cycle?_eq_none_iff hsimpler).mpr hacyclic

end Draft
end SchemaClient
