import SchemaClient.Proofs.Schema.Resolution

/-!
# Schemas that are resolved again

A schema taken for a draft leaves no name to be looked up. Resolving it therefore gives the schema
back and counts nothing, unless its composite types contain each other in a cycle; and the schema of
a draft that was resolved has no such cycle.
-/
namespace SchemaClient

open SchemaClient.Cycle (Graph)

namespace TypeShape

variable {ρ σ τ : Type}

theorem map_map (f : ρ → σ) (g : σ → τ) (type : TypeShape ρ) :
    (type.map f).map g = type.map (g ∘ f) := by
  induction type with
  | array element ih => rw [map, map, map, ih]
  | _ => rfl

theorem map_id (type : TypeShape ρ) : type.map id = type := by
  induction type with
  | array element ih => rw [map, ih]
  | _ => rfl

end TypeShape

namespace SchemaOf

variable {ρ σ τ : Type}

theorem map_map (f : ρ → σ) (g : σ → τ) (s : SchemaOf ρ) : (s.map f).map g = s.map (g ∘ f) := by
  simp only [map, List.map_map, Function.comp_def]
  rfl

theorem map_id (s : SchemaOf ρ) : s.map id = s := by
  have hattribute : map.retyped (id : ρ → ρ) = id := rfl
  simp [map, hattribute]

end SchemaOf

namespace Schema

theorem not_mentions_toDraft (type : DataType) (name : String) :
    ¬ TypeShape.Mentions (.unresolved name) type.toDraft := by
  rw [TypeShape.mentions_iff, DataType.toDraft, TypeShape.target?_map, Option.map_eq_some_iff]
  rintro ⟨target, -, htarget⟩
  cases htarget

theorem not_mentions_of_mem_slots {s : Schema} {slot : Slot DraftType} (h : slot ∈ s.toDraft.slots)
    (name : String) : ¬ slot.type.Mentions (.unresolved name) := by
  rw [toDraft, SchemaOf.slots_map] at h
  obtain ⟨source, -, rfl⟩ := List.mem_map.mp h
  exact not_mentions_toDraft source.type name

theorem allKnown_toDraft (s : Schema) : s.toDraft.AllKnown :=
  fun _ hslot name hmissing => not_mentions_of_mem_slots hslot name hmissing.mentioned

theorem map_settled_toDraft (names : KnownNames) (s : Schema) :
    s.toDraft.map (TypeShape.map (Reference.settled names)) = s := by
  have htype : TypeShape.map (Reference.settled names) ∘ DataType.toDraft = id := by
    funext type
    exact (TypeShape.map_map Reference.known (Reference.settled names) type).trans type.map_id
  rw [toDraft, SchemaOf.map_map, htype, SchemaOf.map_id]

theorem settled_toDraft (s : Schema) : s.toDraft.settled = s := s.map_settled_toDraft _

theorem unresolvedSlots_toDraft (s : Schema) : s.toDraft.unresolvedSlots = [] := by
  rw [Draft.unresolvedSlots, List.filter_eq_nil_iff]
  intro slot hslot hunresolved
  rw [DraftType.isUnresolved] at hunresolved
  split at hunresolved
  · next name htarget =>
    exact not_mentions_of_mem_slots hslot name (TypeShape.mentions_iff.mpr htarget)
  · cases hunresolved

/-- Only a cycle stands between a schema and its being resolved to itself. -/
theorem resolve_toDraft (s : Schema) :
    s.toDraft.resolve =
      match s.cycle? with
      | some cycle => .error (.cyclicReference cycle)
      | none => .ok ⟨s, 0⟩ := by
  rw [Draft.resolve_of_allKnown s.allKnown_toDraft, settled_toDraft, unresolvedSlots_toDraft]
  cases s.cycle? <;> rfl

/-- **Resolution is a retraction.** A schema that is resolved again comes back as it was, with
nothing counted, or its composite types refer to each other in a circle, which is then reported; no
name is ever missing. The schema of a resolved draft always comes back. -/
theorem resolve_retraction :
    (∀ s : Schema,
      (s.toDraft.resolve = .ok ⟨s, 0⟩ ∧ ¬ (Graph.ofTypes s.types).Cyclic) ∨
        ∃ cycle, s.toDraft.resolve = .error (.cyclicReference cycle) ∧
          (Graph.ofTypes s.types).Circuit cycle) ∧
      ∀ (draft : Draft) (resolution : Resolution), draft.resolve = .ok resolution →
        resolution.schema.toDraft.resolve = .ok ⟨resolution.schema, 0⟩ := by
  constructor
  · intro s
    rw [resolve_toDraft]
    cases hcycle : s.cycle? with
    | none => exact .inl ⟨rfl, Graph.cycle?_eq_none_iff.mp hcycle⟩
    | some cycle => exact .inr ⟨cycle, rfl, Graph.circuit_of_cycle? hcycle⟩
  · intro draft resolution hresolution
    obtain ⟨-, hcycle, rfl⟩ := Draft.resolve_eq_ok_iff.mp hresolution
    rw [resolve_toDraft, hcycle]

end Schema

/-- A draft with two types of one name, a table of one of them and of a mood that is already known,
and a routine that returns any number of addresses. -/
def Draft.addresses : Draft where
  enums := [⟨"mood", "Mood", [⟨"glad", .zero⟩]⟩]
  types :=
    [⟨"address", "Address", [⟨"street", 1, false, .string⟩]⟩,
      ⟨"address", "Address", [⟨"street", 1, false, .string⟩]⟩]
  tables :=
    [⟨"people", "People",
      [⟨"home", 1, true, .reference (.unresolved "address")⟩,
        ⟨"mood", 2, true, .reference (.known (.enum "mood"))⟩]⟩]
  functions := [⟨"all_homes", [], .array (.reference (.unresolved "address"))⟩]

theorem Schema.resolve_addresses :
    ∃ s, Draft.addresses.resolve = .ok ⟨s, 2⟩ ∧ s.toDraft.resolve = .ok ⟨s, 0⟩ := by
  have hresolve : Draft.addresses.resolve = .ok ⟨Draft.addresses.settled, 2⟩ := rfl
  have hagain := resolve_retraction.2 Draft.addresses ⟨Draft.addresses.settled, 2⟩ hresolve
  exact ⟨Draft.addresses.settled, hresolve, hagain⟩

end SchemaClient
