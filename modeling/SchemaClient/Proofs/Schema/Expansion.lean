import Mathlib.Data.Set.Finite.Basic
import Mathlib.Order.WellFoundedSet
import SchemaClient.Proofs.Schema.Resolution

/-!
# Schemas that hold what they refer to

Whoever follows the references of a resolved schema finds what they refer to, unless a draft came
with a reference that was already known and led nowhere: such a reference is kept as it is.
Composite types are taken apart into their attributes in finitely many steps. The walk that looks
for cycles goes by the last type of a name and whoever looks a type up gets the first, so this is
said of schemas in which the first type of a name refers to nothing that the last one does not.
-/
namespace SchemaClient

open SchemaClient.Cycle (Graph)

/-- What a reference leads to can be looked up. -/
def SchemaOf.Defines {τ : Type} (s : SchemaOf τ) : Target → Prop
  | .composite name => ∃ t, s.type? name = some t
  | .enum name => ∃ e, s.enum? name = some e

/-- A slot has a reference that is already known and leads nowhere. -/
def Draft.Dangles (draft : Draft) (slot : Slot DraftType) (target : Target) : Prop :=
  slot.type.Mentions (.known target) ∧ ¬ draft.Defines target

theorem SchemaOf.exists_type?_iff {τ : Type} {s : SchemaOf τ} {name : String} :
    (∃ t, s.type? name = some t) ↔ ∃ t ∈ s.types, t.name = name := by
  rw [← Option.isSome_iff_exists, type?, List.find?_isSome]
  simp only [beq_iff_eq]

theorem SchemaOf.exists_enum?_iff {τ : Type} {s : SchemaOf τ} {name : String} :
    (∃ e, s.enum? name = some e) ↔ ∃ e ∈ s.enums, e.name = name := by
  rw [← Option.isSome_iff_exists, enum?, List.find?_isSome]
  simp only [beq_iff_eq]

/-- Replacing types leaves all names as they are. -/
theorem SchemaOf.defines_map {τ σ : Type} {f : τ → σ} {s : SchemaOf τ} {target : Target} :
    (s.map f).Defines target ↔ s.Defines target := by
  cases target with
  | composite name =>
    rw [Defines, Defines, exists_type?_iff, exists_type?_iff]
    simp only [map, List.mem_map, exists_exists_and_eq_and]
  | enum name => rfl

namespace Draft

variable {draft : Draft}

/-- A name that is looked up and found is the name of something. -/
theorem defines_settled_unresolved {slot : Slot DraftType} {name : String}
    (hmention : slot.type.Mentions (.unresolved name)) (h : ¬ draft.Missing slot name) :
    draft.Defines (Reference.settled draft.knownNames (.unresolved name)) := by
  have hfound : draft.knownNames.find? name ≠ none := fun hnone =>
    h (missing_iff.mpr ⟨hmention, hnone⟩)
  rw [Reference.settled]
  split
  · next hmem => exact SchemaOf.exists_type?_iff.mpr (mem_composites.mp hmem)
  · next hnot =>
    have hmem : name ∈ draft.knownNames.enums := by
      by_contra hnone
      exact hfound (KnownNames.find?_eq_none_iff.mpr ⟨hnot, hnone⟩)
    exact SchemaOf.exists_enum?_iff.mpr (mem_enums.mp hmem)

/-- A reference of a settled slot leads nowhere exactly if it was known before and led nowhere. -/
theorem not_defines_iff {slot : Slot DraftType} (h : ∀ name, ¬ draft.Missing slot name)
    {target : Target}
    (hmention : (slot.type.map (Reference.settled draft.knownNames)).Mentions target) :
    ¬ draft.Defines target ↔ draft.Dangles slot target := by
  rw [TypeShape.mentions_iff, TypeShape.target?_map, Option.map_eq_some_iff] at hmention
  obtain ⟨reference, hreference, hsettled⟩ := hmention
  rw [← TypeShape.mentions_iff] at hreference
  constructor
  · intro hnot
    cases reference with
    | known other =>
      cases hsettled
      exact ⟨hreference, hnot⟩
    | unresolved name =>
      have hdefines := defines_settled_unresolved hreference (h name)
      rw [hsettled] at hdefines
      exact absurd hdefines hnot
  · intro hdangles
    exact hdangles.2

end Draft

namespace Schema

/-- The type of an attribute of the composite type that is found for a reference of a type. -/
def Expands (s : Schema) (type part : DataType) : Prop :=
  ∃ name t, type.Mentions (.composite name) ∧ s.type? name = some t ∧
    ∃ a ∈ t.attributes, a.type = part

/-- The last composite type of a name. -/
def lastType? (s : Schema) (name : String) : Option (Composite DataType) :=
  s.types.reverse.find? (·.name == name)

/-- Where types share a name, the first refers to no composite type that the last does not refer
to. -/
def LooksAlike (s : Schema) : Prop :=
  ∀ name first last, s.type? name = some first → s.lastType? name = some last →
    first.mentions ⊆ last.mentions

theorem lookup_mentions (types : List (Composite DataType)) (name : String) :
    (types.map fun t => (t.name, t.mentions)).lookup name =
      (types.find? (·.name == name)).map Composite.mentions := by
  induction types with
  | nil => rfl
  | cons t rest ih =>
    rw [List.map_cons, List.lookup_cons, List.find?_cons, ih]
    by_cases h : name = t.name
    · subst h
      simp
    · simp [beq_false_of_ne h, beq_false_of_ne (Ne.symm h)]

/-- The walk goes by the last type of a name. -/
theorem next_eq (s : Schema) (name : String) :
    (Graph.ofTypes s.types).next name = ((s.lastType? name).map Composite.mentions).getD [] := by
  rw [Graph.next, Graph.ofTypes, Entries.lookup_ofList, ← List.map_reverse, lookup_mentions, lastType?]

theorem exists_lastType? {s : Schema} {name : String} {first : Composite DataType}
    (h : s.type? name = some first) : ∃ last, s.lastType? name = some last := by
  obtain ⟨t, ht, hname⟩ := SchemaOf.exists_type?_iff.mp ⟨first, h⟩
  rw [← Option.isSome_iff_exists, lastType?, List.find?_isSome]
  exact ⟨t, List.mem_reverse.mpr ht, beq_iff_eq.mpr hname⟩

/-- What the first type of a name refers to, the walk follows. -/
theorem refers_of_mentions {s : Schema} (h : s.LooksAlike) {name other : String}
    {first : Composite DataType} (hfirst : s.type? name = some first)
    (hother : other ∈ first.mentions) : (Graph.ofTypes s.types).Refers name other := by
  obtain ⟨last, hlast⟩ := exists_lastType? hfirst
  rw [Graph.Refers, next_eq, hlast]
  exact h name first last hfirst hlast hother

end Schema

/-- Along the references of a graph without cycles every way ends. -/
theorem Cycle.Graph.acc_of_not_cyclic {graph : Graph} (h : ¬ graph.Cyclic) (name : String) :
    Acc (fun next name => graph.Refers name next) name := by
  -- The order in which names are reached is well-founded on the names of the graph, which are
  -- finitely many; any other name refers to nothing.
  let reached (b a : String) : Prop := Relation.TransGen graph.Refers a b
  have horder : IsStrictOrder String reached :=
    { irrefl := fun a ha => h ⟨a, ha⟩, trans := fun _ _ _ hba hcb => hcb.trans hba }
  have hnames : Set.WellFoundedOn { a | a ∈ Entries.names graph } reached :=
    (List.finite_toSet (Entries.names graph)).wellFoundedOn
  have hwell := Set.wellFoundedOn_iff.mp hnames
  induction hwell.apply name with
  | intro name _ ih =>
    apply Acc.intro
    intro next hnext
    by_cases hmem : next ∈ Entries.names graph
    · exact ih next ⟨.single hnext, hmem, mem_names_of_refers hnext⟩
    · apply Acc.intro
      intro other hother
      exact absurd (mem_names_of_refers hother) hmem

namespace Schema

variable {s : Schema}

/-- A type that refers to a composite type is taken apart in finitely many steps if that one is. -/
theorem acc_of_mentions (halike : s.LooksAlike) {name : String}
    (hname : Acc (fun next name => (Graph.ofTypes s.types).Refers name next) name) :
    ∀ type : DataType, type.Mentions (.composite name) →
      Acc (fun part type => s.Expands type part) type := by
  induction hname with
  | intro name _ ih =>
    intro type hmention
    apply Acc.intro
    rintro part ⟨other, t, hother, ht, a, ha, rfl⟩
    have hsame : name = other := by
      rw [TypeShape.mentions_iff] at hmention hother
      rw [hmention] at hother
      cases hother
      rfl
    subst hsame
    by_cases hpart : ∃ next, a.type.Mentions (.composite next)
    · obtain ⟨next, hnext⟩ := hpart
      have hrefers := refers_of_mentions halike ht (Composite.mem_mentions.mpr ⟨a, ha, hnext⟩)
      exact ih next hrefers a.type hnext
    · apply Acc.intro
      rintro _ ⟨next, _, hnext, _⟩
      exact absurd ⟨next, hnext⟩ hpart

/-- Where no cycle is found, every type is taken apart in finitely many steps. -/
theorem expands_wellFounded (halike : s.LooksAlike) (hcycle : s.cycle? = none) :
    WellFounded fun part type => s.Expands type part := by
  constructor
  intro type
  apply Acc.intro
  rintro part ⟨name, t, hname, ht, ha⟩
  have hacc := Graph.acc_of_not_cyclic (Graph.cycle?_eq_none_iff.mp hcycle) name
  exact (acc_of_mentions halike hacc type hname).inv ⟨name, t, hname, ht, ha⟩

end Schema

namespace Draft

/-- **A resolved schema holds what it refers to.** A reference of it leads nowhere exactly if it
came with the draft, in the same slot, as one that is already known and led nowhere there; and
taking types apart into the attributes of what they refer to comes to an end. -/
theorem resolve_selfContained {draft : Draft} {resolution : Resolution}
    (h : draft.resolve = .ok resolution) :
    List.Forall₂ (fun source slot => slot.owner = source.owner ∧ slot.name = source.name ∧
      ∀ target, slot.type.Mentions target →
        (¬ resolution.schema.Defines target ↔ draft.Dangles source target))
      draft.slots resolution.schema.slots ∧
    (resolution.schema.LooksAlike →
      WellFounded fun part type => resolution.schema.Expands type part) := by
  obtain ⟨hknown, hcycle, rfl⟩ := resolve_eq_ok_iff.mp h
  refine ⟨?_, fun halike => Schema.expands_wellFounded halike hcycle⟩
  dsimp only
  rw [settled, SchemaOf.slots_map, List.forall₂_map_right_iff, List.forall₂_same]
  intro source hsource
  refine ⟨rfl, rfl, fun target hmention => ?_⟩
  rw [SchemaOf.defines_map]
  exact not_defines_iff (hknown source hsource) hmention

/-- People with an address, of which there are two alike, and a table of people. -/
def households : Draft where
  enums := []
  types :=
    [⟨"person", "Person", [⟨"homes", 1, true, .array (.reference (.unresolved "address"))⟩]⟩,
      ⟨"address", "Address", [⟨"street", 1, false, .string⟩]⟩,
      ⟨"address", "Address", [⟨"city", 1, false, .string⟩]⟩]
  tables :=
    [⟨"people", "People",
      [⟨"person", 1, true, .reference (.unresolved "person")⟩,
        ⟨"address", 2, true, .reference (.known (.composite "address"))⟩]⟩]
  functions := []

theorem resolve_households : households.resolve = .ok ⟨households.settled, 2⟩ ∧
    households.settled.LooksAlike ∧
    households.settled.Defines (.composite "address") ∧
    WellFounded fun part type => households.settled.Expands type part := by
  have hresolve : households.resolve = .ok ⟨households.settled, 2⟩ := rfl
  have halike : households.settled.LooksAlike := by
    intro name first last hfirst hlast
    have hname : first.name = name := by simpa using List.find?_some hfirst
    subst hname
    have hmem : first ∈ households.settled.types := List.mem_of_find?_eq_some hfirst
    rcases List.mem_cons.mp hmem with rfl | haddress
    · cases hlast
      exact List.Subset.refl _
    · have hnone : first.mentions = [] := by
        rcases List.mem_cons.mp haddress with rfl | hlater
        · rfl
        · rw [List.mem_singleton.mp hlater]
          rfl
      rw [hnone]
      exact List.nil_subset _
  have hcontained := resolve_selfContained hresolve
  refine ⟨hresolve, halike, ⟨_, rfl⟩, hcontained.2 halike⟩

/-- A type with an attribute of a composite type that does not exist. -/
def haunted : Draft where
  enums := []
  types := [⟨"t", "T", [⟨"x", 1, false, .reference (.known (.composite "ghost"))⟩]⟩]
  tables := []
  functions := []

/-- A reference that is known already is not looked up, even if it leads nowhere. -/
theorem resolve_haunted : haunted.resolve = .ok ⟨haunted.settled, 0⟩ ∧
    (∃ slot ∈ haunted.settled.slots, slot.type.Mentions (.composite "ghost")) ∧
    haunted.settled.type? "ghost" = none := by
  refine ⟨rfl, ⟨⟨"t", "x", .reference (.composite "ghost")⟩, ?_, .here⟩, rfl⟩
  exact List.mem_singleton_self _

end Draft
end SchemaClient
