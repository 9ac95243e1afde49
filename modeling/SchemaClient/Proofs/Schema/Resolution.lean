import SchemaClient.Proofs.Schema.Cycle
import SchemaClient.Proofs.Schema.Slots
import SchemaClient.Schema.Resolution

/-!
# What a resolution answers

The first slot that leaves an unknown name stops a resolution. Without one, each reference is
replaced by what it stands for, and the outcome depends only on whether the composite types, as the
draft has them, contain each other in a cycle.
-/
namespace SchemaClient

open Relation (TransGen)

/-- What a reference stands for, if its name is one of those known. -/
def Reference.settled (names : KnownNames) : Reference → Target
  | .known target => target
  | .unresolved name => if name ∈ names.composites then .composite name else .enum name

namespace Schema

/-- A composite type named `a` has an attribute that refers to the composite type named `b`. -/
def Contains (s : Schema) (a b : String) : Prop :=
  ∃ t ∈ s.types, t.name = a ∧
    ∃ field ∈ t.attributes, field.type.Mentions (.composite b)

/-- No composite type contains itself, directly or through others. -/
def Acyclic (s : Schema) : Prop := ∀ a, ¬ TransGen s.Contains a a

end Schema

namespace Draft

/-- A slot leaves a name to be looked up that neither a composite type nor an enumeration has. -/
structure Missing (draft : Draft) (slot : Slot DraftType) (name : String) : Prop where
  mentioned : slot.type.Mentions (.unresolved name)
  noComposite : ∀ t ∈ draft.types, t.name ≠ name
  noEnum : ∀ e ∈ draft.enums, e.name ≠ name

/-- The first slot that leaves an unknown name, and the name. -/
def FirstMissing (draft : Draft) (slot : Slot DraftType) (name : String) : Prop :=
  draft.Missing slot name ∧ ∃ before after, draft.slots = before ++ slot :: after ∧
    ∀ earlier ∈ before, ∀ other, ¬ draft.Missing earlier other

/-- No slot leaves an unknown name. -/
def AllKnown (draft : Draft) : Prop := ∀ slot ∈ draft.slots, ∀ name, ¬ draft.Missing slot name

/-- A composite type named `a` has an attribute that refers to the composite type named `b`, by a
reference that is known or by a name that is to be looked up. -/
def Contains (draft : Draft) (a b : String) : Prop :=
  ∃ t ∈ draft.types, t.name = a ∧ ∃ field ∈ t.attributes,
    field.type.Mentions (.known (.composite b)) ∨
      field.type.Mentions (.unresolved b) ∧ ∃ u ∈ draft.types, u.name = b

def Cyclic (draft : Draft) : Prop := ∃ a, TransGen draft.Contains a a

/-- The slots that leave a name to be looked up. -/
def unresolvedSlots (draft : Draft) : List (Slot DraftType) :=
  draft.slots.filter fun slot => slot.type.isUnresolved

/-- The schema in which each reference of the draft is what it stands for. -/
def settled (draft : Draft) : Schema :=
  draft.map (TypeShape.map (Reference.settled draft.knownNames))

end Draft

theorem Draft.mem_composites {draft : Draft} {name : String} :
    name ∈ draft.knownNames.composites ↔ ∃ t ∈ draft.types, t.name = name := by
  simp [knownNames]

theorem Draft.mem_enums {draft : Draft} {name : String} :
    name ∈ draft.knownNames.enums ↔ ∃ e ∈ draft.enums, e.name = name := by
  simp [knownNames]

theorem KnownNames.find?_eq_none_iff {names : KnownNames} {name : String} :
    names.find? name = none ↔ name ∉ names.composites ∧ name ∉ names.enums := by
  by_cases hc : name ∈ names.composites
  · simp [find?, hc]
  · by_cases he : name ∈ names.enums <;> simp [find?, hc, he]

theorem KnownNames.find?_of_known {names : KnownNames} {name : String}
    (h : names.find? name ≠ none) :
    names.find? name = some (Reference.settled names (.unresolved name)) := by
  by_cases hc : name ∈ names.composites
  · simp [find?, Reference.settled, hc]
  · by_cases he : name ∈ names.enums
    · simp [find?, Reference.settled, hc, he]
    · exact absurd (find?_eq_none_iff.mpr ⟨hc, he⟩) h

theorem Draft.missing_iff {draft : Draft} {slot : Slot DraftType} {name : String} :
    draft.Missing slot name ↔
      slot.type.Mentions (.unresolved name) ∧ draft.knownNames.find? name = none := by
  rw [KnownNames.find?_eq_none_iff, mem_composites, mem_enums]
  constructor
  · intro h
    refine ⟨h.mentioned, ?_, ?_⟩
    · rintro ⟨t, ht, hname⟩
      exact h.noComposite t ht hname
    · rintro ⟨e, he, hname⟩
      exact h.noEnum e he hname
  · rintro ⟨hmentioned, hcomposites, henums⟩
    exact ⟨hmentioned, fun t ht hname => hcomposites ⟨t, ht, hname⟩,
      fun e he hname => henums ⟨e, he, hname⟩⟩

theorem DraftType.resolve_eq_error {names : KnownNames} {type : DraftType} {name : String}
    (hmention : type.Mentions (.unresolved name)) (hnone : names.find? name = none) :
    type.resolve names = .error name := by
  induction hmention with
  | here => simp [resolve, hnone]
  | element _ ih => rw [resolve, ih]; rfl

theorem DraftType.resolve_eq_ok {names : KnownNames} {type : DraftType}
    (h : ∀ name, type.Mentions (.unresolved name) → names.find? name ≠ none) :
    type.resolve names = .ok (type.map (Reference.settled names), type.isUnresolved) := by
  induction type with
  | array element ih =>
    rw [resolve, ih fun name hmention => h name (.element hmention)]
    rfl
  | reference target =>
    cases target with
    | known target => rfl
    | unresolved name =>
      rw [resolve, KnownNames.find?_of_known (h name .here)]
      rfl
  | _ => rfl

/-- Counts a slot if it leaves a name to be looked up. -/
def Slot.count (slot : Slot DraftType) : Counting Unit :=
  if slot.type.isUnresolved then modify (· + 1) else pure ()

/-- A pass over slots adds the number of those that leave a name to be looked up. -/
theorem Slot.run_count (slots : List (Slot DraftType)) (n : Nat) :
    (forM slots Slot.count).run n =
      .ok ((), n + (slots.filter fun slot => slot.type.isUnresolved).length) := by
  induction slots generalizing n with
  | nil => rfl
  | cons slot rest ih =>
    rw [List.forM_cons, StateT.run_bind, Slot.count, List.filter_cons]
    cases slot.type.isUnresolved with
    | false => exact ih n
    | true =>
      rw [if_pos rfl, if_pos rfl, List.length_cons, Nat.add_comm _ 1, ← Nat.add_assoc]
      exact ih (n + 1)

theorem Draft.slot_resolve_error {draft : Draft} {slot : Slot DraftType} {name : String}
    (h : draft.Missing slot name) :
    slot.resolve draft.knownNames =
      throw (.unresolvedReference name (some slot.owner) (some slot.name)) := by
  obtain ⟨hmention, hnone⟩ := missing_iff.mp h
  rw [Slot.resolve, DraftType.resolve_eq_error hmention hnone]

theorem Draft.slot_resolve_ok {draft : Draft} {slot : Slot DraftType}
    (h : ∀ name, ¬ draft.Missing slot name) :
    slot.resolve draft.knownNames = (do
      slot.count
      pure (slot.type.map (Reference.settled draft.knownNames))) := by
  have hknown : ∀ name, slot.type.Mentions (.unresolved name) →
      draft.knownNames.find? name ≠ none :=
    fun name hmention hnone => h name (missing_iff.mpr ⟨hmention, hnone⟩)
  rw [Slot.resolve, DraftType.resolve_eq_ok hknown, Slot.count]
  cases slot.type.isUnresolved <;> rfl

namespace Draft

theorem exists_firstMissing {draft : Draft} {slot : Slot DraftType} {name : String}
    (hmem : slot ∈ draft.slots) (h : draft.Missing slot name) :
    ∃ first firstName, draft.FirstMissing first firstName := by
  classical
  obtain ⟨first, hfirst⟩ : ∃ first, draft.slots.find?
      (fun slot => decide (∃ name, draft.Missing slot name)) = some first := by
    rw [← Option.isSome_iff_exists, List.find?_isSome]
    exact ⟨slot, hmem, decide_eq_true ⟨name, h⟩⟩
  obtain ⟨hmissing, before, after, hslots, hbefore⟩ := List.find?_eq_some_iff_append.mp hfirst
  obtain ⟨firstName, hmissing⟩ := of_decide_eq_true hmissing
  refine ⟨first, firstName, hmissing, before, after, hslots, ?_⟩
  intro earlier hearlier other hother
  have hnot := hbefore earlier hearlier
  simp only [Bool.not_eq_eq_eq_not, Bool.not_true, decide_eq_false_iff_not] at hnot
  exact hnot ⟨other, hother⟩

/-- The first slot with an unknown name stops the resolution. -/
theorem resolve_of_firstMissing {draft : Draft} {slot : Slot DraftType} {name : String}
    (h : draft.FirstMissing slot name) :
    draft.resolve = .error (.unresolvedReference name (some slot.owner) (some slot.name)) := by
  obtain ⟨hmissing, before, after, hslots, hbefore⟩ := h
  have hpass : (draft.slots.mapM (Slot.resolve draft.knownNames)).run 0 =
      .error (.unresolvedReference name (some slot.owner) (some slot.name)) := by
    rw [hslots, List.mapM_append, List.mapM_cons, slot_resolve_error hmissing,
      SchemaOf.mapM_effect fun earlier hearlier => slot_resolve_ok (hbefore earlier hearlier),
      bind_assoc, StateT.run_bind, Slot.run_count]
    rfl
  have htypes := SchemaOf.retype_types (Slot.resolve draft.knownNames) draft
  rw [← htypes, StateT.run_map] at hpass
  cases hretype : (draft.retype (Slot.resolve draft.knownNames)).run 0 with
  | ok outcome => rw [hretype] at hpass; cases hpass
  | error p =>
    rw [hretype] at hpass
    cases hpass
    rw [resolve, hretype]
    rfl

/-- Without an unknown name only a cycle stops the resolution. -/
theorem resolve_of_allKnown {draft : Draft} (h : draft.AllKnown) :
    draft.resolve =
      match draft.settled.cycle? with
      | some cycle => .error (.cyclicReference cycle)
      | none => .ok ⟨draft.settled, draft.unresolvedSlots.length⟩ := by
  have hretype : (draft.retype (Slot.resolve draft.knownNames)).run 0 =
      .ok (draft.settled, draft.unresolvedSlots.length) := by
    rw [SchemaOf.retype_effect fun slot hslot => slot_resolve_ok (h slot hslot), StateT.run_bind,
      Slot.run_count, Nat.zero_add]
    rfl
  rw [resolve, hretype]
  rfl

theorem firstMissing_or_allKnown (draft : Draft) :
    (∃ slot name, draft.FirstMissing slot name) ∨ draft.AllKnown := by
  by_cases h : ∃ slot ∈ draft.slots, ∃ name, draft.Missing slot name
  · obtain ⟨slot, hslot, name, hname⟩ := h
    exact .inl (exists_firstMissing hslot hname)
  · exact .inr fun slot hslot name hname => h ⟨slot, hslot, name, hname⟩

/-- What a successful resolution gives, and when it is successful. -/
theorem resolve_eq_ok_iff {draft : Draft} {resolution : Resolution} :
    draft.resolve = .ok resolution ↔ draft.AllKnown ∧ draft.settled.cycle? = none ∧
      resolution = ⟨draft.settled, draft.unresolvedSlots.length⟩ := by
  rcases firstMissing_or_allKnown draft with ⟨slot, name, hfirst⟩ | hknown
  · rw [resolve_of_firstMissing hfirst]
    constructor
    · intro h; cases h
    · rintro ⟨hknown, -⟩
      obtain ⟨hmissing, before, after, hslots, -⟩ := hfirst
      exact absurd hmissing (hknown slot (by simp [hslots]) name)
  · rw [resolve_of_allKnown hknown]
    cases draft.settled.cycle? <;> simp [hknown, eq_comm]

/-- Composite types of one name have the same attributes. -/
def Coherent (draft : Draft) : Prop :=
  ∀ t ∈ draft.types, ∀ u ∈ draft.types, t.name = u.name → t.attributes = u.attributes

theorem coherent_of_nodup {draft : Draft} (h : (draft.types.map (·.name)).Nodup) :
    draft.Coherent := by
  intro t ht u hu hname
  rw [List.inj_on_of_nodup_map h ht hu hname]

theorem settled_mentions_iff {draft : Draft} {type : DraftType} {b : String} :
    (type.map (Reference.settled draft.knownNames)).Mentions (.composite b) ↔
      type.Mentions (.known (.composite b)) ∨
        type.Mentions (.unresolved b) ∧ ∃ u ∈ draft.types, u.name = b := by
  simp only [TypeShape.mentions_iff, TypeShape.target?_map, Option.map_eq_some_iff,
    ← mem_composites]
  constructor
  · rintro ⟨target | name, htarget, hsettled⟩
    · exact .inl (htarget.trans (congrArg (fun t => some (Reference.known t)) hsettled))
    · rw [Reference.settled] at hsettled
      split at hsettled
      · next hmem => cases hsettled; exact .inr ⟨htarget, hmem⟩
      · cases hsettled
  · rintro (htarget | ⟨htarget, hmem⟩)
    · exact ⟨_, htarget, rfl⟩
    · exact ⟨_, htarget, if_pos hmem⟩

theorem settled_contains_iff {draft : Draft} {a b : String} :
    draft.settled.Contains a b ↔ draft.Contains a b := by
  constructor
  · rintro ⟨t', ht', hname, field', hfield', hmention⟩
    obtain ⟨t, ht, rfl⟩ := List.mem_map.mp ht'
    obtain ⟨field, hfield, rfl⟩ := List.mem_map.mp hfield'
    exact ⟨t, ht, hname, field, hfield, settled_mentions_iff.mp hmention⟩
  · rintro ⟨t, ht, hname, field, hfield, hmention⟩
    exact ⟨_, List.mem_map.mpr ⟨t, ht, rfl⟩, hname, _, List.mem_map.mpr ⟨field, hfield, rfl⟩,
      settled_mentions_iff.mpr hmention⟩

end Draft

theorem Composite.mem_mentions {t : Composite DataType} {b : String} :
    b ∈ t.mentions ↔ ∃ field ∈ t.attributes, field.type.Mentions (.composite b) := by
  simp only [mentions, List.mem_flatMap, TypeShape.mentions_iff]
  refine exists_congr fun field => and_congr_right fun _ => ?_
  rw [DataType.composites]
  split
  · next name htarget => simp [htarget, eq_comm]
  · next hother =>
    simp only [List.not_mem_nil, false_iff]
    exact hother b

namespace Draft

open SchemaClient.Cycle (Graph)

theorem refers_iff {draft : Draft} (h : draft.Coherent) {a b : String} :
    (Graph.ofTypes draft.settled.types).Refers a b ↔ draft.Contains a b := by
  have hcoherent : Graph.Coherent draft.settled.types := by
    intro t' ht' u' hu' hname
    obtain ⟨t, ht, rfl⟩ := List.mem_map.mp ht'
    obtain ⟨u, hu, rfl⟩ := List.mem_map.mp hu'
    simp only [Composite.mentions]
    rw [h t ht u hu hname]
  rw [Graph.ofTypes_refers_iff hcoherent, ← settled_contains_iff, Schema.Contains]
  simp only [Composite.mem_mentions]

theorem settled_cycle?_eq_none_iff {draft : Draft} (h : draft.Coherent) :
    draft.settled.cycle? = none ↔ ¬ draft.Cyclic := by
  have hsame : (Graph.ofTypes draft.settled.types).Refers = draft.Contains := by
    funext a b
    exact propext (refers_iff h)
  rw [Schema.cycle?, Graph.cycle?_eq_none_iff, Graph.Cyclic, hsame, Cyclic]

/-- A resolution fails with the first unknown name if there is one, else with a cycle if there is
one, and otherwise succeeds. -/
theorem resolve_answers_iff (draft : Draft) (distinct : (draft.types.map (·.name)).Nodup) :
    ((∃ name owner place, draft.resolve = .error (.unresolvedReference name owner place)) ↔
      ∃ slot ∈ draft.slots, ∃ name, draft.Missing slot name) ∧
    (∀ name owner place, draft.resolve = .error (.unresolvedReference name owner place) →
      ∃ slot, draft.FirstMissing slot name ∧ owner = some slot.owner ∧ place = some slot.name) ∧
    ((∃ cycle, draft.resolve = .error (.cyclicReference cycle)) ↔
      draft.AllKnown ∧ draft.Cyclic) ∧
    ((∃ resolution, draft.resolve = .ok resolution) ↔ draft.AllKnown ∧ ¬ draft.Cyclic) := by
  by_cases hmissing : ∃ slot ∈ draft.slots, ∃ name, draft.Missing slot name
  · obtain ⟨slot, hslot, name, hname⟩ := hmissing
    obtain ⟨first, firstName, hfirst⟩ := exists_firstMissing hslot hname
    have hresolve := resolve_of_firstMissing hfirst
    have hsome : ¬ draft.AllKnown := fun hnone => hnone slot hslot name hname
    refine ⟨⟨fun _ => ⟨slot, hslot, name, hname⟩, fun _ => ⟨_, _, _, hresolve⟩⟩, ?_, ?_, ?_⟩
    · intro other owner place hother
      rw [hresolve] at hother
      cases hother
      exact ⟨first, hfirst, rfl, rfl⟩
    · simp [hresolve, hsome]
    · simp [hresolve, hsome]
  · have hknown : draft.AllKnown :=
      fun slot hslot name hname => hmissing ⟨slot, hslot, name, hname⟩
    have hcycle := settled_cycle?_eq_none_iff (coherent_of_nodup distinct)
    have hresolve := resolve_of_allKnown hknown
    cases hfound : draft.settled.cycle? with
    | some cycle =>
      have hcyclic : draft.Cyclic := by
        by_contra hacyclic
        rw [hcycle.mpr hacyclic] at hfound
        cases hfound
      rw [hfound] at hresolve
      simp [hresolve, hmissing, hknown, hcyclic]
    | none =>
      have hacyclic := hcycle.mp hfound
      rw [hfound] at hresolve
      simp [hresolve, hmissing, hknown, hacyclic]

/-- Two types, the first with any number of the second and the second with one of the first. -/
def mutualPair : Draft where
  enums := []
  types :=
    [⟨"a", "A", [⟨"bs", 1, true, .array (.reference (.unresolved "b"))⟩]⟩,
      ⟨"b", "B", [⟨"a", 1, true, .reference (.known (.composite "a"))⟩]⟩]
  tables := []
  functions := []

theorem resolve_mutualPair : (mutualPair.types.map (·.name)).Nodup ∧
    mutualPair.resolve = .error (.cyclicReference ["a", "b", "a"]) ∧
    mutualPair.AllKnown ∧ mutualPair.Cyclic := by
  have distinct : (mutualPair.types.map (·.name)).Nodup := by decide
  have hresolve : mutualPair.resolve = .error (.cyclicReference ["a", "b", "a"]) := rfl
  exact ⟨distinct, hresolve, (resolve_answers_iff mutualPair distinct).2.2.1.mp ⟨_, hresolve⟩⟩

end Draft
end SchemaClient
