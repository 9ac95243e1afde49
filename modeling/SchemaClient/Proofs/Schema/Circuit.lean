import SchemaClient.Proofs.Schema.Resolution

/-!
# Cycles that are reported

The walk over the composite types keeps the path by which it came, and a path that meets one of
its own names is cut where that name stands. So what a resolution reports is the cycle alone,
without the way that led to it: it starts and ends with one name, meets no other twice, and each of
its names is a composite type of the draft that refers to the next one.
-/
namespace SchemaClient

namespace Cycle.Graph

variable {graph : Graph} {way : List String}

theorem Circuit.two_le_length (h : graph.Circuit way) : 2 ≤ way.length := by
  obtain ⟨name, middle, rfl⟩ := h.closed
  rw [List.length_cons, List.length_append, List.length_singleton]
  omega

theorem Circuit.head?_eq_getLast? (h : graph.Circuit way) : way.head? = way.getLast? := by
  obtain ⟨name, middle, rfl⟩ := h.closed
  rw [← List.cons_append, List.getLast?_append, List.getLast?_singleton]
  rfl

/-- The last name of a circuit is its first one too, so none comes without one that follows. -/
theorem Circuit.mem_dropLast (h : graph.Circuit way) {name : String} (hmem : name ∈ way) :
    name ∈ way.dropLast := by
  obtain ⟨first, middle, rfl⟩ := h.closed
  rw [← List.cons_append, List.dropLast_concat]
  rw [← List.cons_append, List.mem_append, List.mem_singleton] at hmem
  rcases hmem with hmem | rfl
  · exact hmem
  · exact List.mem_cons_self

/-- Along a chain each item but the last is related to another. -/
theorem exists_related_of_mem_dropLast {α : Type} {r : α → α → Prop} {items : List α}
    (h : items.IsChain r) {a : α} (ha : a ∈ items.dropLast) : ∃ b, r a b := by
  induction h with
  | nil => cases ha
  | singleton => cases ha
  | cons_cons hfirst _ ih =>
    rw [List.dropLast_cons_cons] at ha
    rcases List.mem_cons.mp ha with rfl | ha
    · exact ⟨_, hfirst⟩
    · exact ih ha

/-- Every name of a circuit refers to another name, or to itself. -/
theorem Circuit.exists_refers (h : graph.Circuit way) {name : String} (hmem : name ∈ way) :
    ∃ next, graph.Refers name next :=
  exists_related_of_mem_dropLast h.chain (h.mem_dropLast hmem)

end Cycle.Graph

namespace Draft

open SchemaClient.Cycle (Graph)

variable {draft : Draft} {cycle : List String}

/-- What the graph of the settled types says is what the draft says; of types with one name the
graph has only the last. -/
theorem contains_of_refers {a b : String} (h : (Graph.ofTypes draft.settled.types).Refers a b) :
    draft.Contains a b := by
  obtain ⟨t, ht, hname, hmentions⟩ := Graph.mentions_of_refers h
  exact settled_contains_iff.mp ⟨t, ht, hname, Composite.mem_mentions.mp hmentions⟩

theorem circuit_of_resolve (h : draft.resolve = .error (.cyclicReference cycle)) :
    (Graph.ofTypes draft.settled.types).Circuit cycle := by
  rcases draft.firstMissing_or_allKnown with ⟨slot, name, hfirst⟩ | hknown
  · rw [resolve_of_firstMissing hfirst] at h
    cases h
  · rw [resolve_of_allKnown hknown] at h
    cases hcycle : draft.settled.cycle? with
    | none =>
      rw [hcycle] at h
      cases h
    | some found =>
      rw [hcycle] at h
      cases h
      exact Graph.circuit_of_cycle? hcycle

/-- **A reported cycle is a real one.** It has a first name that is also its last, meets no name
twice on the way between them, and goes from each composite type of the draft to one that some type
of its name refers to, through any number of arrays. -/
theorem resolve_reports_cycle (h : draft.resolve = .error (.cyclicReference cycle)) :
    2 ≤ cycle.length ∧ cycle.head? = cycle.getLast? ∧ cycle.dropLast.Nodup ∧
      (∀ name ∈ cycle, ∃ t ∈ draft.types, t.name = name) ∧ cycle.IsChain draft.Contains := by
  have hcircuit := circuit_of_resolve h
  refine ⟨hcircuit.two_le_length, hcircuit.head?_eq_getLast?, hcircuit.nodup, ?_, ?_⟩
  · intro name hmem
    obtain ⟨next, hrefers⟩ := hcircuit.exists_refers hmem
    obtain ⟨t, ht, hname, -⟩ := contains_of_refers hrefers
    exact ⟨t, ht, hname⟩
  · exact hcircuit.chain.imp fun _ _ => contains_of_refers

/-- A type that leads to two others which refer to each other, the second of them through an array
of arrays; and a further type that has the name of the first of the two. -/
def lasso : Draft where
  enums := []
  types :=
    [⟨"visit", "Visit", [⟨"at", 1, true, .reference (.unresolved "home")⟩]⟩,
      ⟨"home", "Home", [⟨"street", 1, true, .string⟩]⟩,
      ⟨"owner", "Owner", [⟨"name", 1, false, .string⟩,
        ⟨"homes", 2, true, .array (.array (.reference (.known (.composite "home"))))⟩]⟩,
      ⟨"home", "Home", [⟨"owner", 1, true, .reference (.unresolved "owner")⟩]⟩]
  tables := []
  functions := []

theorem resolve_lasso :
    lasso.resolve = .error (.cyclicReference ["home", "owner", "home"]) ∧
      ["home", "owner"].Nodup ∧ ["home", "owner", "home"].IsChain lasso.Contains := by
  have hresolve : lasso.resolve = .error (.cyclicReference ["home", "owner", "home"]) := rfl
  obtain ⟨-, -, hnodup, -, hchain⟩ := resolve_reports_cycle hresolve
  exact ⟨hresolve, hnodup, hchain⟩

end Draft
end SchemaClient
