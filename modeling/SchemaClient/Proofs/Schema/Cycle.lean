import Mathlib.Data.List.Chain
import Mathlib.Data.List.Nodup
import Mathlib.Data.List.Perm.Subperm
import Mathlib.Logic.Relation
import SchemaClient.Proofs.Entries
import SchemaClient.Schema.Cycle

/-!
# The walk finds exactly the cycles

Every way that the depth-first walk reports is a circuit: it follows references, comes back to its
first name and meets no other name twice. If the walk reports none, no name refers to itself through
others. The bound on the depth of the walk is never met, because the names of its path are distinct
names of the graph.
-/
namespace SchemaClient.Cycle

open Relation (TransGen ReflTransGen)

namespace Graph

/-- A name refers to another one. -/
def Refers (graph : Graph) (a b : String) : Prop := b ∈ graph.next a

/-- Some name refers to itself, directly or through others. -/
def Cyclic (graph : Graph) : Prop := ∃ a, TransGen graph.Refers a a

/-- A way along references that ends where it starts and otherwise meets no name twice. -/
structure Circuit (graph : Graph) (way : List String) : Prop where
  closed : ∃ name middle, way = name :: (middle ++ [name])
  chain : way.IsChain graph.Refers
  nodup : way.dropLast.Nodup

/-- Names from which no cycle is reached: all that they refer to is among them. -/
structure Settled (graph : Graph) (done : List String) : Prop where
  closed : ∀ a ∈ done, ∀ b, graph.Refers a b → b ∈ done
  acyclic : ∀ a ∈ done, ¬ TransGen graph.Refers a a

/-- The names of a path, the latest first, lead to a name along references. -/
structure Trail (graph : Graph) (path : List String) (name : String) : Prop where
  chain : (name :: path).IsChain fun later earlier => graph.Refers earlier later
  nodup : path.Nodup
  known : path ⊆ Entries.names graph

/-- What a walk from some names may answer: settled names, theirs among them, or a circuit. -/
def Answers (graph : Graph) (done names : List String) : Except (List String) (List String) → Prop
  | .ok done' => graph.Settled done' ∧ done ⊆ done' ∧ names ⊆ done'
  | .error way => graph.Circuit way

theorem mem_names_of_refers {graph : Graph} {a b : String} (h : graph.Refers a b) :
    a ∈ Entries.names graph := by
  rw [← Entries.lookup_isSome_iff_mem]
  cases hlookup : graph.lookup a with
  | some _ => rfl
  | none => simp [Refers, next, hlookup] at h

theorem transGen_of_isChain {α : Type} {r : α → α → Prop} {a b : α} {middle : List α}
    (h : (a :: (middle ++ [b])).IsChain r) : TransGen r a b := by
  induction middle generalizing a with
  | nil => exact .single (List.isChain_pair.mp h)
  | cons c rest ih =>
    rw [List.cons_append, List.isChain_cons_cons] at h
    exact .head h.1 (ih h.2)

theorem Circuit.cyclic {graph : Graph} {way : List String} (h : graph.Circuit way) :
    graph.Cyclic := by
  obtain ⟨name, middle, rfl⟩ := h.closed
  exact ⟨name, transGen_of_isChain h.chain⟩

theorem takeWhile_ne_append {path : List String} {name : String} (h : name ∈ path) :
    ∃ rest, path = path.takeWhile (· ≠ name) ++ name :: rest := by
  induction path with
  | nil => simp at h
  | cons c path ih =>
    by_cases hc : c = name
    · exact ⟨path, by simp [hc]⟩
    · obtain ⟨rest, hrest⟩ := ih (List.mem_of_ne_of_mem (Ne.symm hc) h)
      exact ⟨rest, by simpa [hc] using hrest⟩

/-- A path that leads to one of its own names is closed to a circuit. -/
theorem Trail.circuit {graph : Graph} {path : List String} {name : String}
    (h : graph.Trail path name) (hmem : name ∈ path) : graph.Circuit (closing path name) := by
  obtain ⟨rest, hpath⟩ := takeWhile_ne_append hmem
  have hprefix : (path.takeWhile (· ≠ name) ++ [name]) <+: path :=
    ⟨rest, by rw [List.append_assoc]; exact hpath.symm⟩
  have hreverse : closing path name =
      (name :: (path.takeWhile (· ≠ name) ++ [name])).reverse := by
    simp [closing]
  refine ⟨⟨name, (path.takeWhile (· ≠ name)).reverse, rfl⟩, ?_, ?_⟩
  · rw [hreverse, List.isChain_reverse]
    exact h.chain.prefix (List.prefix_cons_inj name |>.mpr hprefix)
  · have hdrop : (closing path name).dropLast =
        (path.takeWhile (· ≠ name) ++ [name]).reverse := by
      rw [hreverse, List.reverse_cons, List.dropLast_concat]
    rw [hdrop, List.nodup_reverse]
    exact h.nodup.sublist hprefix.sublist

theorem Settled.nil (graph : Graph) : graph.Settled [] :=
  ⟨fun _ h => absurd h List.not_mem_nil, fun _ h => absurd h List.not_mem_nil⟩

theorem Settled.mem_of_reflTransGen {graph : Graph} {done : List String} (h : graph.Settled done)
    {a b : String} (ha : a ∈ done) (hab : ReflTransGen graph.Refers a b) : b ∈ done := by
  induction hab with
  | refl => exact ha
  | tail _ hstep ih => exact h.closed _ ih _ hstep

/-- A name may be settled once all that it refers to is. -/
theorem Settled.cons {graph : Graph} {done : List String} {name : String}
    (h : graph.Settled done) (hnext : graph.next name ⊆ done) : graph.Settled (name :: done) := by
  constructor
  · intro a ha b hab
    rcases List.mem_cons.mp ha with rfl | ha
    · exact List.mem_cons_of_mem _ (hnext hab)
    · exact List.mem_cons_of_mem _ (h.closed a ha b hab)
  · intro a ha hcycle
    rcases List.mem_cons.mp ha with rfl | ha
    · -- the cycle leaves the name into `done` and never leaves `done` again
      obtain ⟨b, hab, hba⟩ := TransGen.head'_iff.mp hcycle
      exact h.acyclic a (h.mem_of_reflTransGen (hnext hab) hba) hcycle
    · exact h.acyclic a ha hcycle

theorem Trail.step {graph : Graph} {path : List String} {name next : String}
    (h : graph.Trail path name) (hnew : name ∉ path) (hnext : graph.Refers name next) :
    graph.Trail (name :: path) next where
  chain := List.isChain_cons_cons.mpr ⟨hnext, h.chain⟩
  nodup := List.nodup_cons.mpr ⟨hnew, h.nodup⟩
  known := List.cons_subset.mpr ⟨mem_names_of_refers hnext, h.known⟩

theorem Trail.length_le {graph : Graph} {path : List String} {name : String}
    (h : graph.Trail path name) : path.length ≤ graph.length := by
  have hle := (h.nodup.subperm h.known).length_le
  rwa [Entries.names, List.length_map] at hle

theorem foldlM_answers {graph : Graph} {walk : List String → String → Except _ _}
    {names : List String}
    (each : ∀ done, graph.Settled done → ∀ name ∈ names,
      graph.Answers done [name] (walk done name))
    (done : List String) (h : graph.Settled done) :
    graph.Answers done names (names.foldlM walk done) := by
  induction names generalizing done with
  | nil => exact ⟨h, List.Subset.refl _, List.nil_subset _⟩
  | cons name rest ih =>
    have hfirst := each done h name List.mem_cons_self
    rw [List.foldlM_cons]
    cases hwalk : walk done name with
    | error way => rwa [hwalk] at hfirst
    | ok middle =>
      rw [hwalk] at hfirst
      obtain ⟨hsettled, hsub, hname⟩ := hfirst
      have hrest := ih (fun done hdone name hmem =>
        each done hdone name (List.mem_cons_of_mem _ hmem)) middle hsettled
      change graph.Answers done (name :: rest) (rest.foldlM walk middle)
      cases hfold : rest.foldlM walk middle with
      | error way => rwa [hfold] at hrest
      | ok last =>
        rw [hfold] at hrest
        obtain ⟨hlast, hsub', hnames⟩ := hrest
        refine ⟨hlast, List.Subset.trans hsub hsub', List.cons_subset.mpr ⟨?_, hnames⟩⟩
        exact hsub' (hname List.mem_cons_self)

/-- What one call of the walk answers, by induction on the depth that is left. -/
theorem visit_answers (graph : Graph) :
    ∀ (depth : Nat) (path done : List String) (name : String), graph.Trail path name →
      graph.length < depth + path.length → graph.Settled done →
      graph.Answers done [name] (visit graph depth path done name) := by
  intro depth
  induction depth with
  | zero =>
    intro path done name htrail hdepth
    have hle := htrail.length_le
    omega
  | succ depth ih =>
    intro path done name htrail hdepth hdone
    rw [visit]
    split
    · next hmem => exact ⟨hdone, List.Subset.refl _, by simpa using hmem⟩
    · split
      · next hmem => exact htrail.circuit (by simpa using hmem)
      · next hnew =>
        have hfold := foldlM_answers
          (fun done hdone next (hnext : next ∈ graph.next name) => ih (name :: path) done next
            (htrail.step (by simpa using hnew) hnext)
            (by rw [List.length_cons]; omega) hdone) done hdone
        cases hresult : (graph.next name).foldlM (visit graph depth (name :: path)) done with
        | error way => rwa [hresult] at hfold
        | ok done' =>
          rw [hresult] at hfold
          obtain ⟨hsettled, hsub, hnext⟩ := hfold
          exact ⟨hsettled.cons hnext, List.Subset.trans hsub (List.subset_cons_self _ _), by simp⟩

theorem walk_answers (graph : Graph) :
    graph.Answers [] (Entries.names graph)
      ((Entries.names graph).foldlM (visit graph (graph.length + 2) []) []) := by
  refine foldlM_answers (fun done hdone name _ => ?_) [] (Settled.nil graph)
  refine visit_answers graph _ [] done name ⟨?_, List.nodup_nil, List.nil_subset _⟩ ?_ hdone
  · exact List.isChain_singleton _
  · omega

theorem circuit_of_cycle? {graph : Graph} {way : List String} (h : graph.cycle? = some way) :
    graph.Circuit way := by
  have hwalk := walk_answers graph
  rw [cycle?] at h
  split at h
  · cases h
  · next heq =>
    rw [heq] at hwalk
    cases h
    exact hwalk

/-- No way is reported exactly when there is no cycle. -/
theorem cycle?_eq_none_iff {graph : Graph} : graph.cycle? = none ↔ ¬ graph.Cyclic := by
  constructor
  · intro h
    have hwalk := walk_answers graph
    rw [cycle?] at h
    split at h
    · next heq =>
      rw [heq] at hwalk
      obtain ⟨hsettled, -, hnames⟩ := hwalk
      rintro ⟨a, ha⟩
      obtain ⟨b, hab, -⟩ := TransGen.head'_iff.mp ha
      exact hsettled.acyclic a (hnames (mem_names_of_refers hab)) ha
    · cases h
  · intro h
    cases hcycle : graph.cycle? with
    | none => rfl
    | some way => exact absurd (circuit_of_cycle? hcycle).cyclic h

/-- Types of one name have the same attributes' references. -/
def Coherent (types : List (Composite DataType)) : Prop :=
  ∀ t ∈ types, ∀ u ∈ types, t.name = u.name → t.mentions = u.mentions

/-- What a name refers to, a type of that name mentions. -/
theorem mentions_of_refers {types : List (Composite DataType)} {a b : String}
    (h : (ofTypes types).Refers a b) : ∃ t ∈ types, t.name = a ∧ b ∈ t.mentions := by
  rw [Refers, next, ofTypes, Entries.lookup_ofList] at h
  cases hlookup : (types.map fun t => (t.name, t.mentions)).reverse.lookup a with
  | none => simp [hlookup] at h
  | some found =>
    rw [hlookup, Option.getD_some] at h
    have hmem := List.mem_reverse.mp (Entries.mem_of_lookup hlookup)
    obtain ⟨t, ht, heq⟩ := List.mem_map.mp hmem
    cases heq
    exact ⟨t, ht, rfl, h⟩

theorem ofTypes_refers_iff {types : List (Composite DataType)} (h : Coherent types)
    {a b : String} : (ofTypes types).Refers a b ↔ ∃ t ∈ types, t.name = a ∧ b ∈ t.mentions := by
  refine ⟨mentions_of_refers, ?_⟩
  rintro ⟨t, ht, rfl, hb⟩
  have hname : t.name ∈ Entries.names (ofTypes types) := by
    rw [ofTypes, Entries.mem_names_ofList]
    exact List.mem_map.mpr ⟨_, List.mem_map.mpr ⟨t, ht, rfl⟩, rfl⟩
  obtain ⟨found, hfound⟩ := Option.isSome_iff_exists.mp (Entries.lookup_isSome_iff_mem.mpr hname)
  have hmem := hfound
  rw [ofTypes, Entries.lookup_ofList] at hmem
  obtain ⟨u, hu, heq⟩ := List.mem_map.mp (List.mem_reverse.mp (Entries.mem_of_lookup hmem))
  obtain ⟨hsame, rfl⟩ := Prod.mk.inj heq
  rw [Refers, next, hfound, Option.getD_some, h u hu t ht hsame]
  exact hb

end Graph
end SchemaClient.Cycle
