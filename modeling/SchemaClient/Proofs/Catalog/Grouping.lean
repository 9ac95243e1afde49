import Mathlib.Data.List.Induction
import SchemaClient.Catalog.Discovery
import SchemaClient.Proofs.Entries
import SchemaClient.Proofs.Sorting

/-!
# Labels by their enumerations

The rows of labels are parted by the enumerations they name. Enumerations come in the order in which
the rows first name them, and each has exactly the labels of its own rows, sorted stably. If no two
labels of an enumeration have one place, the order of the rows does not matter to any of them.
-/
namespace SchemaClient

open Sorting (Ranks Stable)

/-- The names of a list in the order in which they first appear in it. -/
structure FirstAppearances (all firsts : List String) : Prop where
  mem_iff : ∀ name, name ∈ firsts ↔ name ∈ all
  ordered : firsts.Pairwise fun a b => all.idxOf a < all.idxOf b

namespace FirstAppearances

variable {all firsts : List String} {name : String}

theorem nodup (h : FirstAppearances all firsts) : firsts.Nodup :=
  h.ordered.imp fun hlt heq => absurd (heq ▸ hlt) (Nat.lt_irrefl _)

/-- What follows a list does not move the first appearances in it. -/
theorem ordered_append (h : FirstAppearances all firsts) (more : List String) :
    firsts.Pairwise fun a b => (all ++ more).idxOf a < (all ++ more).idxOf b := by
  refine h.ordered.imp_of_mem fun ha hb hlt => ?_
  rwa [List.idxOf_append_of_mem ((h.mem_iff _).mp ha),
    List.idxOf_append_of_mem ((h.mem_iff _).mp hb)]

theorem append_old (h : FirstAppearances all firsts) (hold : name ∈ all) :
    FirstAppearances (all ++ [name]) firsts where
  mem_iff other := by
    rw [h.mem_iff, List.mem_append, List.mem_singleton]
    exact ⟨.inl, fun hother => hother.elim id fun heq => heq ▸ hold⟩
  ordered := h.ordered_append [name]

theorem append_new (h : FirstAppearances all firsts) (hnew : name ∉ all) :
    FirstAppearances (all ++ [name]) (firsts ++ [name]) where
  mem_iff other := by rw [List.mem_append, List.mem_append, h.mem_iff]
  ordered := by
    refine List.pairwise_append.mpr ⟨h.ordered_append [name], List.pairwise_singleton _ _, ?_⟩
    intro a ha b hb
    rw [List.mem_singleton.mp hb, List.idxOf_append_of_mem ((h.mem_iff a).mp ha),
      List.idxOf_append_of_notMem hnew]
    have hlt := List.idxOf_lt_length_of_mem ((h.mem_iff a).mp ha)
    omega

theorem eraseDups_append_singleton (all : List String) (name : String) :
    (all ++ [name]).eraseDups =
      if name ∈ all then all.eraseDups else all.eraseDups ++ [name] := by
  rw [List.eraseDups_append]
  by_cases hmem : name ∈ all <;> simp [List.removeAll, hmem, List.eraseDups_cons]

theorem eraseDups (all : List String) : FirstAppearances all all.eraseDups := by
  induction all using List.reverseRecOn with
  | nil => exact ⟨fun _ => Iff.rfl, .nil⟩
  | append_singleton all name ih =>
    rw [eraseDups_append_singleton]
    split
    · next hold => exact ih.append_old hold
    · next hnew => exact ih.append_new hnew

end FirstAppearances

namespace EnumLabel

/-- A label may stand before another one if the other's sort order is not below its own. -/
def le (a b : EnumLabel) : Bool := !b.order.lt a.order

def byKey (a b : EnumLabel) : Bool := a.order.key ≤ b.order.key

theorem ranks_byKey : Ranks byKey where
  trans a b c hab hbc := by
    simp only [byKey, decide_eq_true_eq] at hab hbc ⊢
    omega
  total a b := by
    simp only [byKey, Bool.or_eq_true, decide_eq_true_eq]
    omega

theorem le_eq_byKey {a b : EnumLabel} (ha : a.order.isNaN = false) (hb : b.order.isNaN = false) :
    a.le b = byKey a b := by
  rw [le, Binary64.lt, ha, hb, byKey, Bool.eq_iff_iff]
  simp

/-- Sort orders that are numbers are tied exactly if they are equal. -/
theorem tied_byKey {a b : EnumLabel} (ha : a.order.isNaN = false)
    (hb : b.order.isNaN = false) : Sorting.tied byKey a b = a.order.eq b.order := by
  rw [Sorting.tied, Binary64.eq, ha, hb, Bool.eq_iff_iff]
  simp only [byKey, Bool.and_eq_true, decide_eq_true_eq, Bool.not_false, true_and, beq_iff_eq]
  omega

end EnumLabel

section

variable {labels : List EnumLabel} (numbers : ∀ label ∈ labels, label.order.isNaN = false)

include numbers

theorem sortedLabels_eq : sortedLabels labels = labels.mergeSort EnumLabel.byKey := by
  have hnone : labels.any (·.order.isNaN) = false := by
    rw [List.any_eq_false]
    intro label hlabel
    rw [numbers label hlabel]
    exact Bool.false_ne_true
  rw [sortedLabels, hnone]
  exact Sorting.mergeSort_congr fun a ha b hb => EnumLabel.le_eq_byKey (numbers a ha) (numbers b hb)

/-- Labels are sorted stably, unless one of them has no number to be sorted by. -/
theorem stable_sortedLabels : Stable EnumLabel.le labels (sortedLabels labels) := by
  rw [sortedLabels_eq numbers]
  exact (EnumLabel.ranks_byKey.stable_mergeSort labels).congr fun a ha b hb =>
    (EnumLabel.le_eq_byKey (numbers a ha) (numbers b hb)).symm

/-- Labels at different places are sorted to one list, whatever order they came in. -/
theorem sortedLabels_perm {others : List EnumLabel} (hperm : others.Perm labels)
    (distinct : labels.Pairwise fun a b => a.order.eq b.order = false) :
    sortedLabels others = sortedLabels labels := by
  have hothers : ∀ label ∈ others, label.order.isNaN = false :=
    fun label hlabel => numbers label (hperm.mem_iff.mp hlabel)
  rw [sortedLabels_eq numbers, sortedLabels_eq hothers]
  refine EnumLabel.ranks_byKey.mergeSort_perm hperm (distinct.imp_of_mem fun ha hb hab => ?_)
  rwa [EnumLabel.tied_byKey (numbers _ ha) (numbers _ hb)]

end

def EnumLabelRow.label (row : EnumLabelRow) : EnumLabel := ⟨row.name, row.order⟩

/-- The labels of an enumeration, in the order of their rows. -/
def labelsOf (rows : List EnumLabelRow) (name : String) : List EnumLabel :=
  (rows.filter (·.enumName == name)).map EnumLabelRow.label

def enumerationOf (rows : List EnumLabelRow) (name : String) : Enumeration :=
  ⟨name, Text.pascalCase name, sortedLabels (labelsOf rows name)⟩

variable {rows : List EnumLabelRow}

theorem groupLabels_eq : groupLabels rows =
    (rows.map (·.enumName)).eraseDups.map (enumerationOf rows) := rfl

theorem map_name_groupLabels :
    (groupLabels rows).map (·.name) = (rows.map (·.enumName)).eraseDups := by
  rw [groupLabels_eq, List.map_map]
  exact List.map_id _

theorem numbers_labelsOf (numbers : ∀ row ∈ rows, row.order.isNaN = false) (name : String) :
    ∀ label ∈ labelsOf rows name, label.order.isNaN = false := by
  intro label hlabel
  obtain ⟨row, hrow, rfl⟩ := List.mem_map.mp hlabel
  exact numbers row (List.mem_of_mem_filter hrow)

theorem labelsOf_append (rows : List EnumLabelRow) (row : EnumLabelRow) (name : String) :
    labelsOf (rows ++ [row]) name =
      labelsOf rows name ++ if row.enumName = name then [row.label] else [] := by
  rw [labelsOf, List.filter_append, List.map_append, ← labelsOf]
  by_cases h : row.enumName = name <;> simp [h]

theorem labelsOf_eq_nil {name : String} (h : name ∉ rows.map (·.enumName)) :
    labelsOf rows name = [] := by
  rw [labelsOf, List.map_eq_nil_iff, List.filter_eq_nil_iff]
  intro row hrow hname
  exact h (List.mem_map.mpr ⟨row, hrow, beq_iff_eq.mp hname⟩)

/-- The names of enumerations with their labels, both in the order of the rows. -/
def groupsOf (rows : List EnumLabelRow) : List (String × List EnumLabel) :=
  (rows.map (·.enumName)).eraseDups.map fun name => (name, labelsOf rows name)

/-- The groups with one more row: its label comes last in the group of its enumeration, which comes
last itself if it is new. -/
def EnumLabelRow.addTo (groups : List (String × List EnumLabel)) (row : EnumLabelRow) :
    List (String × List EnumLabel) :=
  Entries.put groups row.enumName ((groups.lookup row.enumName).getD [] ++ [row.label])

theorem names_groupsOf : Entries.names (groupsOf rows) = (rows.map (·.enumName)).eraseDups := by
  rw [Entries.names, groupsOf, List.map_map]
  exact List.map_id _

theorem lookup_groupsOf (rows : List EnumLabelRow) (name : String) :
    ((groupsOf rows).lookup name).getD [] = labelsOf rows name := by
  cases hlookup : (groupsOf rows).lookup name with
  | some labels =>
    obtain ⟨_, -, heq⟩ := List.mem_map.mp (Entries.mem_of_lookup hlookup)
    cases heq
    rfl
  | none =>
    refine (labelsOf_eq_nil fun hname => ?_).symm
    rw [← List.mem_eraseDups, ← names_groupsOf, ← Entries.lookup_isSome_iff_mem, hlookup] at hname
    cases hname

/-- What a row adds to the groups of the rows before it makes the groups of all of them. -/
theorem addTo_groupsOf (rows : List EnumLabelRow) (row : EnumLabelRow) :
    row.addTo (groupsOf rows) = groupsOf (rows ++ [row]) := by
  rw [EnumLabelRow.addTo, lookup_groupsOf, groupsOf.eq_def (rows ++ [row]), List.map_append,
    List.map_singleton, FirstAppearances.eraseDups_append_singleton]
  by_cases hmem : row.enumName ∈ rows.map (·.enumName)
  · have hold : row.enumName ∈ Entries.names (groupsOf rows) := by
      rwa [names_groupsOf, List.mem_eraseDups]
    rw [if_pos hmem, Entries.put, if_pos (Entries.any_name_iff.mpr hold), groupsOf, List.map_map]
    refine List.map_congr_left fun name _ => ?_
    rw [labelsOf_append]
    by_cases hname : row.enumName = name
    · subst hname
      simp
    · simp [hname, Ne.symm hname]
  · have hnew : row.enumName ∉ Entries.names (groupsOf rows) := by
      rwa [names_groupsOf, List.mem_eraseDups]
    rw [if_neg hmem, Entries.put_new hnew, List.map_append, List.map_singleton, labelsOf_append,
      if_pos rfl, groupsOf]
    congr 1
    refine List.map_congr_left fun name hname => ?_
    have hne : row.enumName ≠ name := fun heq => hmem (heq ▸ List.mem_eraseDups.mp hname)
    rw [labelsOf_append, if_neg hne, List.append_nil]

/-- One pass over the rows that adds each to the groups so far makes the groups of all rows. -/
theorem foldl_addTo (rows : List EnumLabelRow) :
    rows.foldl EnumLabelRow.addTo [] = groupsOf rows := by
  induction rows using List.reverseRecOn with
  | nil => rfl
  | append_singleton rows row ih => rw [List.foldl_append, ih, ← addTo_groupsOf]; rfl

theorem groupLabels_eq_pass (rows : List EnumLabelRow) : groupLabels rows =
    (rows.foldl EnumLabelRow.addTo []).map fun group =>
      ⟨group.1, Text.pascalCase group.1, sortedLabels group.2⟩ := by
  rw [foldl_addTo, groupsOf, List.map_map]
  rfl

/-- Rows at different places give an enumeration the same labels in every order. -/
theorem enumerationOf_perm {other : List EnumLabelRow}
    (numbers : ∀ row ∈ rows, row.order.isNaN = false) (hperm : other.Perm rows)
    (distinct : rows.Pairwise fun a b => a.enumName = b.enumName → a.order.eq b.order = false)
    (name : String) : enumerationOf other name = enumerationOf rows name := by
  have hlabels : (labelsOf other name).Perm (labelsOf rows name) := (hperm.filter _).map _
  have hplaces : (labelsOf rows name).Pairwise fun a b => a.order.eq b.order = false := by
    refine List.pairwise_map.mpr ((distinct.filter _).imp_of_mem fun ha hb hab => ?_)
    rw [List.mem_filter, beq_iff_eq] at ha hb
    exact hab (ha.2.trans hb.2.symm)
  rw [enumerationOf, enumerationOf,
    sortedLabels_perm (numbers_labelsOf numbers name) hlabels hplaces]

/-- **Grouping is a stable partition.** The enumerations have distinct names, which come as the rows
first name them. Each has exactly the labels of its rows, in upward order, those of one place as the
rows have them. If the places in each enumeration are distinct, rows in another order give the same
enumerations with the same labels. -/
theorem groupLabels_partition (numbers : ∀ row ∈ rows, row.order.isNaN = false) :
    ((groupLabels rows).map (·.name)).Nodup ∧
      FirstAppearances (rows.map (·.enumName)) ((groupLabels rows).map (·.name)) ∧
      (∀ e ∈ groupLabels rows, Stable EnumLabel.le (labelsOf rows e.name) e.fields) ∧
      ∀ other : List EnumLabelRow, other.Perm rows →
        (rows.Pairwise fun a b => a.enumName = b.enumName → a.order.eq b.order = false) →
        (groupLabels other).Perm (groupLabels rows) := by
  have hfirst := FirstAppearances.eraseDups (rows.map (·.enumName))
  rw [map_name_groupLabels]
  refine ⟨hfirst.nodup, hfirst, ?_, ?_⟩
  · intro e he
    rw [groupLabels_eq] at he
    obtain ⟨name, -, rfl⟩ := List.mem_map.mp he
    exact stable_sortedLabels (numbers_labelsOf numbers name)
  · intro other hperm distinct
    have hother := FirstAppearances.eraseDups (other.map (·.enumName))
    have hnames : (other.map (·.enumName)).eraseDups.Perm (rows.map (·.enumName)).eraseDups := by
      rw [List.perm_ext_iff_of_nodup hother.nodup hfirst.nodup]
      intro name
      rw [hother.mem_iff, hfirst.mem_iff]
      exact (hperm.map _).mem_iff
    have hsame : enumerationOf other = enumerationOf rows :=
      funext (enumerationOf_perm numbers hperm distinct)
    rw [groupLabels_eq, groupLabels_eq, hsame]
    exact hnames.map _

/-- Moods and sizes in turns, the one at a negative place after one at zero. -/
def moodsAndSizes : List EnumLabelRow :=
  [⟨"mood", "glad", .zero⟩, ⟨"size", "large", .nearest 2⟩, ⟨"mood", "calm", .nearest (-1)⟩,
    ⟨"size", "small", .zero⟩, ⟨"mood", "glad", .nearest 1⟩]

theorem groupLabels_moodsAndSizes :
    (∀ row ∈ moodsAndSizes, row.order.isNaN = false) ∧
      FirstAppearances ["mood", "size", "mood", "size", "mood"] ["mood", "size"] ∧
      (∀ e ∈ groupLabels moodsAndSizes,
        Stable EnumLabel.le (labelsOf moodsAndSizes e.name) e.fields) ∧
      (groupLabels moodsAndSizes.reverse).Perm (groupLabels moodsAndSizes) := by
  have numbers : ∀ row ∈ moodsAndSizes, row.order.isNaN = false := by decide +kernel
  have distinct : moodsAndSizes.Pairwise
      fun a b => a.enumName = b.enumName → a.order.eq b.order = false := by decide +kernel
  obtain ⟨-, hfirst, hstable, hperm⟩ := groupLabels_partition numbers
  exact ⟨numbers, hfirst, hstable, hperm _ (List.reverse_perm _) distinct⟩

end SchemaClient
