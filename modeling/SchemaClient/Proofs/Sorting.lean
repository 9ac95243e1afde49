import Mathlib.Data.List.Pairwise
import Mathlib.Data.List.Perm.Basic
import SchemaClient.Sorting

/-!
# Stable sorting

A list is sorted stably if the same items stand in upward order and those of one rank stand as they
stood. Where no two items have one rank, the order that they came in does not matter at all.
-/
namespace SchemaClient.Sorting

open List (Sublist)

variable {α : Type} {le : α → α → Bool} {items : List α}

/-- Any two items can be compared, and comparing them is transitive; several may have one rank. -/
structure Ranks (le : α → α → Bool) : Prop where
  trans : ∀ a b c, le a b = true → le b c = true → le a c = true
  total : ∀ a b, (le a b || le b a) = true

/-- Two items of one rank: each may stand before the other. -/
def tied (le : α → α → Bool) (a b : α) : Bool := le a b && le b a

theorem tied_comm (a b : α) : tied le a b = tied le b a := Bool.and_comm _ _

/-- The items in upward order, those of one rank in the order in which they came. -/
structure Stable (le : α → α → Bool) (items sorted : List α) : Prop where
  perm : sorted.Perm items
  ordered : sorted.Pairwise fun a b => le a b = true
  ties : ∀ a ∈ items, sorted.filter (tied le a) = items.filter (tied le a)

/-- Items that are tied with one item are in upward order as they stand. -/
theorem Ranks.pairwise_tied (h : Ranks le) (items : List α) (a : α) :
    (items.filter (tied le a)).Pairwise fun b c => le b c = true := by
  refine List.pairwise_of_forall_mem_list fun b hb c hc => ?_
  rw [List.mem_filter, tied, Bool.and_eq_true] at hb hc
  exact h.trans b a c hb.2.2 hc.2.1

/-- The merge sort is stable: a part of the list that is in upward order stays a part. -/
theorem Ranks.stable_mergeSort (h : Ranks le) (items : List α) :
    Stable le items (items.mergeSort le) := by
  have hperm := List.mergeSort_perm items le
  refine ⟨hperm, List.pairwise_mergeSort h.trans h.total items, fun a _ => ?_⟩
  have hkept : Sublist (items.filter (tied le a)) (items.mergeSort le) :=
    List.sublist_mergeSort h.trans h.total (h.pairwise_tied items a) List.filter_sublist
  have hties : Sublist (items.filter (tied le a)) ((items.mergeSort le).filter (tied le a)) := by
    have hfiltered := hkept.filter (tied le a)
    simpa only [List.filter_filter, Bool.and_self] using hfiltered
  have hlength := (hperm.filter (tied le a)).length_eq
  exact (hties.eq_of_length hlength.symm).symm

theorem Stable.congr {le' : α → α → Bool} {sorted : List α} (h : Stable le items sorted)
    (hle : ∀ a ∈ items, ∀ b ∈ items, le a b = le' a b) : Stable le' items sorted where
  perm := h.perm
  ordered := h.ordered.imp_of_mem fun ha hb hab =>
    (hle _ (h.perm.mem_iff.mp ha) _ (h.perm.mem_iff.mp hb)).symm.trans hab
  ties := by
    intro a ha
    have htied : ∀ b ∈ items, tied le' a b = tied le a b := fun b hb => by
      rw [tied, tied, hle a ha b hb, hle b hb a ha]
    rw [List.filter_congr htied, List.filter_congr fun b hb => htied b (h.perm.mem_iff.mp hb)]
    exact h.ties a ha

/-- Lists of the same items in upward order are one list if they agree on the items of each rank. -/
theorem Ranks.eq_of_ties (h : Ranks le) {sorted sorted' : List α} (hperm : sorted.Perm sorted')
    (hordered : sorted.Pairwise fun a b => le a b = true)
    (hordered' : sorted'.Pairwise fun a b => le a b = true)
    (hties : ∀ a ∈ sorted, sorted.filter (tied le a) = sorted'.filter (tied le a)) :
    sorted = sorted' := by
  have hrefl : ∀ a, le a a = true := fun a => by simpa using h.total a a
  induction sorted generalizing sorted' with
  | nil => exact hperm.nil_eq
  | cons a rest ih =>
    cases sorted' with
    | nil => exact absurd hperm.length_eq (Nat.succ_ne_zero _)
    | cons b rest' =>
      obtain ⟨hfirst, hrest⟩ := List.pairwise_cons.mp hordered
      obtain ⟨hfirst', hrest'⟩ := List.pairwise_cons.mp hordered'
      -- each of the first items is at most the other, so they are the first ones of one rank
      have hab : le a b = true := by
        rcases List.mem_cons.mp (hperm.mem_iff.mpr List.mem_cons_self) with rfl | hb
        · exact hrefl b
        · exact hfirst b hb
      have hba : le b a = true := by
        rcases List.mem_cons.mp (hperm.mem_iff.mp List.mem_cons_self) with rfl | ha
        · exact hrefl a
        · exact hfirst' a ha
      have hself : tied le a a = true := by rw [tied, hrefl]; rfl
      have htied : tied le a b = true := by rw [tied, hab, hba]; rfl
      have hfirsts := hties a List.mem_cons_self
      rw [List.filter_cons_of_pos hself, List.filter_cons_of_pos htied] at hfirsts
      obtain ⟨rfl, -⟩ := List.cons.inj hfirsts
      refine congrArg (a :: ·) (ih hperm.cons_inv hrest hrest' fun c hc => ?_)
      have hsame := hties c (List.mem_cons_of_mem a hc)
      rw [List.filter_cons, List.filter_cons] at hsame
      split at hsame
      · exact (List.cons.inj hsame).2
      · exact hsame

/-- There is one way to sort stably. -/
theorem Ranks.stable_iff (h : Ranks le) {sorted : List α} :
    Stable le items sorted ↔ items.mergeSort le = sorted := by
  constructor
  · intro hsorted
    have hmerged := h.stable_mergeSort items
    refine h.eq_of_ties (hmerged.perm.trans hsorted.perm.symm) hmerged.ordered hsorted.ordered ?_
    intro a ha
    have ha : a ∈ items := hmerged.perm.mem_iff.mp ha
    exact (hmerged.ties a ha).trans (hsorted.ties a ha).symm
  · rintro rfl
    exact h.stable_mergeSort items

/-- The order in which items without ties came does not matter. -/
theorem Stable.of_perm (hranks : Ranks le) {others sorted : List α} (h : Stable le items sorted)
    (hperm : others.Perm items) (distinct : items.Pairwise fun a b => tied le a b = false) :
    Stable le others sorted where
  perm := h.perm.trans hperm.symm
  ordered := h.ordered
  ties := by
    intro a ha
    have hsymm : Std.Symm fun a b => tied le a b = false :=
      ⟨fun a b hab => (tied_comm b a).trans hab⟩
    rw [h.ties a (hperm.mem_iff.mp ha)]
    refine ((hperm.symm.filter _).eq_of_pairwise ?_ (hranks.pairwise_tied items a)
      (hranks.pairwise_tied others a))
    intro b c hb hc hbc hcb
    by_contra hne
    have hb : b ∈ items := List.mem_of_mem_filter hb
    have hc : c ∈ items := hperm.mem_iff.mp (List.mem_of_mem_filter hc)
    have htied := distinct.forall hb hc hne
    rw [tied, hbc, hcb] at htied
    cases htied

/-- Items without ties are sorted to one list, whatever order they came in. -/
theorem Ranks.mergeSort_perm (h : Ranks le) {others : List α} (hperm : others.Perm items)
    (distinct : items.Pairwise fun a b => tied le a b = false) :
    others.mergeSort le = items.mergeSort le :=
  h.stable_iff.mp ((h.stable_mergeSort items).of_perm h hperm distinct)

/-- Sorting asks only how the items of the list compare. -/
theorem mergeSort_congr {le' : α → α → Bool} (h : ∀ a ∈ items, ∀ b ∈ items, le a b = le' a b) :
    items.mergeSort le = items.mergeSort le' := by
  have hmap := List.map_mergeSort (r := le) (s := le') (f := id) (l := items) h
  rwa [List.map_id, List.map_id] at hmap

end SchemaClient.Sorting
