import Mathlib.Data.List.Forall2
import SchemaClient.Failure

/-!
# Success of several steps

What is known of each step when a row of steps, any of which could have failed, has succeeded.
-/
namespace SchemaClient.Success

variable {ε α β γ : Type}

theorem bind_eq_ok {first : Except ε α} {next : α → Except ε β} {b : β} :
    first >>= next = .ok b ↔ ∃ a, first = .ok a ∧ next a = .ok b := by
  cases first with
  | error e =>
    constructor
    · intro h; cases h
    · rintro ⟨_, h, _⟩; cases h
  | ok a =>
    constructor
    · intro h; exact ⟨a, rfl, h⟩
    · rintro ⟨_, h, hnext⟩; cases h; exact hnext

theorem pure_eq_ok {a b : α} : (pure a : Except ε α) = .ok b ↔ a = b := Except.ok.injEq a b ▸ Iff.rfl

/-- A pass over a list succeeds if and only if each of its steps does. -/
theorem mapM_eq_ok {f : α → Except ε β} {items : List α} {results : List β} :
    items.mapM f = .ok results ↔ List.Forall₂ (fun a b => f a = .ok b) items results := by
  induction items generalizing results with
  | nil =>
    rw [List.mapM_nil, pure_eq_ok, List.forall₂_nil_left_iff]
    exact eq_comm
  | cons a rest ih =>
    rw [List.mapM_cons, List.forall₂_cons_left_iff]
    simp only [bind_eq_ok, pure_eq_ok]
    constructor
    · rintro ⟨b, hb, others, hothers, rfl⟩
      exact ⟨b, others, hb, ih.mp hothers, rfl⟩
    · rintro ⟨b, others, hb, hothers, rfl⟩
      exact ⟨b, hb, others, ih.mpr hothers, rfl⟩

theorem exists_of_mem_results {r : α → β → Prop} {items : List α} {results : List β}
    (h : List.Forall₂ r items results) {b : β} (hb : b ∈ results) : ∃ a ∈ items, r a b := by
  induction h with
  | nil => cases hb
  | cons hr _ ih =>
    rcases List.mem_cons.mp hb with rfl | hb
    · exact ⟨_, List.mem_cons_self, hr⟩
    · obtain ⟨a, ha, har⟩ := ih hb
      exact ⟨a, List.mem_cons_of_mem _ ha, har⟩

/-- Beside each other stand only results of the list. -/
theorem forall₂_mem_results {r : α → β → Prop} {items : List α} {results : List β}
    (h : List.Forall₂ r items results) :
    List.Forall₂ (fun a b => b ∈ results ∧ r a b) items results :=
  ((List.forall₂_and_left results items).mpr ⟨fun _ hb => hb, h.flip⟩).flip

/-- Each result of a pass is the result of a step. -/
theorem exists_step {f : α → Except ε β} {items : List α} {results : List β}
    (h : items.mapM f = .ok results) {b : β} (hb : b ∈ results) : ∃ a ∈ items, f a = .ok b :=
  exists_of_mem_results (mapM_eq_ok.mp h) hb

/-- Where each step of a pass has a counterpart, so has the pass. -/
theorem mapM_counterpart {f : α → Except ε β} {g : α → Except ε γ}
    {r : β → γ → Prop} (hstep : ∀ a b, f a = .ok b → ∃ c, g a = .ok c ∧ r b c) {items : List α}
    {results : List β} (h : items.mapM f = .ok results) :
    ∃ others, items.mapM g = .ok others ∧ List.Forall₂ r results others := by
  simp only [mapM_eq_ok] at h ⊢
  induction h with
  | nil => exact ⟨[], .nil, .nil⟩
  | cons hfirst _ ih =>
    obtain ⟨c, hc, hrelated⟩ := hstep _ _ hfirst
    obtain ⟨others, hothers, hrest⟩ := ih
    exact ⟨c :: others, .cons hc hothers, .cons hrelated hrest⟩

theorem exists_of_toBool {x : Except ε α} (h : x.toBool = true) : ∃ a, x = .ok a := by
  cases x with
  | error e => cases h
  | ok a => exact ⟨a, rfl⟩

/-- Succeeds if and only if a condition holds, and fails with an error of one kind only. -/
structure Exactly (condition : Prop) (kind : ε → Prop) (x : Except ε β) : Prop where
  ok : condition → ∃ b, x = .ok b
  error : ¬ condition → ∃ e, x = .error e ∧ kind e

variable {condition : Prop} {kind : ε → Prop}

theorem Exactly.exists_ok_iff {x : Except ε β} (h : Exactly condition kind x) :
    (∃ b, x = .ok b) ↔ condition := by
  refine ⟨fun ⟨b, hb⟩ => ?_, h.ok⟩
  by_contra hcondition
  obtain ⟨e, he, -⟩ := h.error hcondition
  rw [hb] at he
  cases he

theorem Exactly.kind_of_error {x : Except ε β} (h : Exactly condition kind x) {e : ε}
    (hx : x = .error e) : kind e := by
  have hcondition : ¬ condition := fun hc => by
    obtain ⟨b, hb⟩ := h.ok hc
    rw [hx] at hb
    cases hb
  obtain ⟨other, hother, hkind⟩ := h.error hcondition
  rw [hx] at hother
  cases hother
  exact hkind

theorem Exactly.congr {other : Prop} {x : Except ε β} (h : Exactly condition kind x)
    (hiff : condition ↔ other) : Exactly other kind x :=
  ⟨fun hother => h.ok (hiff.mpr hother), fun hother => h.error fun hc => hother (hiff.mp hc)⟩

/-- A pass over a list in which each step succeeds exactly under its condition succeeds exactly
under all of them. It fails as the first step that fails, whose error may come `here` or `later`. -/
theorem Exactly.mapM {f : α → Except ε β} {condition : α → Prop} {kind : α → ε → Prop}
    {kinds : List α → ε → Prop} {items : List α}
    (here : ∀ a rest e, ¬ condition a → kind a e → kinds (a :: rest) e)
    (later : ∀ a rest e, condition a → kinds rest e → kinds (a :: rest) e)
    (h : ∀ a ∈ items, Exactly (condition a) (kind a) (f a)) :
    Exactly (∀ a ∈ items, condition a) (kinds items) (items.mapM f) := by
  induction items with
  | nil => exact ⟨fun _ => ⟨[], rfl⟩, fun hnot => absurd (List.forall_mem_nil _) hnot⟩
  | cons a rest ih =>
    obtain ⟨hfirst, hrest⟩ := List.forall_mem_cons.mp h
    have ih := ih hrest
    rw [List.mapM_cons]
    constructor
    · intro hall
      obtain ⟨ha, hothers⟩ := List.forall_mem_cons.mp hall
      obtain ⟨b, hb⟩ := hfirst.ok ha
      obtain ⟨bs, hbs⟩ := ih.ok hothers
      exact ⟨b :: bs, by rw [hb, hbs]; rfl⟩
    · intro hnot
      by_cases ha : condition a
      · obtain ⟨b, hb⟩ := hfirst.ok ha
        have hothers : ¬ ∀ a ∈ rest, condition a := fun hall =>
          hnot (List.forall_mem_cons.mpr ⟨ha, hall⟩)
        obtain ⟨e, he, hkind⟩ := ih.error hothers
        exact ⟨e, by rw [hb, he]; rfl, later a rest e ha hkind⟩
      · obtain ⟨e, he, hkind⟩ := hfirst.error ha
        exact ⟨e, by rw [he]; rfl, here a rest e ha hkind⟩

theorem ofProblem_eq_ok {x : Except Problem α} {a : α} : Failure.ofProblem x = .ok a ↔ x = .ok a := by
  cases x <;> simp [Failure.ofProblem]

end SchemaClient.Success
