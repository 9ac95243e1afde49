import SchemaClient.Proofs.Validation.Outcome

/-!
# Exact issues

Reading data yields a list of issues, and a value if the list is empty. The issues of the whole are
those of its parts, one after the other, each seen from the whole.
-/
namespace SchemaClient.Validation

open Validated (map2 under)

variable {α β γ : Type}

/-- The issue of a part, seen from the whole. -/
def Issue.into (step : Step) (issue : Issue) : Issue := { issue with path := step :: issue.path }

/-- These issues, or `a` if there are none. -/
def Yields (issues : List Issue) (x : Validated α) (a : α) : Prop :=
  x = if issues = [] then .ok a else .error issues

variable {issues more : List Issue} {x : Validated α} {a : α}

theorem Yields.of_ok (h : x = .ok a) : Yields [] x a := h

theorem Yields.eq_ok (h : Yields [] x a) : x = .ok a := h

theorem Yields.under (h : Yields issues x a) (step : Step) :
    Yields (issues.map (Issue.into step)) (under step x) a := by
  unfold Yields at h ⊢
  subst h
  by_cases hnone : issues = []
  · subst hnone
    rfl
  · rw [if_neg hnone, if_neg fun hnil => hnone (List.map_eq_nil_iff.mp hnil)]
    rfl

theorem Yields.map (h : Yields issues x a) (f : α → β) : Yields issues (Except.map f x) (f a) := by
  unfold Yields at h ⊢
  subst h
  by_cases hnone : issues = []
  · rw [if_pos hnone, if_pos hnone]
    rfl
  · rw [if_neg hnone, if_neg hnone]
    rfl

/-- The issues of both, those of the first in front. -/
theorem Yields.map2 {y : Validated β} {b : β} (hx : Yields issues x a) (hy : Yields more y b)
    (f : α → β → γ) : Yields (issues ++ more) (map2 f x y) (f a b) := by
  unfold Yields at hx hy ⊢
  subst hx hy
  cases issues with
  | nil =>
    cases more with
    | nil => rfl
    | cons first rest => rfl
  | cons first rest =>
    cases more with
    | nil =>
      rw [List.append_nil]
      rfl
    | cons => rfl

/-- The issues of items, each under the number of its item. -/
def itemIssues (of : β → List Issue) (start : Nat) (items : List β) : List Issue :=
  (items.zipIdx start).flatMap fun (item, n) => (of item).map (Issue.into (.number n))

theorem yields_itemsFrom {decode : γ → Validated α} {write : β → γ} {value : β → α}
    {of : β → List Issue} {items : List β}
    (h : ∀ item ∈ items, Yields (of item) (decode (write item)) (value item)) (start : Nat) :
    Yields (itemIssues of start items) (Decoder.itemsFrom decode start (items.map write))
      (items.map value) := by
  induction items generalizing start with
  | nil => exact .of_ok rfl
  | cons item rest ih =>
    obtain ⟨hitem, hrest⟩ := List.forall_mem_cons.mp h
    exact (hitem.under (.number start)).map2 (ih hrest (start + 1)) (· :: ·)

namespace Fields

variable {source : Source} {entries : Record} {fields : Fields α}

theorem yields_map (h : Yields issues (fields.read source entries) a) (f : α → β) :
    Yields issues ((f <$> fields).read source entries) (f a) := h.map f

theorem yields_seq {functions : Fields (α → β)} {f : α → β}
    (hf : Yields issues (functions.read source entries) f)
    (ha : Yields more (fields.read source entries) a) :
    Yields (issues ++ more) ((functions <*> fields).read source entries) (f a) :=
  hf.map2 ha fun f a => f a

theorem yields_required {name : String} {decoder : Decoder α} {v : Value}
    (hv : entries.lookup name = some v) (h : Yields issues (decoder source v) a) :
    Yields (issues.map (Issue.into (.name name))) ((required name decoder).read source entries) a := by
  rw [required]
  simp only [hv]
  exact h.under (.name name)

theorem yields_withDefault {name : String} {default : α} {decoder : Decoder α} {v : Value}
    (hv : entries.lookup name = some v) (h : Yields issues (decoder source v) a) :
    Yields (issues.map (Issue.into (.name name)))
      ((withDefault name default decoder).read source entries) a := by
  rw [withDefault]
  simp only [hv]
  exact h.under (.name name)

/-- Where all members of data belong to the fields, the issues of the fields are all there are. -/
theorem yields_readAll (fields : Fields α) (source : Source) (entries : Record)
    (h : Yields issues (fields.read source entries) a)
    (hnames : ∀ name ∈ Entries.names entries, name ∈ fields.names) :
    Yields issues (fields.readAll source entries) a := by
  unfold Yields at h ⊢
  rw [readAll, h, unexpected_eq_nil hnames]
  by_cases hnone : issues = []
  · rw [if_pos hnone]
  · rw [if_neg hnone]
    dsimp only
    rw [List.append_nil]

end Fields

theorem Model.yields (model : Model α) (source : Source) (entries : Record)
    (h : Yields issues (model.fields.read source entries) a)
    (hnames : ∀ name ∈ Entries.names entries, name ∈ model.fields.names) :
    Yields issues (model.decoder source (.record entries)) a :=
  model.fields.yields_readAll source entries h hnames

end SchemaClient.Validation
