import SchemaClient.Proofs.Entries
import SchemaClient.Validation.Model

/-!
# Outcomes of reading data

Data are read as some value, or, if they have a fault, refused with issues that all lie with
records: with the members they lack or should not have. An outcome says both at once, and outcomes
of parts make the outcome of the whole.
-/
namespace SchemaClient.Validation

open Validated (map2 under)

variable {α β γ : Type}

theorem map2_eq_ok {f : α → β → γ} {x : Validated α} {y : Validated β} {c : γ}
    (h : map2 f x y = .ok c) : ∃ a b, x = .ok a ∧ y = .ok b ∧ f a b = c := by
  rcases x with issues | a <;> rcases y with more | b <;> cases h
  exact ⟨a, b, rfl, rfl, rfl⟩

theorem map_eq_ok {f : α → β} {x : Validated α} {b : β} (h : Except.map f x = .ok b) :
    ∃ a, x = .ok a ∧ f a = b := by
  cases x with
  | error issues => cases h
  | ok a =>
    cases h
    exact ⟨a, rfl, rfl⟩

theorem under_eq_ok {step : Step} {x : Validated α} {a : α} (h : under step x = .ok a) :
    x = .ok a := by
  cases x with
  | error issues => cases h
  | ok b => exact h

/-- Each item that is read is read of one that is there. -/
theorem itemsFrom_eq_ok {decode : β → Validated α} {start : Nat} {items : List β} {list : List α}
    (h : Decoder.itemsFrom decode start items = .ok list) :
    ∀ a ∈ list, ∃ item ∈ items, decode item = .ok a := by
  induction items generalizing start list with
  | nil => cases h; exact List.forall_mem_nil _
  | cons item rest ih =>
    obtain ⟨a, others, hitem, hothers, rfl⟩ := map2_eq_ok h
    refine List.forall_mem_cons.mpr ⟨⟨item, List.mem_cons_self, under_eq_ok hitem⟩, fun b hb => ?_⟩
    obtain ⟨source, hsource, hb⟩ := ih hothers b hb
    exact ⟨source, List.mem_cons_of_mem _ hsource, hb⟩

/-- Refused for issues of records only. -/
def Refused (x : Validated α) : Prop :=
  ∃ issues, x = .error issues ∧ ∀ issue ∈ issues, ∃ entries, issue.input = .record entries

/-- Read as `a` if there is no fault, and refused if there is. -/
structure Outcome (faulty : Prop) (x : Validated α) (a : α) : Prop where
  accepted : ¬ faulty → x = .ok a
  refused : faulty → Refused x

variable {p q : Prop} {x : Validated α} {a : α}

theorem Outcome.of_ok (h : x = .ok a) : Outcome False x a := ⟨fun _ => h, False.elim⟩

theorem Outcome.congr (h : Outcome p x a) (hpq : p ↔ q) : Outcome q x a :=
  ⟨fun hq => h.accepted ((not_congr hpq).mpr hq), fun hq => h.refused (hpq.mpr hq)⟩

theorem refused_missing (path : List Step) (entries : Record) :
    Refused (.error [⟨path, .missing, .record entries⟩] : Validated α) :=
  ⟨_, rfl, List.forall_mem_singleton.mpr ⟨entries, rfl⟩⟩

theorem Refused.under (h : Refused x) (step : Step) : Refused (under step x) := by
  obtain ⟨issues, rfl, hissues⟩ := h
  refine ⟨_, rfl, fun issue hmem => ?_⟩
  obtain ⟨inner, hinner, rfl⟩ := List.mem_map.mp hmem
  exact hissues inner hinner

theorem Refused.map (h : Refused x) (f : α → β) : Refused (Except.map f x) := by
  obtain ⟨issues, rfl, hissues⟩ := h
  exact ⟨issues, rfl, hissues⟩

theorem Refused.map2_left {f : α → β → γ} {y : Validated β} {b : β} (h : Refused x)
    (hy : y = .ok b ∨ Refused y) : Refused (map2 f x y) := by
  obtain ⟨issues, rfl, hissues⟩ := h
  rcases hy with rfl | ⟨more, rfl, hmore⟩
  · exact ⟨issues, rfl, hissues⟩
  · exact ⟨issues ++ more, rfl, List.forall_mem_append.mpr ⟨hissues, hmore⟩⟩

theorem Refused.map2_right {f : α → β → γ} {y : Validated β} (h : Refused y) (hx : x = .ok a) :
    Refused (map2 f x y) := by
  obtain ⟨issues, rfl, hissues⟩ := h
  subst hx
  exact ⟨issues, rfl, hissues⟩

theorem Outcome.under (h : Outcome p x a) (step : Step) : Outcome p (under step x) a :=
  ⟨fun hp => by rw [h.accepted hp]; rfl, fun hp => (h.refused hp).under step⟩

theorem Outcome.map (h : Outcome p x a) (f : α → β) : Outcome p (Except.map f x) (f a) :=
  ⟨fun hp => by rw [h.accepted hp]; rfl, fun hp => (h.refused hp).map f⟩

/-- Two results together are at fault if one of them is. -/
theorem Outcome.map2 {y : Validated β} {b : β} (hx : Outcome p x a) (hy : Outcome q y b)
    (f : α → β → γ) : Outcome (p ∨ q) (map2 f x y) (f a b) := by
  constructor
  · intro h
    rw [hx.accepted fun hp => h (.inl hp), hy.accepted fun hq => h (.inr hq)]
    rfl
  · intro h
    by_cases hp : p
    · refine (hx.refused hp).map2_left (b := b) ?_
      by_cases hq : q
      · exact .inr (hy.refused hq)
      · exact .inl (hy.accepted hq)
    · exact (hy.refused (h.resolve_left hp)).map2_right (hx.accepted hp)

/-- Items are at fault if one of them is. -/
theorem outcome_itemsFrom {decode : β → Validated α} {write : α → β} {faulty : α → Prop}
    {list : List α} (h : ∀ a ∈ list, Outcome (faulty a) (decode (write a)) a) (start : Nat) :
    Outcome (∃ a ∈ list, faulty a) (Decoder.itemsFrom decode start (list.map write)) list := by
  induction list generalizing start with
  | nil => exact (Outcome.of_ok rfl).congr (by simp)
  | cons a rest ih =>
    obtain ⟨ha, hrest⟩ := List.forall_mem_cons.mp h
    have hboth := (ha.under (.number start)).map2 (ih hrest (start + 1)) (· :: ·)
    exact hboth.congr (by simp)

theorem outcome_list {decoder : Decoder α} {source : Source} {write : α → Value}
    {faulty : α → Prop} {list : List α}
    (h : ∀ a ∈ list, Outcome (faulty a) (decoder source (write a)) a) :
    Outcome (∃ a ∈ list, faulty a) (Decoder.list decoder source (.list (list.map write))) list :=
  outcome_itemsFrom h 0

namespace Fields

variable {source : Source} {entries : Record}

theorem outcome_map {fields : Fields α} (h : Outcome p (fields.read source entries) a) (f : α → β) :
    Outcome p ((f <$> fields).read source entries) (f a) := h.map f

theorem outcome_seq {functions : Fields (α → β)} {fields : Fields α} {f : α → β}
    (hf : Outcome p (functions.read source entries) f)
    (ha : Outcome q (fields.read source entries) a) :
    Outcome (p ∨ q) ((functions <*> fields).read source entries) (f a) :=
  hf.map2 ha fun f a => f a

theorem outcome_required {name : String} {decoder : Decoder α} {v : Value}
    (hv : entries.lookup name = some v) (h : Outcome p (decoder source v) a) :
    Outcome p ((required name decoder).read source entries) a := by
  rw [required]
  simp only [hv]
  exact h.under (.name name)

theorem outcome_withDefault {name : String} {default : α} {decoder : Decoder α} {v : Value}
    (hv : entries.lookup name = some v) (h : Outcome p (decoder source v) a) :
    Outcome p ((withDefault name default decoder).read source entries) a := by
  rw [withDefault]
  simp only [hv]
  exact h.under (.name name)

theorem outcome_absent {name : String} {default : α} {decoder : Decoder α}
    (hv : entries.lookup name = none) :
    Outcome False ((withDefault name default decoder).read source entries) default := by
  rw [withDefault]
  simp only [hv]
  exact .of_ok rfl

theorem refused_absent {name : String} {decoder : Decoder α} (hv : entries.lookup name = none) :
    Refused ((required name decoder).read source entries) := by
  rw [required]
  simp only [hv]
  exact refused_missing [.name name] entries

theorem unexpected_eq_nil {names : List String} (h : ∀ name ∈ Entries.names entries, name ∈ names) :
    unexpected names entries = [] := by
  rw [unexpected, List.map_eq_nil_iff, List.filter_eq_nil_iff]
  intro entry hmem
  have hname := h entry.1 (List.mem_map_of_mem hmem)
  simp [hname]

/-- Where all members belong to the model, what is read of them is all that counts. -/
theorem outcome_readAll {fields : Fields α} (h : Outcome p (fields.read source entries) a)
    (hnames : ∀ name ∈ Entries.names entries, name ∈ fields.names) :
    Outcome p (fields.readAll source entries) a := by
  have hextra := unexpected_eq_nil hnames
  constructor
  · intro hp
    rw [readAll, h.accepted hp, hextra]
  · intro hp
    obtain ⟨issues, hread, hissues⟩ := h.refused hp
    rw [readAll, hread, hextra]
    exact ⟨issues ++ [], rfl, by rwa [List.append_nil]⟩

end Fields
end SchemaClient.Validation
