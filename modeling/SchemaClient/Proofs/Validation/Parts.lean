import Mathlib.Tactic.SplitIfs
import SchemaClient.Proofs.Entries
import SchemaClient.Validation.Model

/-!
# What issues are about

An issue shows the value it is about. A reader of data that is local shows only values that lie in
the data; this is so of every reader that is put together of local ones.
-/
namespace SchemaClient

/-- A value that lies in another, or is the other itself. -/
inductive Value.Within (part : Value) : Value → Prop where
  | whole : Within part part
  | item {items : List Value} {v : Value} (hmem : v ∈ items) (h : Within part v) :
    Within part (.list items)
  | tupleItem {items : List Value} {v : Value} (hmem : v ∈ items) (h : Within part v) :
    Within part (.tuple items)
  | entry {entries : Record} {name : String} {v : Value} (hmem : (name, v) ∈ entries)
    (h : Within part v) : Within part (.record entries)

namespace Validation

open Validated (fail map2 under)

variable {α β γ : Type}

/-- Whatever issues a result has, they show values in some data only. -/
def About (v : Value) (x : Validated α) : Prop :=
  ∀ issues, x = .error issues → ∀ issue ∈ issues, issue.input.Within v

variable {v : Value} {x : Validated α} {a : α}

theorem about_ok : About v (.ok a : Validated α) := by
  intro issues h
  cases h

theorem about_error {issues : List Issue} (h : ∀ issue ∈ issues, issue.input.Within v) :
    About v (.error issues : Validated α) := by
  intro others hsame
  cases hsame
  exact h

theorem about_fail (fault : Fault) : About v (fail fault v : Validated α) :=
  about_error (List.forall_mem_singleton.mpr .whole)

theorem About.within {w : Value} (h : About v x) (hv : ∀ part : Value, part.Within v → part.Within w) :
    About w x := by
  intro issues hx issue hmem
  exact hv issue.input (h issues hx issue hmem)

theorem About.under (h : About v x) (step : Step) : About v (under step x) := by
  cases x with
  | ok a => exact about_ok
  | error issues =>
    apply about_error
    intro issue hmem
    obtain ⟨inner, hinner, rfl⟩ := List.mem_map.mp hmem
    exact h issues rfl inner hinner

theorem About.map (h : About v x) (f : α → β) : About v (Except.map f x) := by
  cases x with
  | ok a => exact about_ok
  | error issues => exact about_error (h issues rfl)

theorem About.map2 {y : Validated β} (hx : About v x) (hy : About v y) (f : α → β → γ) :
    About v (map2 f x y) := by
  cases x with
  | ok a =>
    cases y with
    | ok b => exact about_ok
    | error more => exact about_error (hy more rfl)
  | error issues =>
    cases y with
    | ok b => exact about_error (hx issues rfl)
    | error more =>
      exact about_error (List.forall_mem_append.mpr ⟨hx issues rfl, hy more rfl⟩)

theorem about_itemsFrom {decode : β → Validated α} {items : List β}
    (h : ∀ item ∈ items, About v (decode item)) (start : Nat) :
    About v (Decoder.itemsFrom decode start items) := by
  induction items generalizing start with
  | nil => exact about_ok
  | cons item rest ih =>
    obtain ⟨hitem, hrest⟩ := List.forall_mem_cons.mp h
    exact (hitem.under (.number start)).map2 (ih hrest (start + 1)) (· :: ·)

/-- A reader whose issues show values in the data only. -/
def Decoder.Local (decoder : Decoder α) : Prop := ∀ source v, About v (decoder source v)

namespace Decoder

theorem local_value : value.Local := fun _ _ => about_ok

theorem local_text : text.Local := by
  intro source v
  unfold text
  split
  · exact about_ok
  · split
    · exact about_ok
    · exact about_fail .undecodableText
  · exact about_fail .notText

theorem local_record : record.Local := by
  intro source v
  unfold record
  split
  · exact about_ok
  · exact about_fail .notRecord

theorem about_integerOfText (s : String) (v : Value) : About v (integerOfText s v) := by
  unfold integerOfText
  split
  · exact about_ok
  · exact about_fail .unreadableInteger
  · exact about_fail .integerTooLong

theorem about_wholeOf (x : Binary64) (v : Value) : About v (wholeOf x v) := by
  unfold wholeOf
  split_ifs
  · exact about_fail .notFinite
  · exact about_fail .fractionalInteger
  · exact about_ok
  · exact about_fail .integerTooLong

theorem local_integer : integer.Local := by
  intro source v
  cases v with
  | int n => exact about_ok
  | bool b => exact about_ok
  | float x => exact about_wholeOf x _
  | decimal d =>
    simp only [integer]
    split_ifs
    · exact about_fail .notFinite
    · split
      · exact about_ok
      · exact about_fail .fractionalInteger
  | text s => exact about_integerOfText s _
  | bytes content =>
    simp only [integer]
    split
    · exact about_integerOfText _ _
    · exact about_fail .unreadableInteger
  | _ => exact about_fail .notInteger

theorem local_count : count.Local := by
  intro source v
  unfold count
  split
  · next issues h => exact about_error (local_integer source v issues h)
  · split
    · exact about_ok
    · exact about_fail (.belowMinimum 0)

theorem local_only (n : Nat) : (only n).Local := by
  intro source v
  unfold only
  split_ifs
  · exact about_ok
  · exact about_fail _

theorem local_choice (options : List (String × α)) : (choice options).Local := by
  intro source v
  unfold choice
  split
  · split
    · exact about_ok
    · exact about_fail _
  · exact about_fail _

variable {decoder : Decoder α}

theorem Local.optional (h : decoder.Local) : (optional decoder).Local := by
  intro source v
  unfold Decoder.optional
  split
  · exact about_ok
  · exact (h source v).map some

theorem Local.list (h : decoder.Local) : (list decoder).Local := by
  intro source v
  unfold Decoder.list items
  split
  · next items =>
    exact about_itemsFrom (fun item hmem => (h source item).within fun _ => .item hmem) 0
  · next items =>
    exact about_itemsFrom (fun item hmem => (h source item).within fun _ => .tupleItem hmem) 0
  · exact about_fail .notList

end Decoder

/-- Readers of members whose issues show values in the record only. -/
def Fields.Local (fields : Fields α) : Prop :=
  ∀ source entries, About (.record entries) (fields.read source entries)

namespace Fields

variable {fields : Fields α} {decoder : Decoder α}

theorem Local.map (h : fields.Local) (f : α → β) : (f <$> fields).Local :=
  fun source entries => (h source entries).map f

theorem Local.seq {functions : Fields (α → β)} (hf : functions.Local) (h : fields.Local) :
    (functions <*> fields).Local :=
  fun source entries => (hf source entries).map2 (h source entries) fun f a => f a

theorem about_member (h : decoder.Local) {source : Source} {entries : Record} {name : String}
    {v : Value} (hv : entries.lookup name = some v) :
    About (.record entries) ((decoder source v).under (.name name)) :=
  ((h source v).within fun _ => .entry (Entries.mem_of_lookup hv)).under (.name name)

theorem local_required (name : String) (h : decoder.Local) : (required name decoder).Local := by
  intro source entries
  unfold required
  dsimp only
  split
  · next v hv => exact about_member h hv
  · exact about_error (List.forall_mem_singleton.mpr .whole)

theorem local_withDefault (name : String) (default : α) (h : decoder.Local) :
    (withDefault name default decoder).Local := by
  intro source entries
  unfold withDefault
  dsimp only
  split
  · next v hv => exact about_member h hv
  · exact about_ok

theorem unexpected_within {names : List String} {entries : Record} :
    ∀ issue ∈ unexpected names entries, issue.input.Within (.record entries) := by
  intro issue hmem
  obtain ⟨⟨name, v⟩, hentry, rfl⟩ := List.mem_map.mp hmem
  exact .entry (List.mem_filter.mp hentry).1 .whole

theorem Local.readAll (h : fields.Local) (source : Source) (entries : Record) :
    About (.record entries) (fields.readAll source entries) := by
  unfold Fields.readAll
  split
  · exact about_ok
  · exact about_error unexpected_within
  · next issues hread =>
    have hissues := h source entries issues hread
    exact about_error (List.forall_mem_append.mpr ⟨hissues, unexpected_within⟩)

end Fields

theorem Fields.Local.decoder {model : Model α} (h : model.fields.Local) : model.decoder.Local := by
  intro source v
  unfold Model.decoder
  split
  · exact h.readAll source _
  · exact about_fail _

theorem Fields.Local.mapped {model : Model α} (h : model.fields.Local) (f : α → β) :
    (model.map f).decoder.Local := Fields.Local.decoder (h.map f)

/-- The tag of data is looked for in the data. -/
theorem Tag.about_find {κ : Type} (name : String) (tags : List (Tag κ)) (v : Value) :
    About v (Tag.find name tags v) := by
  unfold Tag.find
  split
  · split
    · exact about_fail _
    · split
      · exact about_ok
      · exact about_fail _
  · exact about_fail _

theorem Tag.mem_of_find {κ : Type} {name : String} {tags : List (Tag κ)} {v : Value} {tag : Tag κ}
    (h : Tag.find name tags v = .ok tag) : tag ∈ tags := by
  unfold Tag.find at h
  split at h
  · split at h
    · cases h
    · split at h
      · next found =>
        cases h
        exact List.mem_of_find?_eq_some found
      · cases h
  · cases h

end Validation
end SchemaClient
