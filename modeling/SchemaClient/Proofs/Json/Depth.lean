import SchemaClient.Proofs.Json.RoundTrip

/-!
# How deep JSON values are

The levels of a value are the arrays and objects inside each other. A value with finite numbers and
distinct names that is not too deep for a reader is read back from its text.
-/
namespace SchemaClient.Json

mutual

/-- How many arrays and objects stand inside each other; an empty one does not count. -/
def depth : Json → Nat
  | .array items => if items.isEmpty then 0 else itemsDepth items + 1
  | .object members => if members.isEmpty then 0 else membersDepth members + 1
  | _ => 0

def itemsDepth : List Json → Nat
  | [] => 0
  | item :: rest => max (depth item) (itemsDepth rest)

def membersDepth : List (String × Json) → Nat
  | [] => 0
  | (_, member) :: rest => max (depth member) (membersDepth rest)

end

variable {numbers : NumberLimit}

theorem depth_le_of_mem {items : List Json} {item : Json} (h : item ∈ items) :
    item.depth ≤ itemsDepth items := by
  induction items with
  | nil => cases h
  | cons first rest ih =>
    rw [itemsDepth]
    rcases List.mem_cons.mp h with rfl | hrest
    · exact Nat.le_max_left _ _
    · exact Nat.le_trans (ih hrest) (Nat.le_max_right _ _)

theorem depth_le_of_mem_members {members : List (String × Json)} {entry : String × Json}
    (h : entry ∈ members) : entry.2.depth ≤ membersDepth members := by
  induction members with
  | nil => cases h
  | cons first rest ih =>
    rw [membersDepth]
    rcases List.mem_cons.mp h with rfl | hrest
    · exact Nat.le_max_left _ _
    · exact Nat.le_trans (ih hrest) (Nat.le_max_right _ _)

/-- A reader may allow more levels than there are. -/
theorem Fits.mono {levels : Nat} {json : Json} (h : Fits numbers levels json) {more : Nat}
    (hle : levels ≤ more) : Fits numbers more json := by
  induction h generalizing more with
  | null => exact .null more
  | bool _ b => exact .bool more b
  | int _ hn => exact .int more hn
  | float _ hfinite hroom => exact .float more hfinite hroom
  | string _ s => exact .string more s
  | emptyArray => exact .emptyArray more
  | emptyObject => exact .emptyObject more
  | array _ ih =>
    obtain ⟨more, rfl⟩ : ∃ k, more = k + 1 := ⟨more - 1, by omega⟩
    exact .array fun item hmem => ih item hmem (by omega)
  | object hnames _ ih =>
    obtain ⟨more, rfl⟩ : ∃ k, more = k + 1 := ⟨more - 1, by omega⟩
    exact .object hnames fun entry hmem => ih entry hmem (by omega)

/-- A value that every reader reads back that goes into its levels. -/
def IsPlain (numbers : NumberLimit) (json : Json) : Prop := Fits numbers json.depth json

theorem IsPlain.fits {json : Json} (h : json.IsPlain numbers) {levels : Nat}
    (hlevels : json.depth ≤ levels) : Fits numbers levels json :=
  h.mono hlevels

theorem isPlain_string (s : String) : (Json.string s).IsPlain numbers := .string _ s

theorem isPlain_bool (b : Bool) : (Json.bool b).IsPlain numbers := .bool _ b

theorem isPlain_int {n : Int} (h : numbers.Admits n) : (Json.int n).IsPlain numbers := .int _ h

theorem isPlain_float {x : Binary64} (hfinite : x.isFinite) (hroom : numbers.HasRoom) :
    (Json.float x).IsPlain numbers :=
  .float _ hfinite hroom

theorem isPlain_array {items : List Json} (h : ∀ item ∈ items, item.IsPlain numbers) :
    (Json.array items).IsPlain numbers := by
  cases items with
  | nil => exact .emptyArray _
  | cons first rest =>
    rw [IsPlain, depth, if_neg (by simp)]
    exact .array fun item hmem => (h item hmem).mono (depth_le_of_mem hmem)

theorem isPlain_object {members : List (String × Json)} (hnames : (Entries.names members).Nodup)
    (h : ∀ entry ∈ members, entry.2.IsPlain numbers) : (Json.object members).IsPlain numbers := by
  cases members with
  | nil => exact .emptyObject _
  | cons first rest =>
    rw [IsPlain, depth, if_neg (by simp)]
    exact .object hnames fun entry hmem => (h entry hmem).mono (depth_le_of_mem_members hmem)

theorem isPlain_texts {texts : List (String × String)} (hnames : (Entries.names texts).Nodup) :
    (Json.texts texts).IsPlain numbers := by
  have hsame : Entries.names (texts.map fun entry => (entry.1, Json.string entry.2)) =
      Entries.names texts := by
    rw [Entries.names, Entries.names, List.map_map]
    rfl
  refine isPlain_object (hsame ▸ hnames) ?_
  rw [List.forall_mem_map]
  exact fun entry _ => isPlain_string entry.2

end SchemaClient.Json
