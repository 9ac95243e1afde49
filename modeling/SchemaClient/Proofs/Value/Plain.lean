import SchemaClient.Proofs.Json.RoundTrip

/-!
# Plain values

Values that JSON has words for: null, flags, whole numbers, texts, and lists and records of plain
values. What is sent for a plain value is read back as that value.
-/
namespace SchemaClient.Value

open Json (NumberLimit Fits)

/-- A plain value with numbers that are read and with at most so many levels of lists and records;
an empty one takes no level. -/
inductive Plain (numbers : NumberLimit) : Nat → Value → Prop where
  | null (levels : Nat) : Plain numbers levels .null
  | bool (levels : Nat) (b : Bool) : Plain numbers levels (.bool b)
  | int (levels : Nat) {n : Int} (h : numbers.Admits n) : Plain numbers levels (.int n)
  | text (levels : Nat) (s : String) : Plain numbers levels (.text s)
  | emptyList (levels : Nat) : Plain numbers levels (.list [])
  | emptyRecord (levels : Nat) : Plain numbers levels (.record [])
  | list {levels : Nat} {items : List Value} (h : ∀ item ∈ items, Plain numbers levels item) :
    Plain numbers (levels + 1) (.list items)
  | record {levels : Nat} {entries : Record} (hnames : (Entries.names entries).Nodup)
    (h : ∀ entry ∈ entries, Plain numbers levels entry.2) :
    Plain numbers (levels + 1) (.record entries)

variable {numbers : NumberLimit} {levels : Nat}

/-- What is sent for a value: JSON that stands for the value and can be read. -/
def SentAs (numbers : NumberLimit) (levels : Nat) (v : Value) (json : Json) : Prop :=
  v.toJson? = some json ∧ json.toValue = v ∧ Fits numbers levels json

theorem exists_jsons {items : List Value}
    (h : ∀ item ∈ items, ∃ json, SentAs numbers levels item json) :
    ∃ jsons, toJsons? items = some jsons ∧ Json.toValues jsons = items ∧
      ∀ json ∈ jsons, Fits numbers levels json := by
  induction items with
  | nil => exact ⟨[], rfl, rfl, List.forall_mem_nil _⟩
  | cons item rest ih =>
    obtain ⟨⟨json, hjson, hvalue, hfits⟩, hrest⟩ := List.forall_mem_cons.mp h
    obtain ⟨jsons, hjsons, hvalues, hall⟩ := ih hrest
    refine ⟨json :: jsons, ?_, ?_, List.forall_mem_cons.mpr ⟨hfits, hall⟩⟩
    · rw [toJsons?, hjson, hjsons]
    · rw [Json.toValues, hvalue, hvalues]

theorem exists_members {entries : Record}
    (h : ∀ entry ∈ entries, ∃ json, SentAs numbers levels entry.2 json) :
    ∃ members, toMembers? entries = some members ∧ Json.toEntries members = entries ∧
      Entries.names members = Entries.names entries ∧
      ∀ entry ∈ members, Fits numbers levels entry.2 := by
  induction entries with
  | nil => exact ⟨[], rfl, rfl, rfl, List.forall_mem_nil _⟩
  | cons entry rest ih =>
    obtain ⟨name, v⟩ := entry
    obtain ⟨⟨json, hjson, hvalue, hfits⟩, hrest⟩ := List.forall_mem_cons.mp h
    obtain ⟨members, hmembers, hentries, hnames, hall⟩ := ih hrest
    refine ⟨(name, json) :: members, ?_, ?_, ?_, List.forall_mem_cons.mpr ⟨hfits, hall⟩⟩
    · rw [toMembers?, hjson, hmembers]
    · rw [Json.toEntries, hvalue, hentries]
    · rw [Entries.names, List.map_cons, ← Entries.names, hnames]
      rfl

/-- A plain value is sent as JSON that stands for it, with as many levels. -/
theorem Plain.exists_sentAs {v : Value} (h : Plain numbers levels v) :
    ∃ json, SentAs numbers levels v json := by
  induction h with
  | null => exact ⟨.null, rfl, rfl, .null _⟩
  | bool _ b => exact ⟨.bool b, rfl, rfl, .bool _ b⟩
  | @int _ n hn => exact ⟨.int n, rfl, rfl, .int _ hn⟩
  | text _ s => exact ⟨.string s, rfl, rfl, .string _ s⟩
  | emptyList => exact ⟨.array [], rfl, rfl, .emptyArray _⟩
  | emptyRecord => exact ⟨.object [], rfl, rfl, .emptyObject _⟩
  | @list _ items _ ih =>
    obtain ⟨jsons, hjsons, hvalues, hfits⟩ := exists_jsons ih
    refine ⟨.array jsons, ?_, ?_, .array hfits⟩
    · rw [toJson?, hjsons, Option.map_some]
    · rw [Json.toValue, hvalues]
  | @record _ entries hnames _ ih =>
    obtain ⟨members, hmembers, hentries, hsame, hfits⟩ := exists_members ih
    refine ⟨.object members, ?_, ?_, .object (hsame ▸ hnames) hfits⟩
    · rw [toJson?, hmembers, Option.map_some]
    · rw [Json.toValue, hentries]

theorem plain_texts (texts : List String) : Plain numbers (levels + 1) (Value.texts texts) := by
  refine .list fun item hmem => ?_
  obtain ⟨s, -, rfl⟩ := List.mem_map.mp hmem
  exact .text _ s

end SchemaClient.Value
