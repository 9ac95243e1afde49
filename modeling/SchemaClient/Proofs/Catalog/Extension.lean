import SchemaClient.Proofs.Catalog.Discovery
import SchemaClient.Proofs.Catalog.Rows
import SchemaClient.Proofs.Schema.Simplification

/-!
# Longer lists

Names that are added to the lists of numbers and of texts make types simpler and stop nothing: what
a catalog describes under some lists it describes under longer ones, with the same names in the same
places and with simpler types. The order of the rules decides which parts of a type may change.
-/
namespace SchemaClient

open TypeShape (Simplified)

/-- The second lists have every name of the first ones. -/
structure AllowLists.Extended (lists longer : AllowLists) : Prop where
  number : lists.number ⊆ longer.number
  string : lists.string ⊆ longer.string

/-- The second options differ from the first ones at most in having longer lists. -/
structure DiscoveryOptions.Extended (options longer : DiscoveryOptions) : Prop where
  udts : options.udts.Extended longer.udts
  schemaName : longer.schemaName = options.schemaName
  maxConcurrency : longer.maxConcurrency = options.maxConcurrency

theorem namesMatch_mono {known longer names : List String} (h : known ⊆ longer)
    (hmatch : namesMatch known names = true) : namesMatch longer names = true := by
  simp only [namesMatch, List.any_eq_true, List.contains_iff_mem] at hmatch ⊢
  obtain ⟨name, hname, hknown⟩ := hmatch
  exact ⟨name, hname, h hknown⟩

namespace AllowLists

variable {lists longer : AllowLists}

/-- Longer lists leave what a name stands for as it is, or make it a number unless it is a flag, or
a text unless it is a flag or a number. -/
theorem simpleType?_extended (h : lists.Extended longer) (names : List String) :
    longer.simpleType? names = lists.simpleType? names ∨
      (longer.simpleType? names = some .number ∧ lists.simpleType? names ≠ some .boolean) ∨
      (longer.simpleType? names = some .string ∧ lists.simpleType? names ≠ some .boolean ∧
        lists.simpleType? names ≠ some .number) := by
  have hnumber := @namesMatch_mono lists.number longer.number names h.number
  have hstring := @namesMatch_mono lists.string longer.string names h.string
  unfold simpleType?
  by_cases hflag : namesMatch TypeNames.flags names = true
  · simp [hflag]
  by_cases hnumbers :
      (namesMatch TypeNames.numbers names || namesMatch lists.number names) = true
  · have hlonger :
        (namesMatch TypeNames.numbers names || namesMatch longer.number names) = true := by
      simp only [Bool.or_eq_true] at hnumbers ⊢
      exact hnumbers.imp_right hnumber
    simp [hflag, hnumbers, hlonger]
  · by_cases htexts : (namesMatch TypeNames.texts names || namesMatch lists.string names) = true
    · have hlonger :
          (namesMatch TypeNames.texts names || namesMatch longer.string names) = true := by
        simp only [Bool.or_eq_true] at htexts ⊢
        exact htexts.imp_right hstring
      simp only [hflag, hnumbers, htexts, hlonger]
      split_ifs <;> simp
    · simp only [hflag, hnumbers, htexts]
      split_ifs <;> simp

/-- What stands for a type by itself stands for a simpler one under longer lists. -/
theorem simpleType?_extended_of_some (h : lists.Extended longer) {names : List String}
    {type : DraftType} (hfound : lists.simpleType? names = some type) :
    ∃ simpler, longer.simpleType? names = some simpler ∧ type.Simplified simpler := by
  have hcases := simpleType?_extended h names
  simp only [hfound, ne_eq, Option.some.injEq] at hcases
  rcases hcases with hsame | ⟨hlonger, hflag⟩ | ⟨hlonger, hflag, hnumber⟩
  · exact ⟨type, hsame, .same type⟩
  · exact ⟨.number, hlonger, .number hflag⟩
  · exact ⟨.string, hlonger, .text hflag hnumber⟩

/-- What stands for no type by itself still stands for none under longer lists, or for a type that
is simpler than any type but a flag and a number. -/
theorem simpleType?_extended_of_none (h : lists.Extended longer) {names : List String}
    (hfound : lists.simpleType? names = none) :
    longer.simpleType? names = none ∨ ∃ simpler, longer.simpleType? names = some simpler ∧
      ∀ type : DraftType, type ≠ .boolean → type ≠ .number → type.Simplified simpler := by
  rcases simpleType?_extended h names with hsame | ⟨hlonger, -⟩ | ⟨hlonger, -, -⟩
  · exact .inl (hsame.trans hfound)
  · exact .inr ⟨.number, hlonger, fun _ hflag _ => .number hflag⟩
  · exact .inr ⟨.string, hlonger, fun _ hflag hnumber => .text hflag hnumber⟩

theorem element_extended (h : lists.Extended longer) (name : String) :
    ((lists.simpleType? [name]).getD (.reference (.unresolved name))).Simplified
      ((longer.simpleType? [name]).getD (.reference (.unresolved name))) := by
  cases hfound : lists.simpleType? [name] with
  | some type =>
    obtain ⟨simpler, hsimpler, hsimplified⟩ := simpleType?_extended_of_some h hfound
    rw [hsimpler]
    exact hsimplified
  | none =>
    rcases simpleType?_extended_of_none h hfound with hnone | ⟨simpler, hsimpler, hsimplified⟩
    · rw [hnone]
      exact .same _
    · rw [hsimpler]
      exact hsimplified _ nofun nofun

/-- The type of an array changes as a whole, or in its element. -/
theorem arrayType_extended (h : lists.Extended longer) (udtName : List Char) :
    (lists.arrayType udtName).Simplified (longer.arrayType udtName) := by
  fun_induction lists.arrayType udtName with
  | case1 udtName type hfound =>
    obtain ⟨simpler, hsimpler, hsimplified⟩ := simpleType?_extended_of_some h hfound
    rw [arrayType.eq_def longer, hsimpler]
    exact hsimplified
  | case2 hfound rest ih =>
    rcases simpleType?_extended_of_none h hfound with hnone | ⟨simpler, hsimpler, hsimplified⟩
    · rw [arrayType.eq_def longer, hnone]
      exact .element ih
    · rw [arrayType.eq_def longer, hsimpler]
      exact hsimplified _ (by simp) (by simp)
  | case3 hfound element hmark name =>
    rcases simpleType?_extended_of_none h hfound with hnone | ⟨simpler, hsimpler, hsimplified⟩
    · rw [arrayType.eq_def longer, hnone]
      dsimp only
      split
      · next rest => exact (hmark rest rfl).elim
      · exact .element (element_extended h name)
    · rw [arrayType.eq_def longer, hsimpler]
      exact hsimplified _ (by simp) (by simp)

/-- An attribute that has a type has a simpler one under longer lists. -/
theorem typeOf?_extended (h : lists.Extended longer) {dataType : String} {udtName : Option String}
    {type : DraftType} (hfound : lists.typeOf? dataType udtName = some type) :
    ∃ simpler, longer.typeOf? dataType udtName = some simpler ∧ type.Simplified simpler := by
  by_cases harray : dataType = TypeNames.array
  · simp only [typeOf?, harray, if_true] at hfound ⊢
    cases udtName with
    | some name =>
      cases hfound
      exact ⟨_, rfl, arrayType_extended h name.toList⟩
    | none => exact simpleType?_extended_of_some h hfound
  · simp only [typeOf?, harray, if_false] at hfound ⊢
    cases hsimple : lists.simpleType? (dataType :: udtName.toList) with
    | some found =>
      obtain ⟨simpler, hsimpler, hsimplified⟩ := simpleType?_extended_of_some h hsimple
      rw [hsimple] at hfound
      cases hfound
      exact ⟨simpler, by rw [hsimpler], hsimplified⟩
    | none =>
      rw [hsimple] at hfound
      rcases simpleType?_extended_of_none h hsimple with hnone | ⟨simpler, hsimpler, hsimplified⟩
      · rw [hnone]
        exact ⟨type, hfound, .same type⟩
      · rw [hsimpler]
        refine ⟨simpler, rfl, ?_⟩
        simp only at hfound
        split at hfound
        · obtain ⟨name, -, rfl⟩ := Option.map_eq_some_iff.mp hfound
          exact hsimplified _ nofun nofun
        · cases hfound

theorem typeOf_extended (h : lists.Extended longer) {dataType : String}
    {udtName attr : Option String} {type : DraftType}
    (hfound : lists.typeOf dataType udtName attr = .ok type) :
    ∃ simpler, longer.typeOf dataType udtName attr = .ok simpler ∧ type.Simplified simpler := by
  simp only [typeOf_eq_ok] at hfound ⊢
  exact typeOf?_extended h hfound

end AllowLists

open Success

variable {lists longer : AllowLists}

theorem AttributeRow.attr_extended (h : lists.Extended longer) {row : AttributeRow}
    {field : Attribute DraftType} (hfield : row.attr lists = .ok field) :
    ∃ other, row.attr longer = .ok other ∧ field.Alike Simplified other := by
  simp only [attr, bind_eq_ok, pure_eq_ok] at hfield ⊢
  obtain ⟨type, htype, rfl⟩ := hfield
  obtain ⟨simpler, hsimpler, hsimplified⟩ := AllowLists.typeOf_extended h htype
  exact ⟨_, ⟨simpler, hsimpler, rfl⟩, rfl, rfl, rfl, hsimplified⟩

theorem ParameterRow.attr_extended (h : lists.Extended longer) {row : ParameterRow}
    {field : Attribute DraftType} (hfield : row.attr lists = .ok field) :
    ∃ other, row.attr longer = .ok other ∧ field.Alike Simplified other := by
  simp only [attr, bind_eq_ok, pure_eq_ok] at hfield ⊢
  obtain ⟨type, htype, rfl⟩ := hfield
  obtain ⟨simpler, hsimpler, hsimplified⟩ := AllowLists.typeOf_extended h htype
  exact ⟨_, ⟨simpler, hsimpler, rfl⟩, rfl, rfl, rfl, hsimplified⟩

/-- Sorting by keys that related items share keeps related items beside each other. -/
theorem forall₂_mergeSort {α β : Type} {r : α → β → Prop} {le : α → α → Bool} {le' : β → β → Bool}
    (hle : ∀ a b c d, r a b → r c d → le a c = le' b d) {items : List α} {others : List β}
    (h : List.Forall₂ r items others) :
    List.Forall₂ r (items.mergeSort le) (others.mergeSort le') := by
  -- both lists are the sides of one list of pairs, which is sorted once
  obtain ⟨pairs, hpairs, rfl, rfl⟩ : ∃ pairs : List (α × β), (∀ pair ∈ pairs, r pair.1 pair.2) ∧
      pairs.map Prod.fst = items ∧ pairs.map Prod.snd = others := by
    refine ⟨items.zip others, fun pair hpair => List.forall₂_zip h hpair, ?_, ?_⟩
    · exact List.map_fst_zip h.length_eq.le
    · exact List.map_snd_zip h.length_eq.ge
  rw [← List.map_mergeSort (r := fun first second => le first.1 second.1) (fun _ _ _ _ => rfl),
    ← List.map_mergeSort (r := fun first second => le first.1 second.1)
      (fun first hfirst second hsecond =>
        hle _ _ _ _ (hpairs first hfirst) (hpairs second hsecond)),
    List.forall₂_map_left_iff, List.forall₂_map_right_iff, List.forall₂_same]
  exact fun pair hpair => hpairs pair (List.mem_mergeSort.mp hpair)

theorem sortedAttributes_alike {τ σ : Type} {r : τ → σ → Prop} {fields : List (Attribute τ)}
    {others : List (Attribute σ)} (h : List.Forall₂ (Attribute.Alike r) fields others) :
    List.Forall₂ (Attribute.Alike r) (sortedAttributes fields) (sortedAttributes others) := by
  refine forall₂_mergeSort (fun a b c d hab hcd => ?_) h
  rw [hab.order, hcd.order]

namespace Catalog

/-- Where every row that can be read has a counterpart, so have all the rows of a thing. -/
theorem readSorted_counterpart {ρ : Type} {attr other : ρ → Except Problem (Attribute DraftType)}
    {r : DraftType → DraftType → Prop}
    (hattr : ∀ row field, attr row = .ok field → ∃ b, other row = .ok b ∧ field.Alike r b)
    {rows : List ρ} {fields : List (Attribute DraftType)} (h : readSorted attr rows = .ok fields) :
    ∃ others, readSorted other rows = .ok others ∧
      List.Forall₂ (Attribute.Alike r) fields others := by
  obtain ⟨images, himages, rfl⟩ := readSorted_eq_ok_iff.mp h
  obtain ⟨others, hothers, halike⟩ := mapM_counterpart hattr himages
  exact ⟨_, readSorted_eq_ok_iff.mpr ⟨others, hothers, rfl⟩, sortedAttributes_alike halike⟩

theorem attributes_extended (h : lists.Extended longer) {rows : List AttributeRow}
    {fields : List (Attribute DraftType)} (hfields : attributes lists rows = .ok fields) :
    ∃ others, attributes longer rows = .ok others ∧
      List.Forall₂ (Attribute.Alike Simplified) fields others :=
  readSorted_counterpart (fun _ _ => AttributeRow.attr_extended h) hfields

theorem parameters_extended (h : lists.Extended longer) {rows : List ParameterRow}
    {fields : List (Attribute DraftType)} (hfields : parameters lists rows = .ok fields) :
    ∃ others, parameters longer rows = .ok others ∧
      List.Forall₂ (Attribute.Alike Simplified) fields others :=
  readSorted_counterpart (fun _ _ => ParameterRow.attr_extended h) hfields

/-- Whatever is described by a name and attributes is described under longer lists too. -/
theorem described_extended (h : lists.Extended longer) {α : Type} {r : α → α → Prop}
    (describe : String → List (Attribute DraftType) → α)
    (hdescribe : ∀ name fields others, List.Forall₂ (Attribute.Alike Simplified) fields others →
      r (describe name fields) (describe name others))
    {entries : List (String × List AttributeRow)} {found : List α}
    (hfound : entries.mapM (fun entry => do pure (describe entry.1 (← attributes lists entry.2))) =
      Except.ok found) :
    ∃ others, entries.mapM (fun entry => do
      pure (describe entry.1 (← attributes longer entry.2))) = Except.ok others ∧
        List.Forall₂ r found others := by
  refine mapM_counterpart (fun entry a ha => ?_) hfound
  simp only [bind_eq_ok, pure_eq_ok] at ha ⊢
  obtain ⟨fields, hfields, rfl⟩ := ha
  obtain ⟨others, hothers, halike⟩ := attributes_extended h hfields
  exact ⟨_, ⟨others, hothers, rfl⟩, hdescribe _ _ _ halike⟩

theorem compositeTypes_extended (h : lists.Extended longer) {catalog : Catalog}
    {types : List (Composite DraftType)} (htypes : catalog.compositeTypes lists = .ok types) :
    ∃ others, catalog.compositeTypes longer = .ok others ∧
      List.Forall₂ (Composite.Alike Simplified) types others := by
  simp only [compositeTypes, bind_eq_ok] at htypes ⊢
  obtain ⟨names, hnames, fetched, hfetched, htypes⟩ := htypes
  obtain ⟨others, hothers, halike⟩ := described_extended (r := Composite.Alike Simplified) h
    (fun name fields => Composite.mk name (Text.pascalCase name) fields)
    (fun _ _ _ halike => ⟨rfl, rfl, halike⟩) htypes
  exact ⟨others, ⟨names, hnames, fetched, hfetched, hothers⟩, halike⟩

theorem tables_extended (h : lists.Extended longer) {catalog : Catalog}
    {tables : List (Table DraftType)} (htables : catalog.tables lists = .ok tables) :
    ∃ others, catalog.tables longer = .ok others ∧
      List.Forall₂ (Table.Alike Simplified) tables others := by
  simp only [Catalog.tables, bind_eq_ok] at htables ⊢
  obtain ⟨names, hnames, fetched, hfetched, htables⟩ := htables
  obtain ⟨others, hothers, halike⟩ := described_extended (r := Table.Alike Simplified) h
    (fun name fields => Table.mk name (Text.pascalCase name) fields)
    (fun _ _ _ halike => ⟨rfl, rfl, halike⟩) htables
  exact ⟨others, ⟨names, hnames, fetched, hfetched, hothers⟩, halike⟩

theorem functions_extended (h : lists.Extended longer) {catalog : Catalog}
    {functions : List (Routine DraftType)} (hfunctions : catalog.functions lists = .ok functions) :
    ∃ others, catalog.functions longer = .ok others ∧
      List.Forall₂ (Routine.Alike Simplified) functions others := by
  simp only [Catalog.functions, bind_eq_ok] at hfunctions ⊢
  obtain ⟨routines, hroutines, fetched, hfetched, hfunctions⟩ := hfunctions
  suffices hpass : ∃ others, (routines.zip fetched).mapM (fun entry => do
      let parameters ← parameters longer entry.2
      pure ⟨entry.1.name, parameters, ← Failure.ofProblem (entry.1.returnType longer)⟩) =
        Except.ok others ∧ List.Forall₂ (Routine.Alike Simplified) functions others by
    obtain ⟨others, hothers, halike⟩ := hpass
    exact ⟨others, ⟨routines, hroutines, fetched, hfetched, hothers⟩, halike⟩
  refine mapM_counterpart (fun entry f hf => ?_) hfunctions
  simp only [bind_eq_ok, pure_eq_ok, ofProblem_eq_ok] at hf ⊢
  obtain ⟨fields, hfields, type, htype, rfl⟩ := hf
  obtain ⟨others, hothers, halike⟩ := parameters_extended h hfields
  obtain ⟨simpler, hsimpler, hsimplified⟩ := AllowLists.typeOf_extended h htype
  exact ⟨_, ⟨others, hothers, simpler, hsimpler, rfl⟩, rfl, halike, hsimplified⟩

variable {options longerOptions : DiscoveryOptions}

theorem draft_extended (h : options.Extended longerOptions) {catalog : Catalog} {draft : Draft}
    (hdraft : catalog.draft options = .ok draft) :
    ∃ simpler, catalog.draft longerOptions = .ok simpler ∧ draft.Alike Simplified simpler := by
  simp only [Catalog.draft, bind_eq_ok, pure_eq_ok] at hdraft ⊢
  obtain ⟨enums, henums, types, htypes, tables, htables, functions, hfunctions, rfl⟩ := hdraft
  obtain ⟨types', htypes', hcomposites⟩ := compositeTypes_extended h.udts htypes
  obtain ⟨tables', htables', hrelations⟩ := tables_extended h.udts htables
  obtain ⟨functions', hfunctions', hroutines⟩ := functions_extended h.udts hfunctions
  exact ⟨⟨enums, types', tables', functions'⟩,
    ⟨enums, henums, types', htypes', tables', htables', functions', hfunctions', rfl⟩,
    rfl, hcomposites, hrelations, hroutines⟩

/-- A catalog that can be discovered can be discovered with longer lists too: everything has the
same names, places and nullability, and each type is as it was or has one part taken for a number or
a text. -/
theorem discover_extended (catalog : Catalog) (h : options.Extended longerOptions) {s : Schema}
    (hdiscover : catalog.discover options = .ok s) :
    ∃ simpler, catalog.discover longerOptions = .ok simpler ∧ s.Alike Simplified simpler := by
  simp only [discover, bind_eq_ok, pure_eq_ok, ofProblem_eq_ok] at hdiscover ⊢
  obtain ⟨draft, hdraft, resolution, hresolution, rfl⟩ := hdiscover
  obtain ⟨simpler, hsimpler, halike⟩ := draft_extended h hdraft
  obtain ⟨other, hother, hschemas⟩ :=
    Draft.resolve_of_alike halike (draft_coherent hdraft) (draft_coherent hsimpler) hresolution
  exact ⟨other.schema, ⟨simpler, hsimpler, other, hother, rfl⟩, hschemas⟩

/-- A catalog of shops with any number of rows of prices, and of doors that are open or not. -/
def shops : Catalog where
  enumLabels := .ok [⟨"currency", "euro", .zero⟩]
  typeNames := .ok ["price"]
  typeAttributes _ := .ok [⟨"amount", 1, false, "numeric", some "cents"⟩]
  tableNames := .ok ["shop", "door"]
  tableColumns name :=
    if name = "shop" then .ok [⟨"prices", 1, true, "ARRAY", some "__price"⟩]
    else .ok [⟨"open", 1, false, "boolean", some "cents"⟩]
  routines := .ok [⟨"since", "since_1", "date", some "day"⟩]
  routineParameters _ := .ok [⟨none, 1, "text", some "cents"⟩]

/-- The types of what is discovered, slot by slot. -/
def discoveredTypes (catalog : Catalog) (options : DiscoveryOptions) : Option (List DataType) :=
  (catalog.discover options).toOption.map fun s => s.slots.map (·.type)

/-- With longer lists the prices are texts, still in rows, and a text and a date are numbers; the
flag and the number stay. -/
theorem discover_shops_extended :
    shops.discoveredTypes ⟨.empty, "public", 4⟩ = some
      [.number, .array (.array (.reference (.composite "price"))), .boolean, .string, .date] ∧
    shops.discoveredTypes ⟨⟨["cents", "day"], ["cents", "price"]⟩, "public", 4⟩ = some
      [.number, .array (.array .string), .boolean, .number, .number] ∧
    ∃ s simpler, shops.discover ⟨.empty, "public", 4⟩ = .ok s ∧
      shops.discover ⟨⟨["cents", "day"], ["cents", "price"]⟩, "public", 4⟩ = .ok simpler ∧
      s.Alike Simplified simpler := by
  have hextended : DiscoveryOptions.Extended ⟨.empty, "public", 4⟩
      ⟨⟨["cents", "day"], ["cents", "price"]⟩, "public", 4⟩ :=
    ⟨⟨List.nil_subset _, List.nil_subset _⟩, rfl, rfl⟩
  obtain ⟨s, hs⟩ : ∃ s, shops.discover ⟨.empty, "public", 4⟩ = .ok s :=
    exists_of_toBool (by decide +kernel)
  obtain ⟨simpler, hsimpler, halike⟩ := discover_extended shops hextended hs
  exact ⟨by decide +kernel, by decide +kernel, s, simpler, hs, hsimpler, halike⟩

end Catalog
end SchemaClient
