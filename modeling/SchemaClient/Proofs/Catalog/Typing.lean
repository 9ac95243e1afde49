import SchemaClient.Catalog.Typing
import SchemaClient.Proofs.Schema.Slots
import SchemaClient.Proofs.Success

/-!
# Types that rows are given

The rules invent no references: whatever a row is given a type, the type refers at most to a name
that is still to be looked up.
-/
namespace SchemaClient

/-- The type refers to nothing but names that are still to be looked up. -/
def DraftType.NamesOnly (type : DraftType) : Prop :=
  ∀ target, ¬ TypeShape.Mentions (.known target) type

theorem DraftType.NamesOnly.array {element : DraftType} (h : NamesOnly element) :
    NamesOnly (.array element) := by
  intro target hmention
  cases hmention with
  | element hmention => exact h target hmention

theorem DraftType.namesOnly_unresolved (name : String) :
    NamesOnly (.reference (.unresolved name)) := by
  intro target hmention
  cases hmention

namespace AllowLists

theorem simpleType?_namesOnly {lists : AllowLists} {names : List String} {type : DraftType}
    (h : lists.simpleType? names = some type) : type.NamesOnly := by
  intro target hmention
  rw [simpleType?] at h
  split_ifs at h <;> cases h <;> cases hmention

theorem element_namesOnly (lists : AllowLists) (name : String) :
    ((lists.simpleType? [name]).getD (.reference (.unresolved name))).NamesOnly := by
  cases h : lists.simpleType? [name] with
  | none => exact DraftType.namesOnly_unresolved name
  | some type => exact simpleType?_namesOnly h

theorem arrayType_namesOnly (lists : AllowLists) (udtName : List Char) :
    (lists.arrayType udtName).NamesOnly := by
  fun_induction lists.arrayType udtName with
  | case1 _ type h => exact simpleType?_namesOnly h
  | case2 _ rest ih => exact ih.array
  | case3 _ element _ name => exact (element_namesOnly lists name).array

theorem typeOf?_namesOnly {lists : AllowLists} {dataType : String} {udtName : Option String}
    {type : DraftType} (h : lists.typeOf? dataType udtName = some type) : type.NamesOnly := by
  unfold typeOf? at h
  split at h
  · cases udtName with
    | some name =>
      cases h
      exact arrayType_namesOnly lists name.toList
    | none => exact simpleType?_namesOnly h
  · split at h
    · next hsimple =>
      cases h
      exact simpleType?_namesOnly hsimple
    · split at h
      · obtain ⟨name, -, rfl⟩ := Option.map_eq_some_iff.mp h
        exact DraftType.namesOnly_unresolved name
      · cases h

theorem typeOf_namesOnly {lists : AllowLists} {dataType : String}
    {udtName attr : Option String} {type : DraftType}
    (h : lists.typeOf dataType udtName attr = .ok type) : type.NamesOnly := by
  rw [typeOf] at h
  split at h
  · next hfound =>
    cases h
    exact typeOf?_namesOnly hfound
  · cases h

end AllowLists

theorem AttributeRow.attr_namesOnly {lists : AllowLists} {row : AttributeRow}
    {field : Attribute DraftType} (h : row.attr lists = .ok field) : field.type.NamesOnly := by
  simp only [attr, Success.bind_eq_ok, Success.pure_eq_ok] at h
  obtain ⟨type, htype, rfl⟩ := h
  exact AllowLists.typeOf_namesOnly htype

theorem ParameterRow.attr_namesOnly {lists : AllowLists} {row : ParameterRow}
    {field : Attribute DraftType} (h : row.attr lists = .ok field) : field.type.NamesOnly := by
  simp only [attr, Success.bind_eq_ok, Success.pure_eq_ok] at h
  obtain ⟨type, htype, rfl⟩ := h
  exact AllowLists.typeOf_namesOnly htype

end SchemaClient
