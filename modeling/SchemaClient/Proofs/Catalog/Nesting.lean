import SchemaClient.Proofs.Catalog.Markers
import SchemaClient.Schema.Resolution

/-!
# Arrays of arrays

The underlying name of an array has one mark for each further array in front of the name of the
elements. The rules take off one mark for each array that they make, none is left over, and what is
looked up in the end is the whole name of the elements, whatever that name is.
-/
namespace SchemaClient

open TypeNames (IsMarked elementMark)

/-- A type under a number of arrays. -/
def TypeShape.nested {ρ : Type} : Nat → TypeShape ρ → TypeShape ρ
  | 0, type => type
  | depth + 1, type => .array (nested depth type)

/-- A name with a number of marks in front. -/
def TypeNames.marked (marks : Nat) (name : String) : String :=
  String.ofList (List.replicate marks elementMark) ++ name

open TypeNames (marked)

theorem toList_marked_succ (marks : Nat) (name : String) :
    (marked (marks + 1) name).toList = '_' :: (marked marks name).toList := by
  rw [marked, marked, String.toList_append, String.toList_append, String.toList_ofList,
    String.toList_ofList, List.replicate_succ]
  rfl

theorem marked_zero (name : String) : marked 0 name = name := by
  rw [marked, List.replicate_zero, String.ofList_nil, String.empty_append]

namespace AllowLists

variable {lists : AllowLists} {name : String}

/-- Without an underlying name a raw type is what it stands for by itself. -/
theorem typeOf?_none (lists : AllowLists) (dataType : String) :
    lists.typeOf? dataType none = lists.simpleType? [dataType] := by
  rw [typeOf?]
  split
  · next harray => rw [harray]
  · rw [Option.toList_none]
    cases lists.simpleType? [dataType] <;> simp

/-- The type of the elements of an array by their own name, which is looked up later unless a rule
knows it. -/
def elementType (lists : AllowLists) (name : String) : DraftType :=
  (lists.typeOf? name none).getD (.reference (.unresolved name))

/-- Each mark is an array more, and the last array is that of the elements. -/
theorem arrayType_marked (harray : lists.Lacks TypeNames.array) (hname : ¬ IsMarked name)
    (marks : Nat) : lists.arrayType (marked marks name).toList =
      .nested (marks + 1) (lists.elementType name) := by
  induction marks with
  | zero =>
    rw [marked_zero, arrayType_element harray hname, elementType, typeOf?_none]
    rfl
  | succ marks ih =>
    rw [toList_marked_succ, arrayType_mark harray, ih]
    rfl

/-- Whatever its underlying name, an array is given a type. -/
theorem typeOf_array (harray : lists.Lacks TypeNames.array) (udtName : String)
    (attr : Option String) :
    ∃ element, lists.typeOf TypeNames.array (some udtName) attr = .ok (.array element) := by
  obtain ⟨element, helement⟩ := exists_arrayType harray udtName.toList
  refine ⟨element, ?_⟩
  rw [typeOf, typeOf?_array, helement]

end AllowLists

/-- A name is looked up as it is, under any number of arrays. -/
theorem DraftType.resolve_nested (names : KnownNames) (name : String) (depth : Nat) :
    DraftType.resolve names (.nested depth (.reference (.unresolved name))) =
      match names.find? name with
      | some target => .ok (.nested depth (.reference target), true)
      | none => .error name := by
  induction depth with
  | zero =>
    rw [TypeShape.nested, resolve]
    cases names.find? name <;> rfl
  | succ depth ih =>
    rw [TypeShape.nested, resolve, ih]
    cases names.find? name <;> rfl

/-- **Arrays are counted exactly.** If no list has the raw type of arrays, a name of elements with
any number of marks in front gives that many arrays and one more, around what the name stands for
by itself or, if that is nothing, around the name. So no array with an underlying name is without
a type, and a name that stands for nothing by itself is looked up whole, no mark in it or gone. -/
theorem AllowLists.array_counts_marks {lists : AllowLists} {name : String}
    (harray : lists.Lacks TypeNames.array) (hname : ¬ IsMarked name) :
    (∀ marks, lists.typeOf? TypeNames.array (some (marked marks name)) =
      some (.nested (marks + 1)
        ((lists.typeOf? name none).getD (.reference (.unresolved name))))) ∧
    (∀ udtName attr, ∃ element,
      lists.typeOf TypeNames.array (some udtName) attr = .ok (.array element)) ∧
    ∀ marks names type, lists.typeOf? name none = none →
      lists.typeOf? TypeNames.array (some (marked marks name)) = some type →
      DraftType.resolve names type =
        match names.find? name with
        | some target => .ok (.nested (marks + 1) (.reference target), true)
        | none => .error name := by
  have hmarked : ∀ marks, lists.typeOf? TypeNames.array (some (marked marks name)) =
      some (.nested (marks + 1) (lists.elementType name)) := by
    intro marks
    rw [typeOf?_array, arrayType_marked harray hname]
  refine ⟨hmarked, typeOf_array harray, ?_⟩
  intro marks names type hnone htype
  rw [hmarked, elementType, hnone, Option.getD_none, Option.some.injEq] at htype
  rw [← htype, DraftType.resolve_nested]

/-- A mood, three arrays deep, beside lists that know neither moods nor arrays. -/
theorem AllowLists.array_counts_marks_mood :
    ((⟨["amount"], ["label"]⟩ : AllowLists).Lacks TypeNames.array ∧ ¬ IsMarked "mood") ∧
    ∃ type, (⟨["amount"], ["label"]⟩ : AllowLists).typeOf? TypeNames.array (some "__mood") =
        some type ∧
      type = .array (.array (.array (.reference (.unresolved "mood")))) ∧
      DraftType.resolve ⟨["address"], ["mood", "_mood"]⟩ type =
        .ok (.array (.array (.array (.reference (.enum "mood")))), true) := by
  have harray : (⟨["amount"], ["label"]⟩ : AllowLists).Lacks TypeNames.array :=
    ⟨by decide, by decide⟩
  have hname : ¬ IsMarked "mood" := by rw [IsMarked]; decide
  obtain ⟨hnested, -, hresolve⟩ := array_counts_marks harray hname
  have hnone : (⟨["amount"], ["label"]⟩ : AllowLists).typeOf? "mood" none = none := by
    decide +kernel
  have hmarked : marked 2 "mood" = "__mood" := by decide
  have htype := hnested 2
  have hlooked := hresolve 2 ⟨["address"], ["mood", "_mood"]⟩ _ hnone htype
  rw [hmarked, hnone] at htype
  rw [hnone] at hlooked
  exact ⟨⟨harray, hname⟩, _, htype, rfl, hlooked⟩

end SchemaClient
