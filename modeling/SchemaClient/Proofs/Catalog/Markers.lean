import Mathlib.Data.List.Infix
import SchemaClient.Proofs.Catalog.Typing

/-!
# Markers in the names of types

A name of a type may start with the mark of an array or end like the name of a domain without null,
and such markers are taken off before the rules see the name. A user's own name without markers
comes through as it is: alone and as the name of the elements of an array. A name that starts with
the mark does not.
-/
namespace SchemaClient

namespace TypeNames

def builtIn : List String := flags ++ numbers ++ texts ++ dates

/-- A name that starts like that of an array. -/
def IsMarked (name : String) : Prop := name.toList.head? = some elementMark

/-- A name that ends like that of a domain without null. -/
def IsNotNull (name : String) : Prop := notNullSuffix <:+ name.toList

end TypeNames

namespace AllowLists

/-- A name is in none of the lists. -/
structure Lacks (lists : AllowLists) (name : String) : Prop where
  number : name ∉ lists.number
  string : name ∉ lists.string

/-- A name that the rules leave to the user: of no built-in type, in no list, and not ending like
that of a domain without null. -/
structure IsOwn (lists : AllowLists) (name : String) : Prop where
  notBuiltIn : name ∉ TypeNames.builtIn
  unlisted : lists.Lacks name
  nullable : ¬ TypeNames.IsNotNull name

variable {lists : AllowLists} {name : String}

theorem namesMatch_eq_false_iff {known names : List String} :
    namesMatch known names = false ↔ ∀ name ∈ names, name ∉ known := by
  simp [namesMatch]

theorem simpleType?_eq_none {names : List String}
    (h : ∀ name ∈ names, name ∉ TypeNames.builtIn ∧ lists.Lacks name) :
    lists.simpleType? names = none := by
  have hmatch {known : List String} (hknown : ∀ name ∈ names, name ∉ known) :
      namesMatch known names = false := namesMatch_eq_false_iff.mpr hknown
  simp only [TypeNames.builtIn, List.mem_append, not_or] at h
  rw [simpleType?, hmatch fun name hname => (h name hname).1.1.1.1,
    hmatch fun name hname => (h name hname).1.1.1.2,
    hmatch fun name hname => (h name hname).2.number,
    hmatch fun name hname => (h name hname).1.1.2,
    hmatch fun name hname => (h name hname).2.string, hmatch fun name hname => (h name hname).1.2]
  rfl

theorem simpleType?_ne_reference {names : List String} (target : Reference) :
    lists.simpleType? names ≠ some (.reference target) := by
  rw [simpleType?]
  split_ifs <;> simp

theorem simpleType?_array (harray : lists.Lacks TypeNames.array) :
    lists.simpleType? [TypeNames.array] = none :=
  simpleType?_eq_none (List.forall_mem_singleton.mpr ⟨by decide, harray⟩)

/-- A mark in front makes a further array. -/
theorem arrayType_mark (harray : lists.Lacks TypeNames.array) (rest : List Char) :
    lists.arrayType ('_' :: rest) = .array (lists.arrayType rest) := by
  rw [arrayType, simpleType?_array harray]

/-- Without a mark in front the whole name is that of the elements. -/
theorem arrayType_element (harray : lists.Lacks TypeNames.array) (h : ¬ TypeNames.IsMarked name) :
    lists.arrayType name.toList =
      .array ((lists.simpleType? [name]).getD (.reference (.unresolved name))) := by
  rw [arrayType.eq_def]
  simp only [simpleType?_array harray]
  split
  · next rest hname => exact absurd (by rw [TypeNames.IsMarked, hname]; rfl) h
  · rw [String.ofList_toList]

/-- What is told to be an array is one. -/
theorem exists_arrayType (harray : lists.Lacks TypeNames.array) (udtName : List Char) :
    ∃ element, lists.arrayType udtName = .array element := by
  rw [arrayType.eq_def]
  simp only [simpleType?_array harray]
  split <;> exact ⟨_, rfl⟩

theorem typeOf?_array (udtName : String) :
    lists.typeOf? TypeNames.array (some udtName) = some (lists.arrayType udtName.toList) := by
  rw [typeOf?, if_pos rfl]

theorem typeOf?_userDefined (udtName : String) :
    lists.typeOf? TypeNames.userDefined (some udtName) =
      some ((lists.simpleType? [TypeNames.userDefined, udtName]).getD
        (.reference (.unresolved udtName))) := by
  have hne : TypeNames.userDefined ≠ TypeNames.array := by decide
  rw [typeOf?, if_neg hne, Option.toList_some]
  cases lists.simpleType? [TypeNames.userDefined, udtName] with
  | some type => rfl
  | none => rfl

theorem getD_simpleType?_eq_reference {names : List String} {target other : Reference}
    (h : (lists.simpleType? names).getD (.reference target) = .reference other) :
    target = other := by
  cases hsimple : lists.simpleType? names with
  | none =>
    rw [hsimple] at h
    exact TypeShape.reference.inj h
  | some type =>
    rw [hsimple, Option.getD_some] at h
    exact absurd (h ▸ hsimple) (simpleType?_ne_reference other)

end AllowLists

open TypeNames (IsMarked IsNotNull notNullSuffix)

theorem dropSuffix?_of_not {suffix text : List Char} (h : ¬ suffix <:+ text) :
    dropSuffix? suffix text = none := by
  rw [dropSuffix?, if_neg]
  rwa [List.isSuffixOf_iff_suffix]

theorem dropElementMark_of_not {name : String} (h : ¬ IsMarked name) :
    dropElementMark name.toList = name.toList := by
  unfold dropElementMark
  split
  · next c rest hname =>
    rw [if_neg]
    rintro rfl
    exact h (by rw [IsMarked, hname]; rfl)
  · next hname => rw [hname]

theorem normalizeName_of_not {name : String} (nullable : Bool) (h : ¬ IsNotNull name) :
    (normalizeName (some name) nullable).1 = some (String.ofList (dropElementMark name.toList)) := by
  rw [normalizeName, dropSuffix?_of_not h]

theorem toList_mark (name : String) : ("_" ++ name).toList = '_' :: name.toList := by
  rw [String.toList_append]
  rfl

/-- With the mark of an array in front, one more name ends like that of a domain without null. -/
theorem isNotNull_mark_iff {name : String} :
    IsNotNull ("_" ++ name) ↔ name = "not_null" ∨ IsNotNull name := by
  have hsuffix : notNullSuffix = '_' :: "not_null".toList := by decide
  rw [IsNotNull, toList_mark, List.suffix_cons_iff, hsuffix, List.cons.injEq, String.toList_inj,
    ← hsuffix, eq_comm, IsNotNull]
  simp [eq_comm]

namespace AllowLists

variable {lists : AllowLists} {name : String}

/-- A user's own name is what is looked up, unless it starts with the mark of an array. -/
theorem typeOf?_single (hsingle : lists.Lacks TypeNames.userDefined) (hown : lists.IsOwn name)
    {nullable : Bool} {type : DraftType}
    (h : lists.typeOf? TypeNames.userDefined (normalizeName (some name) nullable).1 = some type) :
    type = .reference (.unresolved name) ↔ ¬ IsMarked name := by
  rw [normalizeName_of_not nullable hown.nullable, typeOf?_userDefined, Option.some.injEq] at h
  constructor
  · rintro rfl hmarked
    have hname := getD_simpleType?_eq_reference h
    obtain ⟨rest, hrest⟩ := List.head?_eq_some_iff.mp hmarked
    have hshorter := congrArg String.toList (Reference.unresolved.inj hname)
    rw [String.toList_ofList, hrest, dropElementMark, if_pos rfl] at hshorter
    exact List.ne_cons_self hshorter
  · intro hmarked
    have hnone : lists.simpleType? [TypeNames.userDefined, name] = none :=
      simpleType?_eq_none (List.forall_mem_cons.mpr
        ⟨⟨by decide, hsingle⟩, List.forall_mem_singleton.mpr ⟨hown.notBuiltIn, hown.unlisted⟩⟩)
    rw [dropElementMark_of_not hmarked, String.ofList_toList, hnone] at h
    exact h.symm

/-- A user's own name is what is looked up for the elements of an array, unless it starts with a
mark itself or is the ending of a domain without null once the mark stands in front. -/
theorem typeOf?_elements (harray : lists.Lacks TypeNames.array) (hown : lists.IsOwn name)
    {nullable : Bool} {type : DraftType}
    (h : lists.typeOf? TypeNames.array (normalizeName (some ("_" ++ name)) nullable).1 =
      some type) :
    type = .array (.reference (.unresolved name)) ↔ ¬ IsMarked name ∧ name ≠ "not_null" := by
  by_cases hending : name = "not_null"
  · -- what is left of the name is empty, and so is the name that is looked up
    subst hending
    have hrest : (normalizeName (some ("_" ++ "not_null")) nullable).1 = some "" := rfl
    have hempty : ¬ IsMarked "" := by rw [IsMarked]; decide
    rw [hrest, typeOf?_array, arrayType_element harray hempty, Option.some.injEq] at h
    constructor
    · rintro rfl
      have hname := getD_simpleType?_eq_reference (TypeShape.array.inj h)
      exact absurd hname (by decide)
    · rintro ⟨-, hne⟩
      exact absurd rfl hne
  · have hnullable : ¬ IsNotNull ("_" ++ name) := by
      rw [isNotNull_mark_iff, not_or]
      exact ⟨hending, hown.nullable⟩
    have hdrop : dropElementMark ("_" ++ name).toList = name.toList := by
      rw [toList_mark]
      rfl
    rw [normalizeName_of_not nullable hnullable, hdrop, String.ofList_toList, typeOf?_array,
      Option.some.injEq] at h
    constructor
    · rintro rfl
      refine ⟨fun hmarked => ?_, hending⟩
      obtain ⟨rest, hrest⟩ := List.head?_eq_some_iff.mp hmarked
      obtain ⟨element, helement⟩ := exists_arrayType harray rest
      rw [hrest, TypeNames.elementMark, arrayType_mark harray, helement] at h
      cases h
    · rintro ⟨hmarked, -⟩
      have hnone : lists.simpleType? [name] = none :=
        simpleType?_eq_none (List.forall_mem_singleton.mpr ⟨hown.notBuiltIn, hown.unlisted⟩)
      rw [arrayType_element harray hmarked, hnone] at h
      exact h.symm

end AllowLists
end SchemaClient
