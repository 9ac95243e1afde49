import SchemaClient.Json.Reader
import SchemaClient.Json.Writer
import SchemaClient.Proofs.Number.Digits

/-!
# Whole numbers that are written and read

The text of a whole number is read back as the number, in front of whatever can follow a value
inside an array or an object, as long as the limit allows a number of its length.
-/
namespace SchemaClient.Json

open Numerals (digitsValue_repr eq_zero_of_head)
open Runs (Stops stops_cons takeWhile_run repr_isDigit repr_ne_nil)

/-- What can follow a value: nothing, what separates or ends the parts of arrays and objects, or the
end of a line. -/
def Follows (rest : List Char) : Prop :=
  ∀ c ∈ rest.head?, c = ',' ∨ c = ']' ∨ c = '\x7d' ∨ c = '\n'

theorem follows_nil : Follows [] := by
  intro c hc
  cases hc

theorem follows_comma (rest : List Char) : Follows (',' :: rest) := by
  intro c hc
  cases hc
  exact .inl rfl

theorem follows_bracket (rest : List Char) : Follows (']' :: rest) := by
  intro c hc
  cases hc
  exact .inr (.inl rfl)

theorem follows_brace (rest : List Char) : Follows ('\x7d' :: rest) := by
  intro c hc
  cases hc
  exact .inr (.inr (.inl rfl))

theorem follows_newline (rest : List Char) : Follows ('\n' :: rest) := by
  intro c hc
  cases hc
  exact .inr (.inr (.inr rfl))

/-- Whether whole numbers as long as `n` are read. -/
def NumberLimit.Admits : NumberLimit → Int → Prop
  | .unlimited, _ => True
  | .digits most, n => (Nat.repr n.natAbs).length ≤ most
  | .characters most, n => (toString n).length ≤ most

instance (limit : NumberLimit) (n : Int) : Decidable (limit.Admits n) :=
  match limit with
  | .unlimited => inferInstanceAs (Decidable True)
  | .digits most => inferInstanceAs (Decidable ((Nat.repr n.natAbs).length ≤ most))
  | .characters most => inferInstanceAs (Decidable ((toString n).length ≤ most))

variable {rest : List Char}

theorem Follows.stops_digits (h : Follows rest) : Stops Char.isDigit rest := by
  intro c hc
  rcases h c hc with rfl | rfl | rfl | rfl <;> rfl

theorem fractionPart_of_follows (h : Follows rest) : fractionPart rest = ([], rest) := by
  unfold fractionPart
  split
  · next after => rcases h '.' rfl with hc | hc | hc | hc <;> cases hc
  · rfl

theorem exponentPart_of_follows (h : Follows rest) : exponentPart rest = (none, rest) := by
  cases rest with
  | nil => rfl
  | cons c rest =>
    have hmark : (decide (c = 'e') || decide (c = 'E')) = false := by
      rcases h c rfl with rfl | rfl | rfl | rfl <;> rfl
    simp only [exponentPart, hmark, Bool.false_and, if_neg Bool.false_ne_true]

theorem readUnsigned_repr {limits : Limits} {text : List Char} {negative : Bool} {n : Nat}
    (hlimit : limits.numbers.fault? negative true (Nat.repr n).toList = none) (h : Follows rest) :
    readUnsigned limits text negative ((Nat.repr n).toList ++ rest) =
      .ok (.int (if negative then -n else n), rest) := by
  have hdigits : ((Nat.repr n).toList ++ rest).takeWhile Char.isDigit = (Nat.repr n).toList :=
    takeWhile_run (fun _ => repr_isDigit) h.stops_digits
  have hwhole : (if (Nat.repr n).toList.head? = some '0' then ['0'] else (Nat.repr n).toList) =
      (Nat.repr n).toList := by
    split
    · next hzero =>
      rw [Nat.toList_repr] at hzero
      rw [eq_zero_of_head hzero]
      rfl
    · rfl
  have hne : (Nat.repr n).toList.isEmpty = false := by
    rw [List.isEmpty_eq_false_iff]
    exact repr_ne_nil
  simp only [readUnsigned, hdigits, hwhole, hne, if_neg Bool.false_ne_true, List.drop_left,
    fractionPart_of_follows h, exponentPart_of_follows h, List.isEmpty_nil, Option.isNone_none,
    Bool.and_self, hlimit, if_true, digitsValue_repr]

theorem toList_ofNat (n : Nat) : (toString (Int.ofNat n)).toList = (Nat.repr n).toList := rfl

theorem toList_negSucc (n : Nat) :
    (toString (Int.negSucc n)).toList = '-' :: (Nat.repr (n + 1)).toList := by
  rw [Int.toString_eq_repr, Int.repr, String.toList_append]
  rfl

theorem exists_digit (n : Nat) :
    ∃ c more, (Nat.repr n).toList = c :: more ∧ c.isDigit = true := by
  obtain ⟨c, more, hdigits⟩ := List.exists_cons_of_ne_nil (repr_ne_nil : (Nat.repr n).toList ≠ [])
  exact ⟨c, more, hdigits, repr_isDigit (hdigits ▸ List.mem_cons_self)⟩

theorem fault?_ofNat {limit : NumberLimit} {n : Nat} (h : limit.Admits (.ofNat n)) :
    limit.fault? false true (Nat.repr n).toList = none := by
  cases limit with
  | unlimited => rfl
  | digits most =>
    have hlength : (Nat.repr n).toList.length ≤ most := h
    simpa [NumberLimit.fault?] using hlength
  | characters most =>
    have hlength : (Nat.repr n).toList.length ≤ most := h
    simpa [NumberLimit.fault?] using hlength

theorem fault?_negSucc {limit : NumberLimit} {n : Nat} (h : limit.Admits (.negSucc n)) :
    limit.fault? true true (Nat.repr (n + 1)).toList = none := by
  cases limit with
  | unlimited => rfl
  | digits most =>
    have hlength : (Nat.repr (n + 1)).toList.length ≤ most := h
    simpa [NumberLimit.fault?] using hlength
  | characters most =>
    have hlength : (Nat.repr (n + 1)).toList.length + 1 ≤ most := by
      have hall : (toString (Int.negSucc n)).toList.length ≤ most := h
      rwa [toList_negSucc, List.length_cons] at hall
    simpa [NumberLimit.fault?] using hlength

/-- A whole number is read back as itself. -/
theorem readNumber_int {limits : Limits} {n : Int} (hlimit : limits.numbers.Admits n)
    (h : Follows rest) :
    readNumber limits ((toString n).toList ++ rest) = .ok (.int n, rest) := by
  cases n with
  | ofNat n =>
    obtain ⟨c, more, hdigits, hc⟩ := exists_digit n
    rw [toList_ofNat, readNumber]
    · exact readUnsigned_repr (fault?_ofNat hlimit) h
    · intro unsigned hsign
      rw [hdigits, List.cons_append] at hsign
      obtain ⟨rfl, -⟩ := List.cons.inj hsign
      cases hc
  | negSucc n =>
    rw [toList_negSucc, List.cons_append, readNumber, readUnsigned_repr (fault?_negSucc hlimit) h]
    rfl

theorem readWord?_digit {c : Char} (hc : c.isDigit) (more : List Char) :
    readWord? (c :: more) = none := by
  have hn : 'n' ≠ c := by rintro rfl; cases hc
  have ht : 't' ≠ c := by rintro rfl; cases hc
  have hf : 'f' ≠ c := by rintro rfl; cases hc
  have hnan : 'N' ≠ c := by rintro rfl; cases hc
  have hinfinity : 'I' ≠ c := by rintro rfl; cases hc
  have hminus : '-' ≠ c := by rintro rfl; cases hc
  simp [readWord?, words, dropWord?, hn, ht, hf, hnan, hinfinity, hminus]

theorem readWord?_minus {c : Char} (hc : c.isDigit) (more : List Char) :
    readWord? ('-' :: c :: more) = none := by
  have hinfinity : 'I' ≠ c := by rintro rfl; cases hc
  simp [readWord?, words, dropWord?, hinfinity]

/-- A text that begins like a number and like no word. -/
def Numeric (text : List Char) : Prop :=
  ∃ c more, text = c :: more ∧ (c = '-' ∨ c.isDigit) ∧ ∀ rest, readWord? (text ++ rest) = none

theorem numeric_int (n : Int) : Numeric (toString n).toList := by
  cases n with
  | ofNat n =>
    obtain ⟨c, more, hdigits, hc⟩ := exists_digit n
    refine ⟨c, more, hdigits, .inr hc, fun rest => ?_⟩
    rw [toList_ofNat, hdigits]
    exact readWord?_digit hc (more ++ rest)
  | negSucc n =>
    obtain ⟨c, more, hdigits, hc⟩ := exists_digit (n + 1)
    refine ⟨'-', _, toList_negSucc n, .inl rfl, fun rest => ?_⟩
    rw [toList_negSucc, hdigits]
    exact readWord?_minus hc (more ++ rest)

end SchemaClient.Json
