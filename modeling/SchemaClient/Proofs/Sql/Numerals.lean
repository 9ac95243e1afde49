import SchemaClient.Proofs.Number.Digits
import SchemaClient.Proofs.Sql.Reading

/-!
# Numbers in SQL

Whole numbers and finite numbers of both formats are written as numerals: a sign for what is
negative, digits, a point with digits and an exponent with its sign. Which digits they are does not
matter here.
-/
namespace SchemaClient

open Runs (Stops stops_cons takeWhile_run dropWhile_run)

namespace Numerals

/-- A point with digits after it, or nothing. -/
def IsFraction (text : List Char) : Prop := text = [] ∨ ∃ digits, text = '.' :: digits ∧ Digits digits

/-- The mark of an exponent with a sign and digits after it, or nothing. -/
def IsExponent (text : List Char) : Prop :=
  text = [] ∨ ∃ mark sign digits, text = mark :: sign :: digits ∧ (mark = 'e' ∨ mark = 'E') ∧
    (sign = '+' ∨ sign = '-') ∧ digits ≠ [] ∧ Digits digits

/-- A number as SQL writes it, without a sign. -/
def IsSize (text : List Char) : Prop :=
  ∃ whole fraction exponent, text = whole ++ fraction ++ exponent ∧ whole ≠ [] ∧ Digits whole ∧
    IsFraction fraction ∧ IsExponent exponent

/-- A number as SQL writes it, with a sign if it is negative. -/
def IsNumeral (text : List Char) : Prop := IsSize text ∨ ∃ size, text = '-' :: size ∧ IsSize size

theorem IsSize.numeral {text : List Char} (h : IsSize text) : IsNumeral text := .inl h

/-- Digits with a point between them. -/
theorem isSize_point {whole fraction : List Char} (hne : whole ≠ []) (hwhole : Digits whole)
    (hfraction : Digits fraction) : IsSize (whole ++ '.' :: fraction) :=
  ⟨whole, '.' :: fraction, [], by simp, hne, hwhole, .inr ⟨fraction, rfl, hfraction⟩, .inl rfl⟩

theorem isSize_digit {c : Char} (h : c.isDigit) : IsSize [c] :=
  ⟨[c], [], [], rfl, List.cons_ne_nil c [], List.forall_mem_singleton.mpr h, .inl rfl, .inl rfl⟩

theorem isSize_repr (n : Nat) : IsSize (Nat.repr n).toList :=
  ⟨(Nat.repr n).toList, [], [], by simp, Runs.repr_ne_nil, digits_repr n, .inl rfl, .inl rfl⟩

theorem isNumeral_int (n : Int) : IsNumeral (toString n).toList := by
  rw [Int.toString_eq_repr, Int.repr_eq_if]
  split
  · exact (isSize_repr _).numeral
  · refine .inr ⟨_, ?_, isSize_repr (-n).toNat⟩
    rw [String.toList_append]
    rfl

theorem isFraction_of_digits {digits : List Char} (h : Digits digits) :
    IsFraction (if digits.isEmpty then "" else "." ++ String.ofList digits).toList := by
  split
  · exact .inl rfl
  · exact .inr ⟨digits, by simp [String.toList_append], h⟩

theorem isExponent_signed {mark : Char} (hmark : mark = 'e' ∨ mark = 'E') (negative : Prop)
    [Decidable negative] {digits : String} (hne : digits.toList ≠ []) (h : Digits digits.toList) :
    IsExponent (String.singleton mark ++ (if negative then "-" else "+") ++ digits).toList := by
  refine .inr ⟨mark, if negative then '-' else '+', digits.toList, ?_, hmark, ?_, hne, h⟩
  · split <;> simp [String.toList_append]
  · split <;> simp

theorem isSize_write (style : Binary64.NumberStyle) (d : Binary64.Decimal10) :
    IsSize (style.write d).toList := by
  have hdigits := digits_repr d.digits
  have hne : (Nat.repr d.digits).toList ≠ [] := Runs.repr_ne_nil
  unfold Binary64.NumberStyle.write
  extract_lets digits lead whole padded decimals others
  split
  · split
    · have hfraction := (digits_replicate (-lead - 1).toNat).append hdigits
      simp only [String.toList_append, String.toList_ofList]
      exact isSize_point (List.cons_ne_nil '0' []) digits_zero hfraction
    · have hpadded : Digits padded := hdigits.append (digits_replicate _)
      have hwhole : padded.take whole ≠ [] :=
        take_ne_nil (Nat.succ_ne_zero _) (List.append_ne_nil_of_left_ne_nil hne _)
      simp only [String.toList_append, String.toList_ofList, List.append_assoc]
      refine isSize_point hwhole (hpadded.take _) ?_
      split
      · exact digits_zero
      · rw [String.toList_ofList]
        exact hpadded.drop _
  · have hexponent := isExponent_signed (.inl rfl) (lead < 0)
      (paddedDigits_ne_nil style.exponentDigits lead.natAbs) (digits_paddedDigits _ _)
    refine ⟨digits.take 1, _, _, ?_, take_ne_nil Nat.one_ne_zero hne, hdigits.take 1,
      isFraction_of_digits (hdigits.drop 1), hexponent⟩
    simp only [String.toList_append, String.toList_ofList, List.append_assoc]
    rfl

theorem isNumeral_binary64 {x : Binary64} (h : x.isFinite) : IsNumeral x.text.toList := by
  have hsize := isSize_write Binary64.standard x.shortest
  rw [Binary64.toList_text h]
  split
  · exact .inr ⟨_, rfl, hsize⟩
  · exact hsize.numeral

/-- The digits before the point; a point in front of all of them has a zero before it. -/
theorem digits_before {digits : List Char} (hne : digits ≠ []) (h : Digits digits) (point : Int) :
    let whole := if point ≤ 0 then ['0'] else digits.take point.toNat
    whole ≠ [] ∧ Digits whole := by
  intro whole
  by_cases hpoint : point ≤ 0
  · simp only [whole, if_pos hpoint]
    exact ⟨by decide, digits_zero⟩
  · simp only [whole, if_neg hpoint]
    exact ⟨take_ne_nil (by omega) hne, h.take _⟩

theorem digits_after {digits : List Char} (h : Digits digits) (point : Int) :
    Digits (if point ≤ 0 then List.replicate (-point).toNat '0' ++ digits
      else digits.drop point.toNat) := by
  split
  · exact (digits_replicate _).append h
  · exact h.drop _

theorem isNumeral_decimal {d : Decimal} (h : d.isFinite) : IsNumeral d.text.toList := by
  cases d with
  | infinite => cases h
  | nan => cases h
  | finite negative coefficient exponent =>
    have hdigits := digits_repr coefficient
    have hne : (Nat.repr coefficient).toList ≠ [] := Runs.repr_ne_nil
    simp only [Decimal.text]
    generalize (if exponent ≤ 0 && _ then _ else _ : Int) = point
    obtain ⟨hwholeNe, hwhole⟩ := digits_before hne hdigits point
    have hfraction := isFraction_of_digits (digits_after hdigits point)
    generalize exponent + _ - point = power
    have hexponent : IsExponent (if power = 0 then ""
        else "E" ++ (if power < 0 then "-" else "+") ++ Nat.repr power.natAbs).toList := by
      split
      · exact .inl rfl
      · exact isExponent_signed (.inr rfl) (power < 0) Runs.repr_ne_nil (digits_repr _)
    have hsize : IsSize _ := ⟨_, _, _, rfl, hwholeNe, hwhole, hfraction, hexponent⟩
    rw [String.toList_append, String.toList_append, String.toList_append, String.toList_ofList]
    cases negative with
    | true => exact .inr ⟨_, rfl, hsize⟩
    | false => exact hsize.numeral

end Numerals

namespace Sql.Lexer

open Numerals

theorem sign_signed {c : Char} (h : c = '+' ∨ c = '-') (digits : List Char) :
    sign (c :: digits) = ([c], digits) := by
  rcases h with rfl | rfl <;> rfl

/-- Nothing that follows an exponent, and no exponent, starts with a point or a digit. -/
theorem head_of_isExponent {text rest : List Char} (h : IsExponent text) (hrest : Delimited rest) :
    ∀ c ∈ (text ++ rest).head?, c ≠ '.' ∧ c.isDigit = false := by
  intro c hc
  rcases h with rfl | ⟨mark, sign, digits, rfl, rfl | rfl, -⟩
  · have hpoint : c ≠ '.' := by
      rintro rfl
      exact absurd (hrest _ hc) (by decide)
    exact ⟨hpoint, hrest.stops (by decide) c hc⟩
  · cases hc
    decide
  · cases hc
    decide

theorem exponent_of_isExponent {text rest : List Char} (h : IsExponent text)
    (hrest : Delimited rest) : exponent (text ++ rest) = (text, rest) := by
  rcases h with rfl | ⟨mark, c, digits, rfl, hmark, hc, hne, hdigits⟩
  · cases rest with
    | nil => rfl
    | cons d rest =>
      have hd : ¬ (d = 'e' ∨ d = 'E') := by
        rintro (rfl | rfl)
        · exact absurd (hrest _ rfl) (by decide)
        · exact absurd (hrest _ rfl) (by decide)
      simp [exponent, hd]
  · have hstops : Stops Char.isDigit rest := hrest.stops (by decide)
    rw [List.cons_append, List.cons_append, exponent, sign_signed hc]
    simp only [takeWhile_run hdigits hstops, dropWhile_run hdigits hstops]
    simp [hmark, hne]

theorem fraction_of_isFraction {text rest : List Char} (h : IsFraction text)
    (hrest : ∀ c ∈ rest.head?, c ≠ '.' ∧ c.isDigit = false) :
    fraction (text ++ rest) = (text, rest) := by
  have hstops : Stops Char.isDigit rest := fun c hc => (hrest c hc).2
  rcases h with rfl | ⟨digits, rfl, hdigits⟩
  · rw [List.nil_append]
    unfold fraction
    split
    · next after => exact absurd rfl (hrest '.' rfl).1
    · rfl
  · rw [List.cons_append, fraction, takeWhile_run hdigits hstops, dropWhile_run hdigits hstops]

theorem stops_fraction {text rest : List Char} (h : IsFraction text)
    (hrest : ∀ c ∈ rest.head?, c ≠ '.' ∧ c.isDigit = false) : Stops Char.isDigit (text ++ rest) := by
  rcases h with rfl | ⟨digits, rfl, -⟩
  · exact fun c hc => (hrest c hc).2
  · exact stops_cons rfl

theorem endsNumber_of_delimited {rest : List Char} (h : Delimited rest) : endsNumber rest := by
  cases rest with
  | nil => rfl
  | cons c rest =>
    have hall : delimiters.all (fun d => endsNumber [d]) := by decide
    exact List.all_eq_true.mp hall c (h c rfl)

theorem numeral?_of_parts (start : List Char) {whole fraction exponent rest : List Char}
    (hwhole : Digits whole)
    (hfraction : IsFraction fraction) (hexponent : IsExponent exponent) (hrest : Delimited rest) :
    numeral? start (whole ++ fraction ++ exponent ++ rest) =
      some (.numeral (String.ofList (start ++ (whole ++ fraction ++ exponent))), rest) := by
  have hhead := head_of_isExponent hexponent hrest
  have hstops := stops_fraction hfraction hhead
  rw [numeral?, List.append_assoc, List.append_assoc, takeWhile_run hwhole hstops,
    dropWhile_run hwhole hstops, fraction_of_isFraction hfraction hhead]
  simp only [exponent_of_isExponent hexponent hrest, endsNumber_of_delimited hrest, if_true,
    List.append_assoc]

theorem scans_numeral {s : String} (h : IsNumeral s.toList) : Scans s.toList (.numeral s) := by
  intro rest hrest
  rcases h with ⟨whole, fraction, exponent, htext, hne, hwhole, hfraction, hexponent⟩ |
    ⟨size, htext, whole, fraction, exponent, rfl, hne, hwhole, hfraction, hexponent⟩
  · obtain ⟨c, more, rfl⟩ := List.exists_cons_of_ne_nil hne
    obtain ⟨hc, hmore⟩ := List.forall_mem_cons.mp hwhole
    have hnumeral := numeral?_of_parts [c] hmore hfraction hexponent hrest
    rw [List.singleton_append, ← List.cons_append, ← List.cons_append, ← htext,
      String.ofList_toList] at hnumeral
    rw [htext, List.cons_append, List.cons_append, List.cons_append]
    have hname : c ≠ '"' := by rintro rfl; cases hc
    have hquote : c ≠ '\'' := by rintro rfl; cases hc
    rw [next, if_neg hname, if_neg hquote, if_pos hc]
    exact hnumeral
  · have hnumeral := numeral?_of_parts ['-'] hwhole hfraction hexponent hrest
    rw [List.singleton_append, ← htext, String.ofList_toList] at hnumeral
    obtain ⟨c, more, rfl⟩ := List.exists_cons_of_ne_nil hne
    have hc : c.isDigit := hwhole c List.mem_cons_self
    rw [htext, ← hnumeral]
    simp [next, hc]

theorem reads_numeral {s : String} (h : IsNumeral s.toList) : Reads s.toList [.numeral s] :=
  (scans_numeral h).reads

end Sql.Lexer
end SchemaClient
