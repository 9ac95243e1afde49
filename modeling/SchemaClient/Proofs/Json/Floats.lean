import SchemaClient.Proofs.Json.Numbers
import SchemaClient.Proofs.Number.Shortest

/-!
# Finite numbers that are written and read

The text of a finite number is its shortest decimal with a point or an exponent, so it is read as no
whole number. Where the point stands and how many zeros fill up the digits does not change the
value, so the number that is read is the one that was written.
-/
namespace SchemaClient.Json

open Binary64 (Decimal10 standard)
open Numerals
open Runs (Stops stops_cons takeWhile_run dropWhile_run)

/-- Whether numbers are read that have up to sixteen digits and a sign in front of their point. -/
def NumberLimit.HasRoom : NumberLimit → Prop
  | .characters most => 17 ≤ most
  | _ => True

instance (limit : NumberLimit) : Decidable limit.HasRoom :=
  match limit with
  | .unlimited | .digits _ => inferInstanceAs (Decidable True)
  | .characters most => inferInstanceAs (Decidable (17 ≤ most))

variable {limits : Limits} {rest : List Char}

theorem fault?_of_hasRoom {limit : NumberLimit} {negative : Bool} {digits : List Char}
    (h : limit.HasRoom) (hlength : digits.length ≤ 16) :
    limit.fault? negative false digits = none := by
  cases limit with
  | unlimited => rfl
  | digits most => rfl
  | characters most =>
    have hmost : 17 ≤ most := h
    have hfew : ¬ most < digits.length + (if negative then 1 else 0) := by
      split <;> omega
    simp only [NumberLimit.fault?, if_neg hfew]

/-- Digits in front of a point or an exponent, without a superfluous zero. -/
structure IsWhole (whole : List Char) : Prop where
  ne_nil : whole ≠ []
  digits : Digits whole
  head : whole.head? = some '0' → whole = ['0']
  length : whole.length ≤ 16

/-- A number with a fraction or an exponent, as soon as its parts are told apart. -/
theorem readUnsigned_float (text : List Char) (negative : Bool)
    {whole after middle fraction : List Char} {power : Option Int}
    (hroom : limits.numbers.HasRoom) (hwhole : IsWhole whole) (hstops : Stops Char.isDigit after)
    (hfraction : fractionPart after = (fraction, middle))
    (hpower : exponentPart middle = (power, rest)) (hfloat : fraction ≠ [] ∨ power ≠ none) :
    readUnsigned limits text negative (whole ++ after) =
      .ok (.float (.ofDecimal negative (Decimal.digitsValue (whole ++ fraction))
        (power.getD 0 - fraction.length)), rest) := by
  have hdigits : (whole ++ after).takeWhile Char.isDigit = whole :=
    takeWhile_run hwhole.digits hstops
  have hhead : (if whole.head? = some '0' then ['0'] else whole) = whole := by
    split
    · next hzero => exact (hwhole.head hzero).symm
    · rfl
  have hne : whole.isEmpty = false := List.isEmpty_eq_false_iff.mpr hwhole.ne_nil
  have hpart : (fraction.isEmpty && power.isNone) = false := by
    rw [Bool.and_eq_false_iff, List.isEmpty_eq_false_iff, Option.isNone_eq_false_iff,
      Option.isSome_iff_ne_none]
    exact hfloat
  simp only [readUnsigned, hdigits, hhead, hne, if_neg Bool.false_ne_true, List.drop_left, hfraction,
    hpower, hpart, fault?_of_hasRoom hroom hwhole.length]

theorem fractionPart_digits {fraction : List Char} (hne : fraction ≠ []) (hdigits : Digits fraction)
    (hstops : Stops Char.isDigit rest) :
    fractionPart ('.' :: (fraction ++ rest)) = (fraction, rest) := by
  have hfalse : fraction.isEmpty = false := List.isEmpty_eq_false_iff.mpr hne
  simp only [fractionPart, takeWhile_run hdigits hstops, dropWhile_run hdigits hstops, hfalse,
    if_neg Bool.false_ne_true]

/-- A mark, a sign and digits. -/
theorem exponentPart_digits (negative : Bool) {digits : List Char} (hne : digits ≠ [])
    (hdigits : Digits digits) (h : Follows rest) :
    exponentPart ('e' :: (if negative then '-' else '+') :: (digits ++ rest)) =
      (some (if negative then -(Decimal.digitsValue digits : Int) else Decimal.digitsValue digits),
        rest) := by
  have hfalse : digits.isEmpty = false := List.isEmpty_eq_false_iff.mpr hne
  cases negative <;>
    simp [exponentPart, Decimal.splitSign, takeWhile_run hdigits h.stops_digits,
      dropWhile_run hdigits h.stops_digits, hfalse]

/-- A text that is read as a decimal of the value, with either sign. -/
def ReadsAs (limits : Limits) (size : List Char) (value : ℚ) : Prop :=
  ∀ text negative rest, Follows rest → ∃ (coefficient : Nat) (exponent : Int),
    (coefficient : ℚ) * 10 ^ exponent = value ∧
    readUnsigned limits text negative (size ++ rest) =
      .ok (.float (.ofDecimal negative coefficient exponent), rest)

/-- Nothing is read of what starts with no digit. -/
theorem ReadsAs.exists_digit {size : List Char} {value : ℚ} (h : ReadsAs limits size value) :
    ∃ c more, size = c :: more ∧ c.isDigit := by
  obtain ⟨coefficient, exponent, -, hread⟩ := h [] false [] follows_nil
  rw [List.append_nil] at hread
  cases size with
  | nil => cases hread
  | cons c more =>
    refine ⟨c, more, rfl, ?_⟩
    by_contra hc
    have hnone : (c :: more).takeWhile Char.isDigit = [] := by
      rw [List.takeWhile_cons, if_neg hc]
    simp only [readUnsigned, hnone] at hread
    cases hread

/-- Digits on both sides of a point. -/
theorem readsAs_point {whole fraction : List Char} (hroom : limits.numbers.HasRoom)
    (hwhole : IsWhole whole) (hne : fraction ≠ []) (hdigits : Digits fraction) {value : ℚ}
    (hvalue : (Decimal.digitsValue (whole ++ fraction) : ℚ) * 10 ^ (-(fraction.length : Int)) =
      value) :
    ReadsAs limits (whole ++ '.' :: fraction) value := by
  intro text negative rest h
  refine ⟨_, -(fraction.length : Int), hvalue, ?_⟩
  rw [List.append_assoc, List.cons_append,
    readUnsigned_float text negative hroom hwhole (stops_cons rfl)
    (fractionPart_digits hne hdigits h.stops_digits) (exponentPart_of_follows h) (.inl hne),
    Option.getD_none, zero_sub]

/-- A digit, digits behind a point if there are more, and an exponent. -/
theorem readsAs_exponent {first : Char} {more digits : List Char} (hroom : limits.numbers.HasRoom)
    (hfirst : first.isDigit) (hmore : Digits more) (hne : digits ≠ []) (hdigits : Digits digits)
    (below : Bool) {value : ℚ}
    (hvalue : (Decimal.digitsValue (first :: more) : ℚ) *
      10 ^ ((if below then -(Decimal.digitsValue digits : Int) else Decimal.digitsValue digits) -
        more.length) = value) :
    ReadsAs limits ([first] ++ (if more.isEmpty then [] else '.' :: more) ++
      'e' :: (if below then '-' else '+') :: digits) value := by
  intro text negative rest h
  have hwhole : IsWhole [first] :=
    { ne_nil := List.cons_ne_nil first []
      digits := List.forall_mem_singleton.mpr hfirst
      head := fun hzero => congrArg (fun c => [c]) (Option.some.inj hzero)
      length := by simp }
  have hpower := exponentPart_digits below hne hdigits h
  refine ⟨_, _, hvalue, ?_⟩
  cases more with
  | nil =>
    have hnone : ∀ after, fractionPart ('e' :: after) = ([], 'e' :: after) := fun _ => rfl
    have hread := readUnsigned_float text negative hroom hwhole (stops_cons rfl) (hnone _) hpower
      (.inr (Option.some_ne_none _))
    simpa using hread
  | cons second others =>
    have hstops : Stops Char.isDigit ('e' :: (if below then '-' else '+') :: (digits ++ rest)) :=
      stops_cons rfl
    have hread := readUnsigned_float text negative hroom hwhole (stops_cons rfl)
      (fractionPart_digits (List.cons_ne_nil second others) hmore hstops) hpower
      (.inr (Option.some_ne_none _))
    simpa using hread

section Notation

variable {d : Decimal10}

/-- All digits behind the point, after so many zeros. -/
theorem readsAs_below (hroom : limits.numbers.HasRoom) {zeros : Nat}
    (hexponent : d.exponent = -(zeros + (Nat.repr d.digits).toList.length : Int)) :
    ReadsAs limits (['0'] ++ '.' :: (List.replicate zeros '0' ++ (Nat.repr d.digits).toList))
      d.value := by
  have hwhole : IsWhole ['0'] :=
    { ne_nil := List.cons_ne_nil _ _, digits := digits_zero, head := fun _ => rfl, length := by simp }
  apply readsAs_point hroom hwhole
  · exact List.append_ne_nil_of_right_ne_nil _ Runs.repr_ne_nil
  · exact (digits_replicate zeros).append (digits_repr d.digits)
  · have hdigits := digitsValue_zeros (zeros + 1) (Nat.repr d.digits).toList
    rw [List.replicate_succ, List.cons_append, digitsValue_repr] at hdigits
    rw [List.singleton_append, hdigits, Decimal10.value, hexponent, List.length_append,
      List.length_replicate, Nat.cast_add]

/-- The point between the digits. -/
theorem readsAs_within (hroom : limits.numbers.HasRoom) {places : Nat} (hplaces : places ≠ 0)
    (hmost : places ≤ 16) (hless : places < (Nat.repr d.digits).toList.length)
    (hexponent : d.exponent = places - (Nat.repr d.digits).toList.length) :
    ReadsAs limits ((Nat.repr d.digits).toList.take places ++
      '.' :: (Nat.repr d.digits).toList.drop places) d.value := by
  have hwhole : IsWhole ((Nat.repr d.digits).toList.take places) :=
    { ne_nil := take_ne_nil hplaces Runs.repr_ne_nil
      digits := (digits_repr d.digits).take places
      head := by
        -- zero has no digits on both sides of the point
        intro hhead
        rw [List.head?_take, if_neg hplaces, Nat.toList_repr] at hhead
        rw [eq_zero_of_head hhead] at hless
        exact absurd hless (by simp; omega)
      length := by rw [List.length_take]; omega }
  apply readsAs_point hroom hwhole
  · rw [Ne, List.drop_eq_nil_iff]
    omega
  · exact (digits_repr d.digits).drop places
  · rw [List.take_append_drop, digitsValue_repr, Decimal10.value, hexponent, List.length_drop]
    congr 2
    omega

/-- All digits in front of the point, and zeros behind them. -/
theorem readsAs_filled (hroom : limits.numbers.HasRoom) (hzero : d.digits = 0 → d.exponent = 0)
    {zeros : Nat} (hmost : (Nat.repr d.digits).toList.length + zeros ≤ 16)
    (hexponent : d.exponent = zeros) :
    ReadsAs limits ((Nat.repr d.digits).toList ++ List.replicate zeros '0' ++ '.' :: ['0'])
      d.value := by
  have hwhole : IsWhole ((Nat.repr d.digits).toList ++ List.replicate zeros '0') :=
    { ne_nil := List.append_ne_nil_of_left_ne_nil Runs.repr_ne_nil _
      digits := (digits_repr d.digits).append (digits_replicate zeros)
      head := by
        intro hhead
        rw [List.head?_append_of_ne_nil _ Runs.repr_ne_nil, Nat.toList_repr] at hhead
        have hdigits := eq_zero_of_head hhead
        have hnone : zeros = 0 := by
          have hexp := hzero hdigits
          omega
        rw [hdigits, hnone]
        rfl
      length := by
        rw [List.length_append, List.length_replicate]
        exact hmost }
  apply readsAs_point hroom hwhole (List.cons_ne_nil _ _) digits_zero
  have hall := digitsValue_append_zeros (Nat.repr d.digits).toList (zeros + 1)
  rw [List.replicate_succ', ← List.append_assoc, digitsValue_repr] at hall
  rw [hall, Decimal10.value, hexponent, List.length_singleton, Nat.cast_mul, mul_assoc]
  congr 1
  push_cast
  rw [← zpow_natCast, ← zpow_add₀ (by norm_num)]
  congr 1
  push_cast
  omega

/-- One digit in front of the point. -/
theorem readsAs_scientific (hroom : limits.numbers.HasRoom) {lead : Int}
    (hlead : lead = d.exponent + (Nat.repr d.digits).toList.length - 1) (width : Nat) :
    ReadsAs limits ((Nat.repr d.digits).toList.take 1 ++
      (if ((Nat.repr d.digits).toList.drop 1).isEmpty then []
        else '.' :: (Nat.repr d.digits).toList.drop 1) ++
      'e' :: (if lead < 0 then '-' else '+') ::
        (Binary64.paddedDigits width lead.natAbs).toList) d.value := by
  have hdigits := digits_repr d.digits
  have hvalue := digitsValue_repr d.digits
  obtain ⟨first, more, hrepr⟩ :=
    List.exists_cons_of_ne_nil (Runs.repr_ne_nil : (Nat.repr d.digits).toList ≠ [])
  rw [hrepr] at hdigits hvalue hlead ⊢
  obtain ⟨hfirst, hmore⟩ := List.forall_mem_cons.mp hdigits
  have hexponent : (if lead < 0 then -(lead.natAbs : Int) else lead.natAbs) - more.length =
      d.exponent := by
    rw [List.length_cons] at hlead
    split <;> omega
  have hread := readsAs_exponent hroom hfirst hmore (paddedDigits_ne_nil width lead.natAbs)
    (digits_paddedDigits width lead.natAbs) (lead < 0) (by
      rw [hvalue, digitsValue_padded]
      simp only [decide_eq_true_eq, hexponent]
      rfl : _ = d.value)
  simpa using hread

end Notation

/-- **A decimal is read with the value it was written for**, wherever its point stands. -/
theorem readsAs_write {d : Decimal10} (hroom : limits.numbers.HasRoom)
    (hzero : d.digits = 0 → d.exponent = 0) : ReadsAs limits (standard.write d).toList d.value := by
  have hlength : 0 < (Nat.repr d.digits).toList.length := List.length_pos_of_ne_nil Runs.repr_ne_nil
  unfold Binary64.NumberStyle.write
  extract_lets digits lead whole padded tail others
  have hdigits : digits = (Nat.repr d.digits).toList := rfl
  have hlead : lead = d.exponent + digits.length - 1 := rfl
  have hwhole : whole = lead.toNat + 1 := rfl
  have hpadded : padded = digits ++ List.replicate (whole - digits.length) '0' := rfl
  have htail : tail = padded.drop whole := rfl
  have hothers : others = digits.drop 1 := rfl
  clear_value others tail padded whole lead digits
  subst hdigits hothers
  split
  · next hplain =>
    have hrange : -4 ≤ lead ∧ lead < 16 := by
      rwa [Bool.and_eq_true, decide_eq_true_eq, decide_eq_true_eq] at hplain
    split
    · next hneg =>
      simp only [String.toList_append, String.toList_ofList]
      apply readsAs_below hroom
      omega
    · next hpos =>
      simp only [String.toList_append, String.toList_ofList, List.append_assoc]
      by_cases hless : whole < (Nat.repr d.digits).toList.length
      · rw [Nat.sub_eq_zero_of_le hless.le, List.replicate_zero, List.append_nil] at hpadded
        have hsome : tail.isEmpty = false := by
          rw [htail, hpadded, List.isEmpty_eq_false_iff, Ne, List.drop_eq_nil_iff]
          omega
        simp only [hsome, if_neg Bool.false_ne_true, String.toList_ofList]
        rw [htail, hpadded]
        exact readsAs_within hroom (by omega) (by omega) hless (by omega)
      · have hfull : padded.length = whole := by
          rw [hpadded, List.length_append, List.length_replicate]
          omega
        have hnone : tail.isEmpty := by
          rw [htail, List.isEmpty_iff, List.drop_eq_nil_iff]
          omega
        rw [if_pos hnone, List.take_of_length_le hfull.le, hpadded]
        exact readsAs_filled hroom hzero (by omega) (by omega)
  · have hread := readsAs_scientific hroom hlead standard.exponentDigits
    generalize (Nat.repr d.digits).toList.drop 1 = others at hread ⊢
    have hfraction : (if others.isEmpty then "" else "." ++ String.ofList others).toList =
        if others.isEmpty then [] else '.' :: others := by
      split <;> simp
    have hmark : "e".toList ++ ((if lead < 0 then "-" else "+" : String).toList) =
        ['e', if lead < 0 then '-' else '+'] := by
      split <;> rfl
    simp only [String.toList_append, String.toList_ofList, hfraction]
    rw [List.append_assoc _ "e".toList, hmark]
    simpa using hread

/-- The digits of the shortest decimal are zero only for zero itself. -/
theorem shortest_zero {x : Binary64} (hfinite : x.isFinite) (h : x.shortest.digits = 0) :
    x.shortest.exponent = 0 := by
  by_cases hne : x.magnitude = 0
  · rw [Binary64.shortest, if_pos hne]
  · obtain ⟨hpos, -⟩ := Binary64.contains_bounds hfinite hne (Binary64.contains_shortest hfinite hne)
    rw [Decimal10.value, h, Nat.cast_zero, zero_mul] at hpos
    exact absurd hpos (by positivity : (0 : ℚ) ≤ 10 ^ (-400 : ℤ)).not_gt

theorem toList_floatText {x : Binary64} (hfinite : x.isFinite) :
    (floatText x).toList = x.text.toList := by
  rw [floatText, if_neg (Binary64.not_isNaN hfinite), if_neg (Binary64.not_isInfinite hfinite)]

/-- **A finite number is read back as itself**, down to the sign of a zero. -/
theorem readNumber_float {x : Binary64} (hfinite : x.isFinite) (hroom : limits.numbers.HasRoom)
    (h : Follows rest) :
    readNumber limits ((floatText x).toList ++ rest) = .ok (.float x, rest) := by
  have hreads := readsAs_write hroom (shortest_zero hfinite)
  obtain ⟨coefficient, exponent, hvalue, hread⟩ :=
    hreads ((floatText x).toList ++ rest) x.isNegative rest h
  rw [Binary64.ofDecimal_shortest hfinite hvalue] at hread
  rw [← hread]
  generalize hall : (floatText x).toList ++ rest = all
  rw [toList_floatText hfinite, Binary64.toList_text hfinite] at hall
  by_cases hnegative : x.isNegative
  · rw [if_pos hnegative, List.append_assoc, List.singleton_append] at hall
    rw [← hall, readNumber, hnegative]
  · obtain ⟨c, more, hsize, hc⟩ := hreads.exists_digit
    rw [if_neg hnegative, List.nil_append] at hall
    rw [hall, Bool.eq_false_iff.mpr hnegative, readNumber]
    intro unsigned hsign
    rw [← hall, hsize, List.cons_append] at hsign
    obtain ⟨rfl, -⟩ := List.cons.inj hsign
    cases hc

theorem numeric_float {x : Binary64} (hfinite : x.isFinite) : Numeric (floatText x).toList := by
  have hreads : ReadsAs ⟨0, .unlimited, false⟩ (standard.write x.shortest).toList x.shortest.value :=
    readsAs_write trivial (shortest_zero hfinite)
  obtain ⟨c, more, hsize, hc⟩ := hreads.exists_digit
  rw [toList_floatText hfinite, Binary64.toList_text hfinite, hsize]
  by_cases hnegative : x.isNegative
  · rw [if_pos hnegative]
    exact ⟨'-', c :: more, rfl, .inl rfl, fun rest => readWord?_minus hc (more ++ rest)⟩
  · rw [if_neg hnegative]
    exact ⟨c, more, rfl, .inr hc, fun rest => readWord?_digit hc (more ++ rest)⟩

end SchemaClient.Json
