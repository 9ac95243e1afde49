import Mathlib.Tactic.SplitIfs
import SchemaClient.Json.Reader
import SchemaClient.Json.Writer

/-!
# Strings that are written and read

The escapes of a string are read back as the units that the characters have: one for a character of
the basic plane, two halves of a pair for any other. Joined, they are the characters again.
-/
namespace SchemaClient.Json

theorem hexValue?_digitChar {d : Nat} (h : d < 16) : hexValue? d.digitChar = some d := by
  have hall : ∀ d < 16, hexValue? (Nat.digitChar d) = some d := by decide
  exact hall d h

theorem hexUnit?_append (first second : List Char) (start : Nat) :
    (first ++ second).foldlM (fun value c => (hexValue? c).map (16 * value + ·)) start =
      (first.foldlM (fun value c => (hexValue? c).map (16 * value + ·)) start).bind
        (second.foldlM fun value c => (hexValue? c).map (16 * value + ·)) := by
  rw [List.foldlM_append]
  rfl

/-- Digits in base sixteen read back as their number. -/
theorem hexUnit?_toDigits (n : Nat) : hexUnit? (Nat.toDigits 16 n) = some n := by
  induction n using Nat.strongRecOn with
  | ind n ih =>
    rw [Nat.toDigits_eq_if (by decide)]
    split
    · next hn => simp [hexUnit?, hexValue?_digitChar hn]
    · next hn =>
      have hquotient := ih (n / 16) (by omega)
      rw [hexUnit?] at hquotient ⊢
      rw [hexUnit?_append, hquotient]
      simp [hexValue?_digitChar (Nat.mod_lt n (by decide : 0 < 16))]
      omega

theorem hexUnit?_replicate (k : Nat) (digits : List Char) :
    hexUnit? (List.replicate k '0' ++ digits) = hexUnit? digits := by
  induction k with
  | zero => rfl
  | succ k ih =>
    rw [List.replicate_succ, List.cons_append, hexUnit?, List.foldlM_cons]
    exact ih

theorem hexDigits_length {unit : Nat} (h : unit < 0x10000) :
    (Text.hexDigits 4 unit).length = 4 := by
  have hlength : (Nat.toDigits 16 unit).length ≤ 4 :=
    (Nat.length_toDigits_le_iff (by decide) (by decide)).mpr h
  simp only [Text.hexDigits, List.length_append, List.length_replicate]
  omega

theorem exists_four {digits : List Char} (h : digits.length = 4) :
    ∃ a b c d, digits = [a, b, c, d] := by
  match digits, h with
  | [a, b, c, d], _ => exact ⟨a, b, c, d, rfl⟩

/-- A unit is written as four digits that read back as the unit. -/
theorem exists_hexDigits {unit : Nat} (h : unit < 0x10000) :
    ∃ a b c d, Text.hexDigits 4 unit = [a, b, c, d] ∧ hexUnit? [a, b, c, d] = some unit := by
  have hread : hexUnit? (Text.hexDigits 4 unit) = some unit := by
    rw [Text.hexDigits, hexUnit?_replicate, hexUnit?_toDigits]
  obtain ⟨a, b, c, d, hdigits⟩ := exists_four (hexDigits_length h)
  exact ⟨a, b, c, d, hdigits, hdigits ▸ hread⟩

/-- The units of a character. -/
def unitsOf (code : Nat) : List Nat :=
  if code < 0x10000 then [code]
  else [0xd800 + (code - 0x10000) / 0x400, 0xdc00 + (code - 0x10000) % 0x400]

/-- More units in front of those that are read. -/
def withUnits (more : List Nat) (result : Except Failure (List Nat × List Char)) :
    Except Failure (List Nat × List Char) :=
  result.map fun (units, after) => (more ++ units, after)

theorem withUnits_withUnits (first second : List Nat)
    (result : Except Failure (List Nat × List Char)) :
    withUnits first (withUnits second result) = withUnits (first ++ second) result := by
  cases result with
  | error _ => rfl
  | ok reading => simp only [withUnits, Except.map, List.append_assoc]

variable {opened rest : List Char}

/-- A unit in front of those that are read is one unit more. -/
theorem units_step (unit : Nat) (result : Except Failure (List Nat × List Char)) :
    (do
      let (more, after) ← result
      .ok (unit :: more, after)) = withUnits [unit] result := by
  cases result <;> rfl

theorem units_unitEscape {unit : Nat} (h : unit < 0x10000) (hrest : rest ≠ []) :
    units opened (unitEscape unit ++ rest) = withUnits [unit] (units opened rest) := by
  obtain ⟨a, b, c, d, hdigits, hread⟩ := exists_hexDigits h
  obtain ⟨next, rest, rfl⟩ := List.exists_cons_of_ne_nil hrest
  rw [unitEscape, hdigits]
  simp only [List.cons_append, List.nil_append]
  rw [units, hread]
  exact units_step unit (units opened (next :: rest))

theorem units_codeEscape {code : Nat} (h : code < 0x110000) (hrest : rest ≠ []) :
    units opened (codeEscape code ++ rest) = withUnits (unitsOf code) (units opened rest) := by
  rw [codeEscape, unitsOf]
  split
  · next hcode => exact units_unitEscape hcode hrest
  · next hcode =>
    have hhigh : 0xd800 + (code - 0x10000) / 0x400 < 0x10000 := by omega
    have hlow : 0xdc00 + (code - 0x10000) % 0x400 < 0x10000 := by omega
    have hnext : unitEscape (0xdc00 + (code - 0x10000) % 0x400) ++ rest ≠ [] :=
      List.append_ne_nil_of_right_ne_nil _ hrest
    simp only
    rw [List.append_assoc, units_unitEscape hhigh hnext, units_unitEscape hlow hrest,
      withUnits_withUnits, List.singleton_append]

theorem units_letterEscape {letter c : Char} (hu : letter ≠ 'u') (h : escapeValue? letter = some c) :
    units opened ('\\' :: letter :: rest) = withUnits [c.toNat] (units opened rest) := by
  rw [units, h]
  · exact units_step c.toNat (units opened rest)
  · intro _ _ _ _ _ _ he
    exact absurd he hu
  · exact hu

theorem units_plain {c : Char} (hquote : c ≠ '"') (hslash : c ≠ '\\') (h : 0x20 ≤ c.toNat) :
    units opened (c :: rest) = withUnits [c.toNat] (units opened rest) := by
  rw [units, if_neg (by omega)]
  · exact units_step c.toNat (units opened rest)
  · exact hquote
  · intro _ _ _ _ _ _ hc
    exact absurd hc hslash
  · intro _ hc
    exact absurd hc hslash
  · intro _ _ hc
    exact absurd hc hslash
  · intro hc
    exact absurd hc hslash

theorem unitsOf_basic {code : Nat} (h : code < 0x10000) : unitsOf code = [code] := if_pos h

theorem toNat_lt_codes (c : Char) : c.toNat < 0x110000 := by
  rcases c.valid with h | ⟨-, h⟩
  · exact Nat.lt_trans h (by decide)
  · exact h

/-- A written character is read as its units, whichever escape it has. -/
theorem units_escapedChar (c : Char) (hrest : rest ≠ []) :
    units opened (escapedChar c ++ rest) = withUnits (unitsOf c.toNat) (units opened rest) := by
  rw [escapedChar]
  split_ifs with hself hn hr ht hb hf hplain
  · rw [Bool.or_eq_true, decide_eq_true_eq, decide_eq_true_eq] at hself
    obtain rfl | rfl := hself <;>
      exact units_letterEscape (by decide) (by decide)
  · subst hn
    exact units_letterEscape (by decide) (by decide)
  · subst hr
    exact units_letterEscape (by decide) (by decide)
  · subst ht
    exact units_letterEscape (by decide) (by decide)
  · subst hb
    exact units_letterEscape (by decide) (by decide)
  · subst hf
    exact units_letterEscape (by decide) (by decide)
  · simp only [Bool.or_eq_true, decide_eq_true_eq, not_or] at hself
    simp only [Bool.and_eq_true, decide_eq_true_eq] at hplain
    rw [unitsOf_basic (by omega)]
    exact units_plain hself.1 hself.2 hplain.1
  · exact units_codeEscape (toNat_lt_codes c) hrest

theorem units_escaped (chars : List Char) :
    units opened (chars.flatMap escapedChar ++ '"' :: rest) =
      .ok (chars.flatMap fun c => unitsOf c.toNat, rest) := by
  induction chars with
  | nil => simp only [List.flatMap_nil, List.nil_append, units]
  | cons c chars ih =>
    rw [List.flatMap_cons, List.append_assoc, units_escapedChar c (by simp), ih]
    rfl

theorem not_isHalf (c : Char) : Text.isHalf c.toNat = false := by
  have hvalid : c.toNat < 0xd800 ∨ 0xdfff < c.toNat ∧ c.toNat < 0x110000 := c.valid
  simp only [Text.isHalf, Text.isHighHalf, Text.isLowHalf, Bool.or_eq_false_iff,
    Bool.and_eq_false_iff, decide_eq_false_iff_not]
  omega

/-- What is no half stays when pairs are joined, whatever follows. -/
theorem joinedPairs_single {code : Nat} (h : Text.isHalf code = false) (codes : List Nat) :
    Text.joinedPairs (code :: codes) = code :: Text.joinedPairs codes := by
  have hhigh : Text.isHighHalf code = false := (Bool.or_eq_false_iff.mp h).1
  cases codes with
  | nil => simp only [Text.joinedPairs]
  | cons low codes => rw [Text.joinedPairs, hhigh, Bool.false_and, if_neg Bool.false_ne_true]

theorem joinedPairs_unitsOf (c : Char) (codes : List Nat) :
    Text.joinedPairs (unitsOf c.toNat ++ codes) = c.toNat :: Text.joinedPairs codes := by
  have hlt := toNat_lt_codes c
  rw [unitsOf]
  split
  · exact joinedPairs_single (not_isHalf c) codes
  · next hcode =>
    have hhigh : Text.isHighHalf (0xd800 + (c.toNat - 0x10000) / 0x400) = true := by
      simp only [Text.isHighHalf, Bool.and_eq_true, decide_eq_true_eq]
      omega
    have hlow : Text.isLowHalf (0xdc00 + (c.toNat - 0x10000) % 0x400) = true := by
      simp only [Text.isLowHalf, Bool.and_eq_true, decide_eq_true_eq]
      omega
    have hjoined : 0x10000 + (0xd800 + (c.toNat - 0x10000) / 0x400 - 0xd800) * 0x400 +
        (0xdc00 + (c.toNat - 0x10000) % 0x400 - 0xdc00) = c.toNat := by omega
    rw [List.cons_append, List.singleton_append, Text.joinedPairs, hhigh, hlow, Bool.and_self,
      if_pos rfl, hjoined]

theorem joinedPairs_units (chars : List Char) :
    Text.joinedPairs (chars.flatMap fun c => unitsOf c.toNat) = chars.map Char.toNat := by
  induction chars with
  | nil => rfl
  | cons c chars ih => rw [List.flatMap_cons, joinedPairs_unitsOf, ih, List.map_cons]

theorem ofCodes?_toNat (s : String) : Text.ofCodes? (s.toList.map Char.toNat) = some s := by
  have hnone : ((s.toList.map Char.toNat).any Text.isHalf) = false := by
    simp [not_isHalf]
  have hchars : (s.toList.map Char.toNat).map Char.ofNat = s.toList := by
    simp [Function.comp_def]
  rw [Text.ofCodes?, hnone, if_neg Bool.false_ne_true, hchars, String.ofList_toList]

/-- The text of a written string is read back, with the meaning that its code points have. -/
theorem readString_written {α : Type} {meaning : List Nat → Option α} {a : α} (s : String)
    (h : meaning (s.toList.map Char.toNat) = some a) :
    readString meaning (s.toList.flatMap escapedChar ++ '"' :: rest) = .ok (a, rest) := by
  rw [readString, units_escaped]
  simp only [bind, Except.bind, joinedPairs_units, h]

theorem string?_toNat (limits : Limits) (s : String) :
    limits.string? (s.toList.map Char.toNat) = some (.string s) := by
  rw [Limits.string?, ofCodes?_toNat]

theorem name?_toNat (limits : Limits) (s : String) :
    limits.name? (s.toList.map Char.toNat) = some (some s) := by
  rw [Limits.name?, ofCodes?_toNat]

end SchemaClient.Json
