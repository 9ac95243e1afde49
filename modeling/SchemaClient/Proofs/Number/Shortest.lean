import Mathlib.Tactic.FieldSimp
import SchemaClient.Proofs.Number.Nearest

/-!
# Shortest decimals that are read

A decimal that is found on a grid lies in the neighbourhood of the number, and on the grid seventeen
places wide one is always found: half of its steps are smaller than the way to either end. Zeros
that move into the exponent leave the value as it is, so the shortest decimal is read as the number.
-/
namespace SchemaClient.Binary64

def Decimal10.value (d : Decimal10) : ℚ := d.digits * 10 ^ d.exponent

namespace Neighbourhood

variable {n : Neighbourhood}

/-- The sides of a comparison of a grid point with a number of units, cleared of denominators. -/
theorem cleared_units (hunit : n.unitDen ≠ 0) (exponent : ℤ) (units : Nat) :
    ((units * (n.unitNum * Nat.pow 10 (-exponent).toNat) : Nat) : ℚ) =
      units * n.unit * (n.unitDen * 10 ^ (-exponent).toNat) := by
  have hne : (n.unitDen : ℚ) ≠ 0 := Nat.cast_ne_zero.mpr hunit
  rw [unit, Nat.cast_mul, Nat.cast_mul, natCast_pow, Nat.cast_ofNat]
  field_simp

theorem cleared_point (exponent : ℤ) (candidate : Nat) :
    ((candidate * (Nat.pow 10 exponent.toNat * n.unitDen) : Nat) : ℚ) =
      candidate * 10 ^ exponent * (n.unitDen * 10 ^ (-exponent).toNat) := by
  have hne : (10 : ℚ) ^ (-exponent).toNat ≠ 0 := by positivity
  rw [zpow_eq_div (by norm_num), Nat.cast_mul, Nat.cast_mul, natCast_pow, Nat.cast_ofNat]
  field_simp

theorem holds_iff (hunit : n.unitDen ≠ 0) (candidate : Nat) (exponent : ℤ) :
    n.holds candidate (Nat.pow 10 exponent.toNat * n.unitDen)
        (n.unitNum * Nat.pow 10 (-exponent).toNat) ↔
      n.Contains (candidate * 10 ^ exponent) := by
  have hpos : (0 : ℚ) < n.unitDen * 10 ^ (-exponent).toNat := by
    have hden : (0 : ℚ) < n.unitDen := Nat.cast_pos.mpr (Nat.pos_of_ne_zero hunit)
    positivity
  unfold holds Contains
  split <;>
    simp only [Bool.and_eq_true, decide_eq_true_eq, ← Nat.cast_le (α := ℚ),
      ← Nat.cast_lt (α := ℚ), cleared_units hunit, cleared_point, mul_le_mul_iff_left₀ hpos,
      mul_lt_mul_iff_left₀ hpos]

/-- The grid point at or below the number. -/
def below (n : Neighbourhood) (exponent : ℤ) : Nat :=
  n.value * (n.unitNum * Nat.pow 10 (-exponent).toNat) / (Nat.pow 10 exponent.toNat * n.unitDen)

theorem below_bounds (hunit : n.unitDen ≠ 0) (exponent : ℤ) :
    n.below exponent * (10 : ℚ) ^ exponent ≤ n.value * n.unit ∧
      n.value * n.unit < (n.below exponent + 1 : Nat) * (10 : ℚ) ^ exponent := by
  have hpos : (0 : ℚ) < n.unitDen * 10 ^ (-exponent).toNat := by
    have hden : (0 : ℚ) < n.unitDen := Nat.cast_pos.mpr (Nat.pos_of_ne_zero hunit)
    positivity
  have hstep : 0 < Nat.pow 10 exponent.toNat * n.unitDen :=
    Nat.mul_pos (Nat.pow_pos (by decide)) (Nat.pos_of_ne_zero hunit)
  constructor
  · rw [← mul_le_mul_iff_left₀ hpos, ← cleared_point, ← cleared_units hunit, Nat.cast_le]
    exact Nat.div_mul_le_self _ _
  · rw [← mul_lt_mul_iff_left₀ hpos, ← cleared_point, ← cleared_units hunit, Nat.cast_lt]
    exact (Nat.div_lt_iff_lt_mul hstep).mp (Nat.lt_succ_self _)

/-- A grid gives a point of the neighbourhood. -/
theorem contains_of_onGrid (hunit : n.unitDen ≠ 0) {exponent : ℤ} {d : Decimal10}
    (h : n.onGrid exponent = some d) : n.Contains d.value := by
  unfold onGrid at h
  extract_lets num den below fromBelow preferAbove hits at h
  have hcontains : ∀ candidate ∈ hits, n.Contains (candidate * 10 ^ exponent) :=
    fun candidate hmem => (holds_iff hunit candidate exponent).mp (List.mem_filter.mp hmem).2
  have hsub : hits.Sublist [below, below + 1] := List.filter_sublist
  clear_value hits
  split at h
  · cases h
  · cases h
    exact hcontains _ (List.mem_singleton_self _)
  · next hsome hmany =>
    -- nothing is left out of two points of which neither none nor one is left
    have hboth : hits = [below, below + 1] := by
      apply hsub.eq_of_length_le
      match hits with
      | [] => exact absurd rfl hsome
      | [only] => exact absurd rfl (hmany only)
      | _ :: _ :: _ => simp
    cases h
    apply hcontains
    rw [hboth]
    split <;> simp

/-- A grid with a point next to the number that is in the neighbourhood gives one. -/
theorem onGrid_ne_none (hunit : n.unitDen ≠ 0) {exponent : ℤ}
    (h : n.Contains (n.below exponent * 10 ^ exponent) ∨
      n.Contains ((n.below exponent + 1 : Nat) * 10 ^ exponent)) : n.onGrid exponent ≠ none := by
  rw [← holds_iff hunit, ← holds_iff hunit] at h
  unfold onGrid
  extract_lets num den below fromBelow preferAbove hits
  have hne : hits ≠ [] := by
    rcases h with h | h
    · exact List.ne_nil_of_mem (List.mem_filter.mpr ⟨List.mem_cons_self, h⟩)
    · exact List.ne_nil_of_mem
        (List.mem_filter.mpr ⟨List.mem_cons_of_mem _ List.mem_cons_self, h⟩)
  clear_value hits
  split
  · exact absurd rfl hne
  · exact Option.some_ne_none _
  · exact Option.some_ne_none _

end Neighbourhood

variable {x : Binary64}

theorem unitDen_ne_zero (x : Binary64) : x.neighbourhood.unitDen ≠ 0 := (Nat.two_pow_pos _).ne'

/-- The number itself. -/
def size (x : Binary64) : ℚ := x.neighbourhood.value * x.neighbourhood.unit

theorem size_eq (x : Binary64) : x.size = 4 * x.significand * x.neighbourhood.unit := by
  rw [size]
  congr 1
  exact_mod_cast rfl

/-- How many units around a number surely round to it. -/
def reach (x : Binary64) : ℚ := if x.significand = fractionCount then 1 else 2

theorem reach_le (x : Binary64) : x.reach ≤ 2 := by
  unfold reach
  split <;> norm_num

theorem contains_of_close {q : ℚ} (hne : x.magnitude ≠ 0)
    (hlow : x.size - x.reach * x.neighbourhood.unit < q)
    (hhigh : q < x.size + x.reach * x.neighbourhood.unit) : x.neighbourhood.Contains q := by
  have hunit := x.unit_pos
  have hends : x.neighbourhood.low * x.neighbourhood.unit < q ∧
      q < x.neighbourhood.high * x.neighbourhood.unit := by
    constructor
    · refine lt_of_le_of_lt ?_ hlow
      have hlowest : (x.neighbourhood.low : ℚ) ≤ 4 * x.significand - x.reach := by
        rw [neighbourhood_low hne, reach]
        split_ifs with hboth hm
        · exact le_rfl
        · exact absurd hboth.1 hm
        · linarith
        · exact le_rfl
      rw [size_eq, ← sub_mul]
      gcongr
    · refine lt_of_lt_of_le hhigh ?_
      have hreach := x.reach_le
      rw [size_eq, ← add_mul, neighbourhood_high]
      gcongr
  unfold Neighbourhood.Contains
  split
  · exact ⟨hends.1.le, hends.2.le⟩
  · exact hends

theorem contains_size (hne : x.magnitude ≠ 0) : x.neighbourhood.Contains x.size := by
  have hunit := x.unit_pos
  have hreach : 0 < x.reach * x.neighbourhood.unit := by
    unfold reach
    split <;> positivity
  exact contains_of_close hne (by linarith) (by linarith)

/-- The whole part of a number with its point moved `places` places. -/
def wholePart (x : Binary64) (places : Nat) : Nat :=
  x.neighbourhood.value * x.neighbourhood.unitNum * Nat.pow 10 places / x.neighbourhood.unitDen

theorem leadingExponent_eq (x : Binary64) {places : Nat} (h : 400 = places) :
    x.leadingExponent = decimalLength (x.wholePart places) - 401 := by
  rw [leadingExponent, wholePart, h]

theorem wholePart_bounds (x : Binary64) (places : Nat) :
    (x.wholePart places : ℚ) ≤ x.size * 10 ^ (places : ℤ) ∧
      x.size * 10 ^ (places : ℤ) < (x.wholePart places + 1 : Nat) := by
  have hden : 0 < x.neighbourhood.unitDen := Nat.pos_of_ne_zero x.unitDen_ne_zero
  have hdenq : (0 : ℚ) < x.neighbourhood.unitDen := Nat.cast_pos.mpr hden
  have hscaled : x.size * 10 ^ (places : ℤ) * x.neighbourhood.unitDen =
      (x.neighbourhood.value * x.neighbourhood.unitNum * Nat.pow 10 places : Nat) := by
    rw [size, Neighbourhood.unit, Nat.cast_mul, Nat.cast_mul, natCast_pow, Nat.cast_ofNat,
      zpow_natCast]
    field_simp
  constructor
  · rw [← mul_le_mul_iff_left₀ hdenq, hscaled]
    exact_mod_cast Nat.div_mul_le_self _ _
  · rw [← mul_lt_mul_iff_left₀ hdenq, hscaled]
    exact_mod_cast (Nat.div_lt_iff_lt_mul hden).mp (Nat.lt_succ_self _)

/-- The leading digit of a number stands where its exponent says. -/
theorem leadingExponent_bounds (hfinite : x.isFinite) (hne : x.magnitude ≠ 0) :
    (10 : ℚ) ^ x.leadingExponent ≤ x.size ∧ x.size < 10 ^ (x.leadingExponent + 1) := by
  obtain ⟨hsmallest, -⟩ := contains_bounds hfinite hne (contains_size hne)
  have hpower : (0 : ℚ) < 10 ^ (400 : ℤ) := by positivity
  -- a variable, so that its power of ten is not worked out
  obtain ⟨places, hplaces⟩ : ∃ places : Nat, 400 = places := ⟨400, rfl⟩
  obtain ⟨hlow, hhigh⟩ := x.wholePart_bounds places
  have hcast : (places : ℤ) = 400 := by omega
  rw [hcast] at hlow hhigh
  rw [x.leadingExponent_eq hplaces]
  generalize x.wholePart places = N at hlow hhigh ⊢
  have hN0 : N ≠ 0 := by
    rintro rfl
    rw [zpow_neg, inv_lt_iff_one_lt_mul₀ hpower] at hsmallest
    rw [zero_add, Nat.cast_one] at hhigh
    linarith
  obtain ⟨hleading, hdigits⟩ := decimalLength_bounds hN0
  have hnext : ((N + 1 : Nat) : ℚ) ≤ 10 ^ (decimalLength N : ℤ) := by
    rw [zpow_natCast] at hdigits ⊢
    exact_mod_cast hdigits
  have hfirst : (decimalLength N : ℤ) - 401 + 400 = decimalLength N - 1 := by omega
  have hpast : (decimalLength N : ℤ) - 401 + 1 + 400 = decimalLength N := by omega
  constructor
  · rw [← mul_le_mul_iff_left₀ hpower, ← zpow_add₀ (by norm_num), hfirst]
    exact hleading.trans hlow
  · rw [← mul_lt_mul_iff_left₀ hpower, ← zpow_add₀ (by norm_num), hpast]
    exact hhigh.trans_le hnext

/-- Seventeen digits are enough: half a step of their grid stays within reach. -/
theorem half_step (hfinite : x.isFinite) (hne : x.magnitude ≠ 0) :
    (10 : ℚ) ^ (x.leadingExponent - 16) < 2 * x.reach * x.neighbourhood.unit := by
  have hunit := x.unit_pos
  obtain ⟨hlead, -⟩ := leadingExponent_bounds hfinite hne
  have hm : (4 * x.significand : ℚ) < 2 * x.reach * 10 ^ (16 : ℤ) := by
    unfold reach
    split
    · next hm =>
      rw [hm, fractionCount_cast]
      norm_num
    · have hlt : (x.significand : ℚ) < 2 * fractionCount := by exact_mod_cast x.significand_lt
      have hpower : 4 * (2 * (2 : ℚ) ^ (52 : ℤ)) < 2 * 2 * 10 ^ (16 : ℤ) := by norm_num
      rw [fractionCount_cast] at hlt
      linarith
  rw [zpow_sub₀ (by norm_num), div_lt_iff₀ (by positivity)]
  calc (10 : ℚ) ^ x.leadingExponent ≤ x.size := hlead
    _ = 4 * x.significand * x.neighbourhood.unit := x.size_eq
    _ < 2 * x.reach * 10 ^ (16 : ℤ) * x.neighbourhood.unit := by gcongr
    _ = 2 * x.reach * x.neighbourhood.unit * 10 ^ (16 : ℤ) := by ring

theorem onGrid_widest (hfinite : x.isFinite) (hne : x.magnitude ≠ 0) :
    x.neighbourhood.onGrid (x.leadingExponent - 16) ≠ none := by
  have hstep := half_step hfinite hne
  obtain ⟨hlow, hhigh⟩ :=
    Neighbourhood.below_bounds x.unitDen_ne_zero (x.leadingExponent - 16)
  rw [← size] at hlow hhigh
  apply Neighbourhood.onGrid_ne_none x.unitDen_ne_zero
  push_cast at hhigh ⊢
  generalize (10 : ℚ) ^ (x.leadingExponent - 16) = step at *
  by_cases hnear : x.size - x.neighbourhood.below (x.leadingExponent - 16) * step ≤ step / 2
  · exact .inl (contains_of_close hne (by linarith) (by linarith))
  · exact .inr (contains_of_close hne (by linarith) (by linarith))

theorem Decimal10.stripped_value (fuel : Nat) (d : Decimal10) :
    (d.stripped fuel).value = d.value := by
  induction fuel generalizing d with
  | zero => rfl
  | succ fuel ih =>
    rw [stripped]
    split
    · next hzero =>
      simp only [Bool.and_eq_true, decide_eq_true_eq, beq_iff_eq] at hzero
      have hdigits : (d.digits : ℚ) = (d.digits / 10 : Nat) * 10 := by
        exact_mod_cast (Nat.div_mul_cancel (Nat.dvd_of_mod_eq_zero hzero.2)).symm
      rw [ih, value, value, hdigits, zpow_add_one₀ (by norm_num)]
      ring
    · rfl

theorem contains_shortest (hfinite : x.isFinite) (hne : x.magnitude ≠ 0) :
    x.neighbourhood.Contains x.shortest.value := by
  rw [shortest, if_neg hne]
  extract_lets lead grids
  split
  · next d hd =>
    obtain ⟨exponent, -, hgrid⟩ := List.exists_of_findSome?_eq_some hd
    rw [Decimal10.stripped_value]
    exact Neighbourhood.contains_of_onGrid x.unitDen_ne_zero hgrid
  · next hnone =>
    have hmem : lead - 16 ∈ grids := List.mem_map.mpr ⟨16, by decide, rfl⟩
    exact absurd (List.findSome?_eq_none_iff.mp hnone _ hmem) (onGrid_widest hfinite hne)

/-- **The shortest decimal of a finite number is read as the number**, however its digits and its
exponent are written. -/
theorem ofDecimal_shortest {coefficient : Nat} {exponent : ℤ} (hfinite : x.isFinite)
    (h : (coefficient : ℚ) * 10 ^ exponent = x.shortest.value) :
    ofDecimal x.isNegative coefficient exponent = x := by
  by_cases hne : x.magnitude = 0
  · have hzero : (coefficient : ℚ) * 10 ^ exponent = 0 := by
      rw [h, shortest, if_pos hne, Decimal10.value, Nat.cast_zero, zero_mul]
    have hcoefficient : coefficient = 0 := by
      rcases mul_eq_zero.mp hzero with hc | hpower
      · exact_mod_cast hc
      · exact absurd hpower (by positivity)
    rw [hcoefficient, ofDecimal_zero hne]
  · exact ofDecimal_of_contains hfinite hne (h ▸ contains_shortest hfinite hne)

end SchemaClient.Binary64
