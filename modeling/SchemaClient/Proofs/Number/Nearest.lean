import Mathlib.Algebra.Order.Field.Power
import Mathlib.Data.Rat.Cast.Order
import Mathlib.Tactic.Linarith
import Mathlib.Tactic.Positivity
import Mathlib.Tactic.Ring
import SchemaClient.Number.Shortest

/-!
# Rounding to the nearest number

The rationals that round to a finite number are those in its neighbourhood: half a unit in the last
place to either side, but only a quarter below a power of two, and the ends themselves if the
significand is even. Whatever fraction stands for such a rational, the nearest number to it is the
one whose neighbourhood it is.
-/
namespace SchemaClient.Binary64

/-- A power with a whole exponent as a fraction, of which one side is one. -/
theorem zpow_eq_div {b : ℚ} (hb : b ≠ 0) (z : ℤ) : b ^ z = b ^ z.toNat / b ^ (-z).toNat := by
  rw [eq_div_iff (pow_ne_zero _ hb), ← zpow_natCast, ← zpow_natCast, ← zpow_add₀ hb]
  congr 1
  omega

theorem natCast_pow (b n : Nat) : ((Nat.pow b n : Nat) : ℚ) = (b : ℚ) ^ n := Nat.cast_pow b n

variable {x : Binary64}

/-- The magnitude bits hold the scale above the significand; the scale's bits carry the leading
digit of the significand. -/
theorem magnitude_eq (x : Binary64) :
    (x.magnitude : ℤ) = (x.scale + 1074) * fractionCount + x.significand := by
  unfold scale significand fractionCount
  split
  · omega
  · have hsplit := Nat.div_add_mod x.magnitude 0x10000000000000
    push_cast
    omega

theorem significand_lt (x : Binary64) : x.significand < 2 * fractionCount := by
  unfold significand fractionCount
  split <;> omega

theorem scale_ge (x : Binary64) : -1074 ≤ x.scale := by
  unfold scale fractionCount
  split <;> omega

/-- Above the lowest scale the leading digit of the significand is one. -/
theorem significand_ge (h : x.scale ≠ -1074) : fractionCount ≤ x.significand := by
  unfold scale at h
  unfold significand
  split_ifs at h ⊢
  · exact absurd rfl h
  · omega

theorem scale_le (h : x.isFinite) : x.scale ≤ 971 := by
  have hbits : x.magnitude < infiniteMagnitude := of_decide_eq_true h
  unfold infiniteMagnitude fractionCount at hbits
  unfold scale fractionCount
  split <;> omega

theorem significand_pos (h : x.magnitude ≠ 0) : 0 < x.significand := by
  unfold significand fractionCount
  split <;> omega

/-- A unit of a neighbourhood: a quarter of a unit in the last place. -/
def Neighbourhood.unit (n : Neighbourhood) : ℚ := n.unitNum / n.unitDen

/-- The rationals of a neighbourhood. -/
def Neighbourhood.Contains (n : Neighbourhood) (q : ℚ) : Prop :=
  if n.closed then n.low * n.unit ≤ q ∧ q ≤ n.high * n.unit
  else n.low * n.unit < q ∧ q < n.high * n.unit

theorem neighbourhood_unit (x : Binary64) : x.neighbourhood.unit = (2 : ℚ) ^ (x.scale - 2) := by
  rw [Neighbourhood.unit, zpow_eq_div two_ne_zero]
  simp only [neighbourhood, natCast_pow, Nat.cast_ofNat]

theorem unit_pos (x : Binary64) : 0 < x.neighbourhood.unit := by
  rw [neighbourhood_unit]
  positivity

/-- Where the unit below is half as long, the lower end is nearer. -/
theorem neighbourhood_low (hne : x.magnitude ≠ 0) : (x.neighbourhood.low : ℚ) =
    4 * x.significand - (if x.significand = fractionCount ∧ x.scale ≠ -1074 then 1 else 2) := by
  have hpos := significand_pos hne
  have hscale : x.scale ≠ -1074 ↔ 2 * fractionCount ≤ x.magnitude := by
    unfold scale fractionCount
    split <;> omega
  have hlow : (x.neighbourhood.low : ℤ) = 4 * x.significand -
      (if x.significand = fractionCount ∧ x.scale ≠ -1074 then 1 else 2) := by
    simp only [hscale, neighbourhood, Bool.and_eq_true, beq_iff_eq, decide_eq_true_eq]
    split <;> omega
  exact_mod_cast hlow

theorem neighbourhood_high (x : Binary64) :
    (x.neighbourhood.high : ℚ) = 4 * x.significand + 2 := by
  simp [neighbourhood]

/-- The ends of a neighbourhood, in units in the last place. -/
structure Near (x : Binary64) (r : ℚ) : Prop where
  low : (x.significand : ℚ) - 1 / 2 ≤ r
  high : r ≤ x.significand + 1 / 2
  tie : r = x.significand - 1 / 2 ∨ r = x.significand + 1 / 2 → x.significand % 2 = 0
  sharp : x.significand = fractionCount → x.scale ≠ -1074 → (x.significand : ℚ) - 1 / 4 ≤ r

theorem div_scale (x : Binary64) (q : ℚ) : q / 2 ^ x.scale = q / x.neighbourhood.unit / 4 := by
  rw [neighbourhood_unit, zpow_sub₀ two_ne_zero]
  ring

theorem near_of_contains {q : ℚ} (hne : x.magnitude ≠ 0) (h : x.neighbourhood.Contains q) :
    x.Near (q / 2 ^ x.scale) := by
  rw [div_scale]
  have hclosed : x.neighbourhood.closed = (x.significand % 2 == 0) := rfl
  unfold Neighbourhood.Contains at h
  rw [neighbourhood_low hne, neighbourhood_high, hclosed, ← le_div_iff₀ x.unit_pos,
    ← div_le_iff₀ x.unit_pos, ← lt_div_iff₀ x.unit_pos, ← div_lt_iff₀ x.unit_pos] at h
  generalize q / x.neighbourhood.unit = r at h ⊢
  have hends : 4 * (x.significand : ℚ) -
      (if x.significand = fractionCount ∧ x.scale ≠ -1074 then 1 else 2) ≤ r ∧
        r ≤ 4 * x.significand + 2 := by
    split at h
    · exact h
    · exact ⟨h.1.le, h.2.le⟩
  refine ⟨?_, ?_, ?_, ?_⟩
  · split_ifs at hends <;> linarith [hends.1]
  · linarith [hends.2]
  · intro htie
    by_contra hodd
    rw [if_neg (by simpa using hodd)] at h
    rcases htie with htie | htie
    · split_ifs at h <;> linarith [h.1]
    · linarith [h.2]
  · intro hm hs
    rw [if_pos ⟨hm, hs⟩] at hends
    linarith [hends.1]

/-- A quotient is rounded to the whole number that is at most a half away; to an even one if it is a
half. -/
theorem roundDiv_eq {a b n : Nat} (hb : 0 < b) (hlow : (n : ℚ) - 1 / 2 ≤ a / b)
    (hhigh : (a : ℚ) / b ≤ n + 1 / 2)
    (htie : (a : ℚ) / b = n - 1 / 2 ∨ (a : ℚ) / b = n + 1 / 2 → n % 2 = 0) :
    roundDiv a b = n := by
  have hbq : (0 : ℚ) < b := Nat.cast_pos.mpr hb
  -- the quotient is its whole part and a fraction below one
  have hsplit : (a : ℚ) / b = (a / b : Nat) + (a % b : Nat) / b := by
    rw [div_eq_iff hbq.ne', add_mul, div_mul_cancel₀ _ hbq.ne']
    exact_mod_cast (Nat.div_add_mod' a b).symm
  have hnonneg : (0 : ℚ) ≤ (a % b : Nat) / b := by positivity
  have hlt : ((a % b : Nat) : ℚ) / b < 1 := by
    rw [div_lt_one hbq]
    exact_mod_cast Nat.mod_lt a hb
  have hhalf : 2 * (a % b) < b ↔ ((a % b : Nat) : ℚ) / b < 1 / 2 := by
    rw [div_lt_iff₀ hbq, ← Nat.cast_lt (α := ℚ)]
    push_cast
    constructor <;> intro h <;> linarith
  have heven : 2 * (a % b) = b ↔ ((a % b : Nat) : ℚ) / b = 1 / 2 := by
    rw [div_eq_iff hbq.ne', ← Nat.cast_inj (R := ℚ)]
    push_cast
    constructor <;> intro h <;> linarith
  rw [hsplit] at hlow hhigh htie
  generalize ((a % b : Nat) : ℚ) / b = rest at *
  have hnear : n = a / b ∨ n = a / b + 1 := by
    have hleft : (n : ℚ) < (a / b : Nat) + 2 := by linarith
    have hright : ((a / b : Nat) : ℚ) < n + 1 := by linarith
    norm_cast at hleft hright
    omega
  simp only [roundDiv, Bool.or_eq_true, Bool.and_eq_true, decide_eq_true_eq, beq_iff_eq, hhalf, heven]
  rcases hnear with hn | hn
  · rw [hn] at hhigh htie
    rw [if_pos, hn]
    rcases lt_or_eq_of_le (by linarith : rest ≤ 1 / 2) with hrest | hrest
    · exact .inl hrest
    · exact .inr ⟨hrest, htie (.inr (by rw [hrest]))⟩
  · rw [hn] at hlow htie
    push_cast at hlow htie
    rw [if_neg, hn]
    rintro (hrest | ⟨hrest, hlast⟩)
    · linarith
    · have hmore := htie (.inl (by rw [hrest]; ring))
      omega

variable {num den : Nat}

/-- Comparing a fraction to a power of two without negative powers. -/
theorem lt_power_iff (num : Nat) (hden : 0 < den) (z : ℤ) :
    num * Nat.pow 2 (-z).toNat < den * Nat.pow 2 z.toNat ↔ (num : ℚ) / den < 2 ^ z := by
  rw [zpow_eq_div two_ne_zero, div_lt_div_iff₀ (Nat.cast_pos.mpr hden) (by positivity),
    ← Nat.cast_lt (α := ℚ), Nat.cast_mul, Nat.cast_mul, natCast_pow, natCast_pow, Nat.cast_ofNat,
    mul_comm (den : ℚ)]

/-- A fraction in units of a power of two. -/
theorem scaled_eq (num den : Nat) (z : ℤ) :
    ((num * Nat.pow 2 (-z).toNat : Nat) : ℚ) / (den * Nat.pow 2 z.toNat : Nat) =
      num / den / 2 ^ z := by
  rw [zpow_eq_div two_ne_zero, Nat.cast_mul, Nat.cast_mul, natCast_pow, natCast_pow, Nat.cast_ofNat,
    div_div_div_eq, mul_comm]

/-- The leading binary digit of a quotient stands where those of its sides put it, or one lower. -/
theorem log2_bounds (hnum : num ≠ 0) (hden : den ≠ 0) :
    (2 : ℚ) ^ ((num.log2 : ℤ) - den.log2 - 1) ≤ num / den ∧
      (num : ℚ) / den < 2 ^ ((num.log2 : ℤ) - den.log2 + 1) := by
  have hpos : (0 : ℚ) < den := Nat.cast_pos.mpr (Nat.pos_of_ne_zero hden)
  have hnumLow : (2 : ℚ) ^ num.log2 ≤ num := by exact_mod_cast Nat.log2_self_le hnum
  have hnumHigh : (num : ℚ) < 2 ^ (num.log2 + 1) := by exact_mod_cast Nat.lt_log2_self
  have hdenLow : (2 : ℚ) ^ den.log2 ≤ den := by exact_mod_cast Nat.log2_self_le hden
  have hdenHigh : (den : ℚ) < 2 ^ (den.log2 + 1) := by exact_mod_cast Nat.lt_log2_self
  constructor
  · rw [le_div_iff₀ hpos]
    calc (2 : ℚ) ^ ((num.log2 : ℤ) - den.log2 - 1) * den
        ≤ 2 ^ ((num.log2 : ℤ) - den.log2 - 1) * 2 ^ (den.log2 + 1) := by gcongr
      _ = 2 ^ num.log2 := by
        rw [← zpow_natCast, ← zpow_add₀ two_ne_zero, ← zpow_natCast]
        congr 1
        omega
      _ ≤ num := hnumLow
  · rw [div_lt_iff₀ hpos]
    calc (num : ℚ) < 2 ^ (num.log2 + 1) := hnumHigh
      _ = 2 ^ ((num.log2 : ℤ) - den.log2 + 1) * 2 ^ den.log2 := by
        rw [← zpow_natCast, ← zpow_natCast, ← zpow_add₀ two_ne_zero]
        congr 1
        omega
      _ ≤ 2 ^ ((num.log2 : ℤ) - den.log2 + 1) * den := by gcongr

/-- A fraction is rounded in the units of the numbers with its leading digit. -/
theorem nearestMagnitude_eq (hnum : num ≠ 0) (hden : den ≠ 0) :
    ∃ exponent unit : ℤ, (2 : ℚ) ^ exponent ≤ num / den ∧ (num : ℚ) / den < 2 ^ (exponent + 1) ∧
      unit = max (exponent - 52) (-1074) ∧
      nearestMagnitude num den = min ((unit + 1074).toNat * fractionCount +
        roundDiv (num * Nat.pow 2 (-unit).toNat) (den * Nat.pow 2 unit.toNat)) infiniteMagnitude := by
  obtain ⟨hlow, hhigh⟩ := log2_bounds hnum hden
  have hcompare := lt_power_iff num (Nat.pos_of_ne_zero hden) ((num.log2 : ℤ) - den.log2)
  rw [nearestMagnitude, if_neg hnum]
  extract_lets estimate tooHigh exponent unit rounded
  refine ⟨exponent, unit, ?_, ?_, rfl, rfl⟩
  · by_cases hless : tooHigh
    · simpa only [exponent, if_pos hless] using hlow
    · simpa only [exponent, if_neg hless] using not_lt.mp (mt hcompare.mpr hless)
  · by_cases hless : tooHigh
    · simpa only [exponent, if_pos hless, sub_add_cancel] using hcompare.mp hless
    · simpa only [exponent, if_neg hless] using hhigh

theorem exponent_lt {q : ℚ} {exponent scale places : ℤ} (hlow : 2 ^ exponent ≤ q)
    (h : q / 2 ^ scale < 2 ^ places) : exponent < scale + places := by
  rw [div_lt_iff₀ (by positivity), ← zpow_add₀ two_ne_zero] at h
  have hless := (zpow_lt_zpow_iff_right₀ one_lt_two).mp (hlow.trans_lt h)
  omega

theorem le_exponent {q : ℚ} {exponent scale places : ℤ} (hhigh : q < 2 ^ (exponent + 1))
    (h : 2 ^ places ≤ q / 2 ^ scale) : scale + places ≤ exponent := by
  rw [le_div_iff₀ (by positivity), ← zpow_add₀ two_ne_zero] at h
  have hless := (zpow_lt_zpow_iff_right₀ one_lt_two).mp (h.trans_lt hhigh)
  omega

theorem fractionCount_cast : (fractionCount : ℚ) = 2 ^ (52 : ℤ) := by norm_num [fractionCount]

/-- No quotient of a number's neighbourhood reaches the next power of two. -/
theorem Near.lt_power {r : ℚ} (h : x.Near r) : r < 2 ^ (53 : ℤ) := by
  have hm : (x.significand : ℚ) + 1 ≤ 2 * fractionCount := by exact_mod_cast x.significand_lt
  rw [fractionCount_cast] at hm
  have hhigh := h.high
  norm_num at hm ⊢
  linarith

/-- Above the lowest scale none falls short of the power of two before. -/
theorem Near.power_le {r : ℚ} (h : x.Near r) (hs : x.scale ≠ -1074) : 2 ^ (51 : ℤ) ≤ r := by
  have hm : (fractionCount : ℚ) ≤ x.significand := by exact_mod_cast significand_ge hs
  have hpower : (2 : ℚ) ^ (51 : ℤ) + 1 ≤ 2 ^ (52 : ℤ) := by norm_num
  rw [fractionCount_cast] at hm
  linarith [h.low]

/-- Seen in units of the last place of a number, its neighbourhood rounds to its significand. -/
theorem Near.roundDiv {a b : Nat} (hb : 0 < b) (h : x.Near ((a : ℚ) / b)) :
    Binary64.roundDiv a b = x.significand :=
  roundDiv_eq hb h.low h.high h.tie

/-- Just below a power of two, where units are half as long, it rounds to the power. -/
theorem Near.roundDiv_below {a b : Nat} {r : ℚ} (hb : 0 < b) (h : x.Near r)
    (hm : x.significand = fractionCount) (hs : x.scale ≠ -1074) (hr : r < fractionCount)
    (hab : (a : ℚ) / b = 2 * r) : Binary64.roundDiv a b = 2 * fractionCount := by
  have hsharp := h.sharp hm hs
  rw [hm] at hsharp
  apply roundDiv_eq hb
  · rw [hab]
    push_cast
    linarith
  · rw [hab]
    push_cast
    linarith
  · intro _
    decide

/-- **Every fraction in the neighbourhood of a number rounds to the number.** -/
theorem nearestMagnitude_of_contains (hfinite : x.isFinite) (hne : x.magnitude ≠ 0) (hden : den ≠ 0)
    (h : x.neighbourhood.Contains ((num : ℚ) / den)) : nearestMagnitude num den = x.magnitude := by
  have hnear := near_of_contains hne h
  have hdigits := magnitude_eq x
  have hmax : x.magnitude < infiniteMagnitude := of_decide_eq_true hfinite
  have hscale := x.scale_ge
  have hnum : num ≠ 0 := by
    rintro rfl
    have hm : (1 : ℚ) ≤ x.significand := by exact_mod_cast significand_pos hne
    have hlow := hnear.low
    rw [Nat.cast_zero, zero_div, zero_div] at hlow
    linarith
  obtain ⟨exponent, unit, hlow, hhigh, hunit, hresult⟩ := nearestMagnitude_eq hnum hden
  have hb : 0 < den * Nat.pow 2 unit.toNat :=
    Nat.mul_pos (Nat.pos_of_ne_zero hden) (Nat.two_pow_pos unit.toNat)
  have hupper := exponent_lt hlow hnear.lt_power
  by_cases hbelow : x.scale ≠ -1074 ∧ (num : ℚ) / den / 2 ^ x.scale < fractionCount
  · -- the fraction has one binary digit less in front of the point than the number
    obtain ⟨hs, hr⟩ := hbelow
    have hm : x.significand = fractionCount := by
      have hle : (x.significand : ℚ) < fractionCount + 1 := by linarith [hnear.low]
      have hge := significand_ge hs
      norm_cast at hle
      omega
    have hless := exponent_lt hlow (fractionCount_cast ▸ hr)
    have hmore := le_exponent hhigh (hnear.power_le hs)
    have hsame : unit = x.scale - 1 := by omega
    have hquotient := scaled_eq num den unit
    have hhalf : (num : ℚ) / den / 2 ^ unit = 2 * (num / den / 2 ^ x.scale) := by
      rw [hsame, zpow_sub_one₀ two_ne_zero]
      ring
    have hsum : (unit + 1074).toNat * fractionCount + 2 * fractionCount = x.magnitude := by
      rw [hsame, ← Nat.cast_inj (R := ℤ), hdigits, hm]
      unfold fractionCount
      omega
    rw [hresult, hnear.roundDiv_below hb hm hs hr (hquotient.trans hhalf), hsum,
      Nat.min_eq_left hmax.le]
  · have hsame : unit = x.scale := by
      rcases not_and_or.mp hbelow with hs | hr
      · omega
      · have hmore := le_exponent hhigh (fractionCount_cast ▸ not_lt.mp hr)
        omega
    have hrounded := hnear
    rw [← hsame, ← scaled_eq] at hrounded
    have hsum : (unit + 1074).toNat * fractionCount + x.significand = x.magnitude := by
      rw [hsame, ← Nat.cast_inj (R := ℤ), hdigits]
      unfold fractionCount
      omega
    rw [hresult, hrounded.roundDiv hb, hsum, Nat.min_eq_left hmax.le]

theorem ofMagnitude_magnitude (x : Binary64) : ofMagnitude x.isNegative x.magnitude = x := by
  have hbits : x.magnitude + (if x.isNegative then signWeight else 0) = x.bits.toNat := by
    have hlt := x.bits.toNat_lt
    simp only [magnitude, isNegative, decide_eq_true_eq]
    unfold signWeight
    split <;> omega
  rw [ofMagnitude, hbits, UInt64.ofNat_toNat]

/-- A number with so many digits, between powers of ten. -/
theorem decimalLength_bounds {n : Nat} (hn : n ≠ 0) :
    (10 : ℚ) ^ ((decimalLength n : ℤ) - 1) ≤ n ∧ (n : ℚ) < 10 ^ (decimalLength n : ℤ) := by
  have hpos : 0 < decimalLength n := List.length_pos_of_ne_nil Nat.toDigits_ne_nil
  obtain ⟨k, hk⟩ : ∃ k, decimalLength n = k + 1 := ⟨decimalLength n - 1, by omega⟩
  have hhigh : n < 10 ^ decimalLength n :=
    (Nat.length_toDigits_le_iff (by decide) hpos).mp (Nat.le_refl _)
  have hlow : 10 ^ k ≤ n := by
    rcases Nat.eq_zero_or_pos k with rfl | hkpos
    · omega
    · by_contra hless
      have hshort : decimalLength n ≤ k :=
        (Nat.length_toDigits_le_iff (by decide) hkpos).mpr (Nat.lt_of_not_le hless)
      omega
  constructor
  · rw [hk, Nat.cast_succ, add_sub_cancel_right, zpow_natCast]
    exact_mod_cast hlow
  · rw [zpow_natCast]
    exact_mod_cast hhigh

theorem two_power_le : (2 : ℚ) ^ (1200 : ℤ) ≤ 10 ^ (400 : ℤ) := by
  calc (2 : ℚ) ^ (1200 : ℤ) = (2 ^ (3 : ℤ)) ^ (400 : ℤ) := by rw [← zpow_mul]; rfl
    _ ≤ 10 ^ (400 : ℤ) := zpow_le_zpow_left₀ (by decide) (by norm_num) (by norm_num)

/-- What is in a neighbourhood is a number of at most 400 digits, with less than 400 zeros behind
the point. -/
theorem contains_bounds {q : ℚ} (hfinite : x.isFinite) (hne : x.magnitude ≠ 0)
    (h : x.neighbourhood.Contains q) : 10 ^ (-400 : ℤ) < q ∧ q < 10 ^ (400 : ℤ) := by
  have hnear := near_of_contains hne h
  have hm : (1 : ℚ) ≤ x.significand := by exact_mod_cast significand_pos hne
  have hlowest := x.scale_ge
  have hhighest := scale_le hfinite
  have hq : q = q / 2 ^ x.scale * 2 ^ x.scale := (div_mul_cancel₀ _ (by positivity)).symm
  have hhalf : (2 : ℚ) ^ (-1 : ℤ) ≤ q / 2 ^ x.scale := by
    have hlow := hnear.low
    norm_num
    linarith
  constructor
  · calc (10 : ℚ) ^ (-400 : ℤ) ≤ 2 ^ (-1200 : ℤ) := by
          rw [zpow_neg, zpow_neg]
          exact inv_anti₀ (by positivity) two_power_le
      _ < 2 ^ (-1 + x.scale) := zpow_lt_zpow_right₀ one_lt_two (by omega)
      _ = 2 ^ (-1 : ℤ) * 2 ^ x.scale := zpow_add₀ two_ne_zero _ _
      _ ≤ q / 2 ^ x.scale * 2 ^ x.scale := by gcongr
      _ = q := hq.symm
  · calc q = q / 2 ^ x.scale * 2 ^ x.scale := hq
      _ < 2 ^ (53 : ℤ) * 2 ^ x.scale := by
        have hpower := hnear.lt_power
        gcongr
      _ = 2 ^ (53 + x.scale) := (zpow_add₀ two_ne_zero _ _).symm
      _ ≤ 2 ^ (1200 : ℤ) := zpow_le_zpow_right₀ one_le_two (by omega)
      _ ≤ 10 ^ (400 : ℤ) := two_power_le

/-- A decimal as a fraction of whole numbers. -/
theorem decimal_eq (coefficient : Nat) (exponent : ℤ) :
    ((coefficient * Nat.pow 10 exponent.toNat : Nat) : ℚ) / (Nat.pow 10 (-exponent).toNat : Nat) =
      coefficient * 10 ^ exponent := by
  rw [zpow_eq_div (by norm_num), Nat.cast_mul, natCast_pow, natCast_pow, Nat.cast_ofNat, mul_div_assoc]

/-- **Every decimal in the neighbourhood of a number is read as the number**, with its sign. -/
theorem ofDecimal_of_contains {coefficient : Nat} {exponent : ℤ} (hfinite : x.isFinite)
    (hne : x.magnitude ≠ 0) (h : x.neighbourhood.Contains (coefficient * 10 ^ exponent)) :
    ofDecimal x.isNegative coefficient exponent = x := by
  obtain ⟨hlow, hhigh⟩ := contains_bounds hfinite hne h
  have hcoefficient : coefficient ≠ 0 := by
    rintro rfl
    rw [Nat.cast_zero, zero_mul] at hlow
    exact absurd hlow (by positivity : (0 : ℚ) ≤ 10 ^ (-400 : ℤ)).not_gt
  obtain ⟨hleading, hdigits⟩ := decimalLength_bounds hcoefficient
  have htop : -400 < exponent + decimalLength coefficient ∧
      exponent + decimalLength coefficient ≤ 400 := by
    have hpower : (0 : ℚ) < 10 ^ exponent := by positivity
    have hupper := hlow.trans (mul_lt_mul_of_pos_right hdigits hpower)
    have hlower := (mul_le_mul_of_nonneg_right hleading hpower.le).trans_lt hhigh
    rw [← zpow_add₀ (by norm_num), zpow_lt_zpow_iff_right₀ (by norm_num)] at hupper hlower
    omega
  have hden : Nat.pow 10 (-exponent).toNat ≠ 0 := (Nat.pow_pos (by decide)).ne'
  rw [← decimal_eq] at h
  simp only [ofDecimal, Bool.or_eq_true, decide_eq_true_eq]
  rw [if_neg (by omega), if_neg (by omega), ofRatio, nearestMagnitude_of_contains hfinite hne hden h,
    ofMagnitude_magnitude]

/-- A zero of either sign is read as it was written. -/
theorem ofDecimal_zero (h : x.magnitude = 0) (exponent : ℤ) :
    ofDecimal x.isNegative 0 exponent = x := by
  rw [ofDecimal, decide_eq_true rfl, Bool.true_or, if_pos rfl, ← h, ofMagnitude_magnitude]

end SchemaClient.Binary64
