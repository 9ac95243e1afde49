import Mathlib.Algebra.Ring.Nat
import SchemaClient.Number.Decimal
import SchemaClient.Number.Shortest
import SchemaClient.Proofs.Runs

/-!
# Digits

Texts of decimal digits and the numbers they stand for. Zeros in front change nothing; each zero
behind makes the number ten times as large. Finite numbers are written with digits.
-/
namespace SchemaClient.Numerals

def Digits (text : List Char) : Prop := ∀ c ∈ text, c.isDigit

theorem Digits.append {first second : List Char} (hfirst : Digits first) (hsecond : Digits second) :
    Digits (first ++ second) := List.forall_mem_append.mpr ⟨hfirst, hsecond⟩

theorem Digits.take {text : List Char} (h : Digits text) (n : Nat) : Digits (text.take n) :=
  fun c hc => h c (List.mem_of_mem_take hc)

theorem Digits.drop {text : List Char} (h : Digits text) (n : Nat) : Digits (text.drop n) :=
  fun c hc => h c (List.mem_of_mem_drop hc)

theorem digits_replicate (n : Nat) : Digits (List.replicate n '0') := by
  intro c hc
  rw [List.eq_of_mem_replicate hc]
  rfl

theorem digits_repr (n : Nat) : Digits (Nat.repr n).toList := fun _ hc => Runs.repr_isDigit hc

theorem digits_paddedDigits (width n : Nat) : Digits (Binary64.paddedDigits width n).toList := by
  rw [Binary64.paddedDigits, String.toList_append, String.toList_ofList]
  exact (digits_replicate _).append (digits_repr n)

theorem paddedDigits_ne_nil (width n : Nat) : (Binary64.paddedDigits width n).toList ≠ [] := by
  rw [Binary64.paddedDigits, String.toList_append]
  exact List.append_ne_nil_of_right_ne_nil _ Runs.repr_ne_nil

theorem take_ne_nil {text : List Char} {n : Nat} (hn : n ≠ 0) (h : text ≠ []) :
    text.take n ≠ [] := by
  rw [Ne, List.take_eq_nil_iff, not_or]
  exact ⟨hn, h⟩

theorem digits_zero : Digits ['0'] := digits_replicate 1

theorem digitChar_eq_zero {d : Nat} (hlt : d < 10) (h : Nat.digitChar d = '0') : d = 0 := by
  have hall : ∀ d < 10, Nat.digitChar d = '0' → d = 0 := by decide
  exact hall d hlt h

/-- Only the digits of zero start with a zero. -/
theorem eq_zero_of_head {n : Nat} (h : (Nat.toDigits 10 n).head? = some '0') : n = 0 := by
  induction n using Nat.strongRecOn with
  | ind n ih =>
    rw [Nat.toDigits_eq_if (by decide)] at h
    split at h
    · next hn => exact digitChar_eq_zero hn (Option.some.inj h)
    · next hn =>
      rw [List.head?_append, Option.or_of_isSome (by simp [Nat.toDigits_ne_nil])] at h
      have hquotient := ih (n / 10) (by omega) h
      omega

theorem digitsValue_repr (n : Nat) : Decimal.digitsValue (Nat.repr n).toList = n := by
  rw [Decimal.digitsValue, ← Nat.ofDigitChars_eq_foldl, Nat.toList_repr,
    Nat.ofDigitChars_ten_toDigits]

theorem digitsValue_zeros (n : Nat) (digits : List Char) :
    Decimal.digitsValue (List.replicate n '0' ++ digits) = Decimal.digitsValue digits := by
  induction n with
  | zero => rfl
  | succ n ih =>
    rw [List.replicate_succ, List.cons_append, ← ih]
    rfl

theorem digitsValue_append_zeros (digits : List Char) (n : Nat) :
    Decimal.digitsValue (digits ++ List.replicate n '0') =
      Decimal.digitsValue digits * 10 ^ n := by
  induction n with
  | zero => rw [List.replicate_zero, List.append_nil, pow_zero, Nat.mul_one]
  | succ n ih =>
    have hlast : ∀ front : List Char, Decimal.digitsValue (front ++ ['0']) =
        10 * Decimal.digitsValue front := by
      intro front
      rw [Decimal.digitsValue, List.foldl_append]
      rfl
    rw [List.replicate_succ', ← List.append_assoc, hlast, ih, pow_succ]
    ac_rfl

theorem digitsValue_padded (width n : Nat) :
    Decimal.digitsValue (Binary64.paddedDigits width n).toList = n := by
  rw [Binary64.paddedDigits, String.toList_append, String.toList_ofList, digitsValue_zeros,
    digitsValue_repr]

end SchemaClient.Numerals

namespace SchemaClient.Binary64

variable {x : Binary64}

theorem not_isNaN (h : x.isFinite) : ¬ x.isNaN := by
  rw [isFinite, decide_eq_true_eq] at h
  rw [isNaN, decide_eq_true_eq]
  omega

theorem not_isInfinite (h : x.isFinite) : ¬ x.isInfinite := by
  rw [isFinite, decide_eq_true_eq] at h
  rw [isInfinite, beq_iff_eq]
  omega

/-- A finite number is written as its shortest decimal, behind its sign. -/
theorem toList_text (h : x.isFinite) : x.text.toList =
    (if x.isNegative then ['-'] else []) ++ (standard.write x.shortest).toList := by
  simp only [text, if_neg (not_isNaN h), if_neg (not_isInfinite h), String.toList_append]
  split <;> rfl

end SchemaClient.Binary64
