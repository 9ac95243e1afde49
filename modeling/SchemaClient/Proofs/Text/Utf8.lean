import Mathlib.Data.List.Forall2
import Mathlib.Tactic.SplitIfs
import SchemaClient.Text.Utf8

/-!
# Bytes that encode no text

Bytes in which no fault is found are the encodings of characters one after the other, so bytes that
encode no text have a first fault that can be told.
-/
namespace SchemaClient.Text

/-- Bytes that lie in their ranges, one byte for each range. -/
abbrev Within (ranges : List (UInt8 × UInt8)) (taken : List UInt8) : Prop :=
  List.Forall₂ (fun range b => range.1 ≤ b ∧ b ≤ range.2) ranges taken

theorem follow_eq_ok {length : Nat} {ranges : List (UInt8 × UInt8)} {rest after : List UInt8}
    (h : follow length ranges rest = .ok after) :
    ∃ taken, rest = taken ++ after ∧ Within ranges taken := by
  induction ranges generalizing length rest with
  | nil =>
    cases h
    exact ⟨[], rfl, .nil⟩
  | cons range ranges ih =>
    cases rest with
    | nil => cases h
    | cons b rest =>
      rw [follow] at h
      split at h
      · next hb =>
        rw [Bool.and_eq_true, decide_eq_true_eq, decide_eq_true_eq] at hb
        obtain ⟨taken, rfl, htaken⟩ := ih h
        exact ⟨b :: taken, rfl, .cons hb htaken⟩
      · cases h

/-- A byte that goes on with a character. -/
def Continues (b : UInt8) : Prop := 0x80 ≤ b.toNat ∧ b.toNat ≤ 0xbf

theorem exists_char_of_code (code : Nat) (h : code.isValidChar) :
    ∃ c : Char, c.val.toNat = code :=
  ⟨Char.ofNatAux code h, rfl⟩

theorem ofNat_of_toNat {n : Nat} {b : UInt8} (h : n = b.toNat) : UInt8.ofNat n = b := by
  rw [h, UInt8.ofNat_toNat]

theorem exists_char_one {first : UInt8} (h : first.toNat < 0x80) :
    ∃ c, String.utf8EncodeChar c = [first] := by
  obtain ⟨c, hc⟩ := exists_char_of_code first.toNat (.inl (by omega))
  refine ⟨c, ?_⟩
  rw [String.utf8EncodeChar, hc, if_pos (by omega), ofNat_of_toNat rfl]

theorem exists_char_two {first second : UInt8} (hlow : 0xc2 ≤ first.toNat)
    (hhigh : first.toNat < 0xe0) (hsecond : Continues second) :
    ∃ c, String.utf8EncodeChar c = [first, second] := by
  obtain ⟨hs, hs'⟩ := hsecond
  obtain ⟨c, hc⟩ := exists_char_of_code
    ((first.toNat - 0xc0) * 0x40 + (second.toNat - 0x80)) (.inl (by omega))
  refine ⟨c, ?_⟩
  rw [String.utf8EncodeChar, hc, if_neg (by omega), if_pos (by omega)]
  rw [ofNat_of_toNat (b := first) (by omega), ofNat_of_toNat (b := second) (by omega)]

theorem exists_char_three {first second third : UInt8} (hlow : 0xe0 ≤ first.toNat)
    (hhigh : first.toNat < 0xf0) (hsecond : Continues second) (hthird : Continues third)
    (hshort : first.toNat = 0xe0 → 0xa0 ≤ second.toNat)
    (hhalf : first.toNat = 0xed → second.toNat ≤ 0x9f) :
    ∃ c, String.utf8EncodeChar c = [first, second, third] := by
  obtain ⟨hs, hs'⟩ := hsecond
  obtain ⟨ht, ht'⟩ := hthird
  have hvalid : Nat.isValidChar
      ((first.toNat - 0xe0) * 0x1000 + (second.toNat - 0x80) * 0x40 + (third.toNat - 0x80)) := by
    unfold Nat.isValidChar
    omega
  obtain ⟨c, hc⟩ := exists_char_of_code _ hvalid
  refine ⟨c, ?_⟩
  rw [String.utf8EncodeChar, hc, if_neg (by omega), if_neg (by omega), if_pos (by omega)]
  rw [ofNat_of_toNat (b := first) (by omega), ofNat_of_toNat (b := second) (by omega),
    ofNat_of_toNat (b := third) (by omega)]

theorem exists_char_four {first second third fourth : UInt8} (hlow : 0xf0 ≤ first.toNat)
    (hhigh : first.toNat ≤ 0xf4) (hsecond : Continues second) (hthird : Continues third)
    (hfourth : Continues fourth) (hshort : first.toNat = 0xf0 → 0x90 ≤ second.toNat)
    (hlast : first.toNat = 0xf4 → second.toNat ≤ 0x8f) :
    ∃ c, String.utf8EncodeChar c = [first, second, third, fourth] := by
  obtain ⟨hs, hs'⟩ := hsecond
  obtain ⟨ht, ht'⟩ := hthird
  obtain ⟨hf, hf'⟩ := hfourth
  have hvalid : Nat.isValidChar ((first.toNat - 0xf0) * 0x40000 + (second.toNat - 0x80) * 0x1000 +
      (third.toNat - 0x80) * 0x40 + (fourth.toNat - 0x80)) := by
    unfold Nat.isValidChar
    omega
  obtain ⟨c, hc⟩ := exists_char_of_code _ hvalid
  refine ⟨c, ?_⟩
  rw [String.utf8EncodeChar, hc, if_neg (by omega), if_neg (by omega), if_neg (by omega)]
  rw [ofNat_of_toNat (b := first) (by omega), ofNat_of_toNat (b := second) (by omega),
    ofNat_of_toNat (b := third) (by omega), ofNat_of_toNat (b := fourth) (by omega)]

theorem within_cons {range : UInt8 × UInt8} {ranges : List (UInt8 × UInt8)} {taken : List UInt8}
    (h : Within (range :: ranges) taken) :
    ∃ b rest, taken = b :: rest ∧ (range.1.toNat ≤ b.toNat ∧ b.toNat ≤ range.2.toNat) ∧
      Within ranges rest := by
  obtain ⟨b, rest, ⟨hlow, hhigh⟩, hrest, rfl⟩ := List.forall₂_cons_left_iff.mp h
  exact ⟨b, rest, rfl, ⟨UInt8.le_iff_toNat_le.mp hlow, UInt8.le_iff_toNat_le.mp hhigh⟩, hrest⟩

theorem within_nil {taken : List UInt8} (h : Within [] taken) : taken = [] :=
  List.forall₂_nil_left_iff.mp h

/-- A first byte and what may follow it are the encoding of a character. -/
theorem exists_char {first : UInt8} {ranges : List (UInt8 × UInt8)} {taken : List UInt8}
    (hranges : followers? first = some ranges) (htaken : Within ranges taken) :
    ∃ c, String.utf8EncodeChar c = first :: taken := by
  -- The ranges of the second byte differ where the code would be too short, a half or too large.
  unfold followers? at hranges
  simp only [UInt8.lt_iff_toNat_lt, ← UInt8.toNat_inj, UInt8.reduceToNat] at hranges
  split_ifs at hranges with h80 hc2 he0 he0' hed hf0 hf0' hf4 hf4' <;> cases hranges
  · rw [within_nil htaken]
    exact exists_char_one h80
  · obtain ⟨second, rest, rfl, hsecond, hrest⟩ := within_cons htaken
    rw [within_nil hrest]
    exact exists_char_two (by omega) he0 hsecond
  all_goals obtain ⟨second, rest, rfl, hsecond, hrest⟩ := within_cons htaken
  all_goals obtain ⟨third, rest, rfl, hthird, hrest⟩ := within_cons hrest
  all_goals simp only [UInt8.reduceToNat] at hsecond hthird
  · rw [within_nil hrest]
    exact exists_char_three (by omega) (by omega) ⟨by omega, by omega⟩ hthird (by omega) (by omega)
  · rw [within_nil hrest]
    exact exists_char_three (by omega) (by omega) ⟨by omega, by omega⟩ hthird (by omega) (by omega)
  · rw [within_nil hrest]
    exact exists_char_three (by omega) (by omega) ⟨by omega, by omega⟩ hthird (by omega) (by omega)
  all_goals obtain ⟨fourth, rest, rfl, hfourth, hrest⟩ := within_cons hrest
  all_goals simp only [UInt8.reduceToNat] at hfourth
  all_goals rw [within_nil hrest]
  all_goals apply exists_char_four _ _ ⟨_, _⟩ hthird hfourth
  all_goals omega

/-- Bytes without a fault are the encodings of some characters. -/
theorem exists_chars {position fuel : Nat} {content : List UInt8} (hfuel : content.length ≤ fuel)
    (h : encodingFaultFrom? position fuel content = none) :
    ∃ chars : List Char, content = chars.flatMap String.utf8EncodeChar := by
  induction fuel generalizing position content with
  | zero =>
    rw [List.length_eq_zero_iff.mp (Nat.le_zero.mp hfuel)]
    exact ⟨[], rfl⟩
  | succ fuel ih =>
    cases content with
    | nil => exact ⟨[], rfl⟩
    | cons first rest =>
      rw [encodingFaultFrom?] at h
      split at h
      · cases h
      · next ranges hranges =>
        split at h
        · cases h
        · next after hfollow =>
          obtain ⟨taken, rfl, htaken⟩ := follow_eq_ok hfollow
          obtain ⟨c, hc⟩ := exists_char hranges htaken
          rw [List.length_cons, List.length_append] at hfuel
          obtain ⟨chars, rfl⟩ := ih (by omega) h
          exact ⟨c :: chars, by rw [List.flatMap_cons, hc, List.cons_append]⟩

/-- Bytes that encode no text have a first fault. -/
theorem exists_encodingFault {content : List UInt8} (h : ofBytes? content = none) :
    ∃ fault, encodingFault? content = some fault := by
  rw [← Option.ne_none_iff_exists']
  intro hnone
  obtain ⟨chars, hchars⟩ := exists_chars (Nat.le_refl _) hnone
  have hvalid : ByteArray.IsValidUTF8 ⟨content.toArray⟩ := by
    refine ⟨chars, ?_⟩
    rw [hchars, List.utf8Encode]
    exact ByteArray.ext List.data_toByteArray.symm
  rw [ofBytes?, String.fromUTF8?, dif_pos hvalid] at h
  cases h

end SchemaClient.Text
