import SchemaClient.Proofs.Sql.Numerals
import SchemaClient.Proofs.Success

/-!
# Values in SQL

A value that is written into a statement reads back as one token for each text, date and number in
it; an array has brackets and commas besides. A whole number is written if its digits are not too
many.
-/
namespace SchemaClient

theorem Value.writable_of_lt {n : Int} (h : n.natAbs < 10 ^ Numeral.digitLimit) :
    writable n = .ok n := by
  rw [writable, Nat.pow_eq, if_pos h]

theorem Value.writable_of_le {n : Int} (h : 10 ^ Numeral.digitLimit ≤ n.natAbs) :
    writable n = .error .tooLong := by
  rw [writable, Nat.pow_eq, if_neg (Nat.not_lt.mpr h)]

theorem Value.eq_of_writable {n k : Int} (h : writable n = .ok k) : k = n := by
  by_cases hn : n.natAbs < 10 ^ Numeral.digitLimit
  · rw [writable_of_lt hn] at h
    exact (Except.ok.inj h).symm
  · rw [writable_of_le (Nat.not_lt.mp hn)] at h
    cases h

namespace Sql

open Success (bind_eq_ok)

theorem wholeLiteral_of_lt {n : Int} (h : n.natAbs < 10 ^ Numeral.digitLimit) :
    wholeLiteral n = .ok (toString n) := by
  rw [wholeLiteral, Value.writable_of_lt h]
  rfl

theorem wholeLiteral_of_le {n : Int} (h : 10 ^ Numeral.digitLimit ≤ n.natAbs) :
    wholeLiteral n = .error (.notWritten .tooLong) := by
  rw [wholeLiteral, Value.writable_of_le h]
  rfl

theorem eq_of_wholeLiteral {n : Int} {text : String} (h : wholeLiteral n = .ok text) :
    text = toString n := by
  rw [wholeLiteral] at h
  cases hwritable : Value.writable n with
  | error fault => rw [hwritable] at h; cases h
  | ok k =>
    rw [hwritable, Value.eq_of_writable hwritable] at h
    exact (Except.ok.inj h).symm

def Dialect.flagToken : Dialect → Bool → Token
  | postgres, true => .word "TRUE"
  | postgres, false => .word "FALSE"
  | sqlite, true => .numeral "1"
  | sqlite, false => .numeral "0"

/-- Tokens with a comma between each two groups. -/
def commaSeparated (groups : List (List Token)) : List Token := [Token.mark ","].intercalate groups

mutual

/-- The tokens of a value that has a literal. -/
def literalTokens (dialect : Dialect) : Value → List Token
  | .null => [.word "NULL"]
  | .bool b => [dialect.flagToken b]
  | .int n => [.numeral (toString n)]
  | .float x => [.numeral x.text]
  | .decimal d => [.numeral d.text]
  | .date d => [.text d.iso]
  | .time t => [.text t.iso]
  | .datetime t => [.text t.iso]
  | .text s => [.text s]
  | .list items | .tuple items =>
    [.word "ARRAY", .mark "["] ++ commaSeparated (itemTokens dialect items) ++ [.mark "]"]
  | .bytes _ | .uuid _ | .record _ => []

def itemTokens (dialect : Dialect) : List Value → List (List Token)
  | [] => []
  | v :: rest => literalTokens dialect v :: itemTokens dialect rest

end

namespace Lexer

open Numerals

theorem readsAlways_comma : ReadsAlways [',', ' '] [.mark ","] := by
  have hcomma : ReadsAlways [','] [.mark ","] := readsAlways_mark (by decide)
  exact hcomma.append (readsAlways_blank (by decide))

theorem reads_commaSeparated {texts : List (List Char)} {groups : List (List Token)}
    (h : List.Forall₂ Reads texts groups) :
    Reads ([',', ' '].intercalate texts) (commaSeparated groups) := by
  induction h with
  | nil => exact readsAlways_nil.reads
  | @cons text group texts groups hfirst hrest ih =>
    cases hrest with
    | nil =>
      have htext : [',', ' '].intercalate [text] = text := by simp [List.intercalate]
      have hgroup : commaSeparated [group] = group := by simp [commaSeparated, List.intercalate]
      rwa [htext, hgroup]
    | @cons second other texts groups _ _ =>
      have hhead := hfirst.append readsAlways_comma fun _ => delimited_cons (by decide)
      have hread := hhead.append_reads ih
      simpa [commaSeparated, List.intercalate] using hread

theorem reads_flag (dialect : Dialect) (b : Bool) :
    Reads (dialect.flagLiteral b).toList [dialect.flagToken b] := by
  cases dialect with
  | postgres => cases b <;> exact reads_of_isWord (by decide)
  | sqlite => cases b <;> exact reads_numeral (isSize_digit (by decide)).numeral

theorem reads_array {texts : List String} {groups : List (List Token)}
    (h : List.Forall₂ (fun text group => Reads text.toList group) texts groups) :
    Reads ("ARRAY[" ++ Text.joined ", " texts ++ "]").toList
      ([.word "ARRAY", .mark "["] ++ commaSeparated groups ++ [.mark "]"]) := by
  have hitems : Reads (Text.joined ", " texts).toList (commaSeparated groups) := by
    rw [Text.joined, String.toList_intercalate]
    exact reads_commaSeparated (List.forall₂_map_left_iff.mpr h)
  have hword : Reads "ARRAY".toList [.word "ARRAY"] := reads_of_isWord (by decide)
  have hopen : ReadsAlways ['['] [.mark "["] := readsAlways_mark (by decide)
  have hclose : ReadsAlways [']'] [.mark "]"] := readsAlways_mark (by decide)
  have hstart := hword.append hopen fun _ => delimited_cons (by decide)
  have hend := hitems.append hclose fun _ => delimited_cons (by decide)
  simpa [String.toList_append] using (hstart.append hend).reads

theorem reads_arrayLiteral {dialect : Dialect} {kind text : String}
    {items : Except Fault (List String)} {groups : List (List Token)}
    (hitems : ∀ texts, items = .ok texts →
      List.Forall₂ (fun text group => Reads text.toList group) texts groups)
    (h : arrayLiteral dialect kind items = .ok text) :
    Reads text.toList ([.word "ARRAY", .mark "["] ++ commaSeparated groups ++ [.mark "]"]) := by
  cases dialect with
  | sqlite => cases h
  | postgres =>
    cases items with
    | error fault => cases h
    | ok texts =>
      cases h
      exact reads_array (hitems texts rfl)

mutual

/-- A literal reads as the tokens of its value. -/
theorem reads_literal {dialect : Dialect} :
    ∀ (v : Value) {text : String}, literal dialect v = .ok text →
      Reads text.toList (literalTokens dialect v)
  | .null => by
    intro h
    rw [literal, Except.ok.injEq] at h
    subst h
    exact reads_of_isWord (by decide)
  | .bool b => by
    intro h
    rw [literal, Except.ok.injEq] at h
    subst h
    exact reads_flag dialect b
  | .int n => by
    intro h
    rw [literal] at h
    rw [eq_of_wholeLiteral h]
    exact reads_numeral (isNumeral_int n)
  | .float x => by
    intro h
    rw [literal] at h
    split at h
    · next hfinite => cases h; exact reads_numeral (isNumeral_binary64 hfinite)
    · cases h
  | .decimal d => by
    intro h
    rw [literal] at h
    split at h
    · next hfinite => cases h; exact reads_numeral (isNumeral_decimal hfinite)
    · cases h
  | .date d => by
    intro h
    rw [literal, Except.ok.injEq] at h
    subst h
    exact reads_textLiteral d.iso
  | .time t => by
    intro h
    rw [literal, Except.ok.injEq] at h
    subst h
    exact reads_textLiteral t.iso
  | .datetime t => by
    intro h
    rw [literal, Except.ok.injEq] at h
    subst h
    exact reads_textLiteral t.iso
  | .text s => by
    intro h
    rw [literal, Except.ok.injEq] at h
    subst h
    exact reads_textLiteral s
  | .list items => by
    intro h
    rw [literal] at h
    exact reads_arrayLiteral (fun _ htexts => reads_literals items htexts) h
  | .tuple items => by
    intro h
    rw [literal] at h
    exact reads_arrayLiteral (fun _ htexts => reads_literals items htexts) h
  | .bytes _ => by
    intro h
    rw [literal] at h
    cases h
  | .uuid _ => by
    intro h
    rw [literal] at h
    cases h
  | .record _ => by
    intro h
    rw [literal] at h
    cases h

theorem reads_literals {dialect : Dialect} :
    ∀ (values : List Value) {texts : List String}, literals dialect values = .ok texts →
      List.Forall₂ (fun text group => Reads text.toList group) texts (itemTokens dialect values)
  | [], _, h => by cases h; exact .nil
  | v :: rest, texts, h => by
    simp only [literals, bind_eq_ok] at h
    obtain ⟨first, hfirst, others, hothers, htexts⟩ := h
    cases htexts
    exact .cons (reads_literal v hfirst) (reads_literals rest hothers)

end

end Lexer
end Sql
end SchemaClient
