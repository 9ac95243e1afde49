import Mathlib.Data.List.Chain
import SchemaClient.Proofs.Sql.Tokens

/-!
# Pieces that are written

Two pieces that would run into each other have punctuation or a blank between them. The text of such
a row of pieces has the tokens of its parts.
-/
namespace SchemaClient.Sql

open Success (mapM_eq_ok)

namespace Piece

/-- What a piece stands for; blanks and lines stand for nothing. -/
def part? : Piece → Option Part
  | word w => some (.word w)
  | operator o => some (.mark o.word)
  | star => some (.mark "*")
  | comma => some (.mark ",")
  | opening => some (.mark "(")
  | closing => some (.mark ")")
  | blank => none
  | newline => none
  | name s => some (.name s)
  | count n => some (.count n)
  | slot v => some (.value v)

/-- Whether a piece is kept apart from its neighbours by itself. -/
def isLoose : Piece → Bool
  | comma | opening | closing | blank | newline => true
  | _ => false

end Piece

/-- The token of a piece that is no place for a value. -/
def Piece.ownTokens (piece : Piece) : List Token :=
  match piece.part? with
  | some (.token t) => [t]
  | _ => []

/-- Of two neighbours at least one is kept apart by itself. -/
def Spaced (pieces : List Piece) : Prop := pieces.IsChain fun p q => p.isLoose || q.isLoose

def partsOf (pieces : List Piece) : List Part := pieces.filterMap Piece.part?

theorem boundTexts_cons {dialect : Dialect} {next : Nat} {piece : Piece} {pieces : List Piece}
    (hplain : piece.value? = none) : boundTexts dialect next (piece :: pieces) =
      piece.text (fun _ => "") :: boundTexts dialect next pieces := by
  cases piece with
  | slot v => cases hplain
  | _ => rfl

theorem boundTokens_cons {next : Nat} {piece : Piece} {pieces : List Piece}
    (hplain : piece.value? = none) : boundTokens next (partsOf (piece :: pieces)) =
      piece.ownTokens ++ boundTokens next (partsOf pieces) := by
  cases piece with
  | slot v => cases hplain
  | _ => rfl

theorem inlineText_plain {dialect : Dialect} {piece : Piece} (hplain : piece.value? = none) :
    piece.inlineText dialect = .ok (piece.text fun _ => "") := by
  cases piece with
  | slot v => cases hplain
  | _ => rfl

theorem inlineTokens_cons {dialect : Dialect} {piece : Piece} {pieces : List Piece}
    (hplain : piece.value? = none) :
    (partsOf (piece :: pieces)).flatMap (Part.inlineTokens dialect) =
      piece.ownTokens ++ (partsOf pieces).flatMap (Part.inlineTokens dialect) := by
  cases piece with
  | slot v => cases hplain
  | _ => rfl

namespace Lexer

open Numerals

/-- A piece is written as a text with these tokens; a loose one delimits what is in front of it. -/
def Writes (piece : Piece) (text : String) (read : List Token) : Prop :=
  if piece.isLoose then
    ReadsAlways text.toList read ∧ ∀ rest, Delimited (text.toList ++ rest)
  else Reads text.toList read

/-- Pieces are written as texts with these tokens, each piece by itself. -/
inductive WritesAll : List Piece → List String → List Token → Prop
  | nil : WritesAll [] [] []
  | cons {piece : Piece} {text : String} {read : List Token} {pieces : List Piece}
      {texts : List String} {others : List Token} (first : Writes piece text read)
      (rest : WritesAll pieces texts others) :
      WritesAll (piece :: pieces) (text :: texts) (read ++ others)

theorem Writes.reads {piece : Piece} {text : String} {read : List Token}
    (h : Writes piece text read) : Reads text.toList read := by
  unfold Writes at h
  split at h
  · exact h.1.reads
  · exact h

/-- Where a loose piece comes first, or none at all, nothing in front is gone on with. -/
theorem WritesAll.delimited {pieces : List Piece} {texts : List String} {read : List Token}
    (h : WritesAll pieces texts read) (hloose : ∀ piece ∈ pieces.head?, piece.isLoose)
    {rest : List Char} (hrest : Delimited rest) :
    Delimited ((String.join texts).toList ++ rest) := by
  cases h with
  | nil => simpa using hrest
  | @cons piece text _ _ texts _ first _ =>
    rw [Writes, if_pos (hloose piece rfl)] at first
    rw [String.toList_join, List.flatMap_cons, List.append_assoc]
    exact first.2 _

/-- The texts of spaced pieces have the tokens of the pieces, when they are joined. -/
theorem WritesAll.reads {pieces : List Piece} {texts : List String} {read : List Token}
    (h : WritesAll pieces texts read) (hspaced : Spaced pieces) :
    Reads (String.join texts).toList read := by
  induction h with
  | nil => exact readsAlways_nil.reads
  | @cons piece text read pieces texts others first rest ih =>
    obtain ⟨hnext, hspaced⟩ := List.isChain_cons.mp hspaced
    intro after hafter
    rw [String.toList_join, List.flatMap_cons, ← String.toList_join, List.append_assoc]
    have hothers := ih hspaced after hafter
    by_cases hpiece : piece.isLoose
    · rw [Writes, if_pos hpiece] at first
      rw [first.1, hothers, Option.map_map]
      simp only [Function.comp_def, List.append_assoc]
    · have hloose : ∀ q ∈ pieces.head?, q.isLoose := fun q hq => by simpa [hpiece] using hnext q hq
      rw [first.reads _ (rest.delimited hloose hafter), hothers, Option.map_map]
      simp only [Function.comp_def, List.append_assoc]

theorem isWord_word (w : Word) : isWord w.text := by
  cases w <;> decide

theorem writes_mark {piece : Piece} {m : String} {c : Char} (hloose : piece.isLoose)
    (hm : m.toList = [c]) (hc : c = ',' ∨ c = '(' ∨ c = ')') : Writes piece m [.mark m] := by
  obtain rfl : m = String.singleton c := by
    rw [← String.toList_inj, hm, String.toList_singleton]
  rw [Writes, if_pos hloose, String.toList_singleton]
  rcases hc with rfl | rfl | rfl
  · exact ⟨readsAlways_mark (by decide), fun _ => delimited_cons (by decide)⟩
  · exact ⟨readsAlways_mark (by decide), fun _ => delimited_cons (by decide)⟩
  · exact ⟨readsAlways_mark (by decide), fun _ => delimited_cons (by decide)⟩

theorem writes_blank {piece : Piece} {m : String} {c : Char} (hloose : piece.isLoose)
    (hm : m.toList = [c]) (hc : c = ' ' ∨ c = '\n') : Writes piece m [] := by
  rw [Writes, if_pos hloose, hm]
  rcases hc with rfl | rfl
  · exact ⟨readsAlways_blank (by decide), fun _ => delimited_cons (by decide)⟩
  · exact ⟨readsAlways_blank (by decide), fun _ => delimited_cons (by decide)⟩

/-- A piece other than a place for a value is written as the token it stands for. -/
theorem writes_plain {piece : Piece} (hplain : piece.value? = none) (slot : Value → String) :
    Writes piece (piece.text slot) piece.ownTokens := by
  cases piece with
  | word w => exact reads_of_isWord (isWord_word w)
  | operator o => exact reads_operator o
  | star =>
    have hstar : ReadsAlways "*".toList [.mark "*"] := readsAlways_mark (by decide)
    exact hstar.reads
  | comma => exact writes_mark rfl (by simp [Piece.text]) (.inl rfl)
  | opening => exact writes_mark rfl (by simp [Piece.text]) (.inr (.inl rfl))
  | closing => exact writes_mark rfl (by simp [Piece.text]) (.inr (.inr rfl))
  | blank => exact writes_blank rfl (by simp [Piece.text]) (.inl rfl)
  | newline => exact writes_blank rfl (by simp [Piece.text]) (.inr rfl)
  | name s => exact reads_identifier s
  | count n => exact reads_numeral (isNumeral_int n)
  | slot v => cases hplain

theorem writesAll_bound (dialect : Dialect) (pieces : List Piece) (next : Nat) :
    WritesAll pieces (boundTexts dialect next pieces) (boundTokens next (partsOf pieces)) := by
  induction pieces generalizing next with
  | nil => exact .nil
  | cons piece pieces ih =>
    by_cases hplain : piece.value? = none
    · rw [boundTexts_cons hplain, boundTokens_cons hplain]
      exact .cons (writes_plain hplain _) (ih next)
    · cases piece with
      | slot v =>
        have hplace : Writes (.slot v) _ _ := reads_placeholder dialect (isWord_paramName next)
        exact .cons hplace (ih (next + 1))
      | _ => exact absurd rfl hplain

theorem writesAll_inline {dialect : Dialect} {pieces : List Piece} {texts : List String}
    (h : pieces.mapM (Piece.inlineText dialect) = .ok texts) :
    WritesAll pieces texts ((partsOf pieces).flatMap (Part.inlineTokens dialect)) := by
  rw [mapM_eq_ok] at h
  induction h with
  | nil => exact .nil
  | @cons piece text pieces texts hfirst _ ih =>
    by_cases hplain : piece.value? = none
    · rw [inlineText_plain hplain, Except.ok.injEq] at hfirst
      rw [inlineTokens_cons hplain, ← hfirst]
      exact .cons (writes_plain hplain _) ih
    · cases piece with
      | slot v =>
        have hliteral : Writes (.slot v) text _ := reads_literal v hfirst
        exact .cons hliteral ih
      | _ => exact absurd rfl hplain

end Lexer
end SchemaClient.Sql
