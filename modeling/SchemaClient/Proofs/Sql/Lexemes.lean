import SchemaClient.Proofs.Sql.Pieces

/-!
# Lexemes

A text cut at its tokens: each token with the characters it is written with, and the blanks between
them. No character is lost, so a text can be changed token by token. The lexemes of a statement's
text are its pieces, one for one.
-/
namespace SchemaClient.Sql

/-- Characters of a text with the token they are, or a blank. -/
structure Lexeme where
  token? : Option Token
  written : List Char

namespace Lexer

/-- The lexemes of a text, if all of it can be read. -/
def lexemes (text : List Char) : Option (List Lexeme) :=
  match text with
  | [] => some []
  | c :: rest =>
    if c.isWhitespace then (lexemes rest).map (⟨none, [c]⟩ :: ·)
    else
      match _h : next (c :: rest) with
      | some (token, after) =>
        let written := (c :: rest).take ((c :: rest).length - after.length)
        (lexemes after).map (⟨some token, written⟩ :: ·)
      | none => none
termination_by text.length
decreasing_by
  · exact Nat.lt_succ_self _
  · exact Nat.lt_succ_of_le (next_suffix _h).length_le

theorem lexemes_nil : lexemes [] = some [] := by rw [lexemes]

theorem lexemes_blank {c : Char} (h : c.isWhitespace) (rest : List Char) :
    lexemes (c :: rest) = (lexemes rest).map (⟨none, [c]⟩ :: ·) := by
  rw [lexemes, if_pos h]

theorem lexemes_of_next {written after : List Char} {token : Token}
    (h : next (written ++ after) = some (token, after)) :
    lexemes (written ++ after) = (lexemes after).map (⟨some token, written⟩ :: ·) := by
  have htake : (written ++ after).take ((written ++ after).length - after.length) = written := by
    rw [List.length_append, Nat.add_sub_cancel, List.take_left]
  cases htext : written ++ after with
  | nil => rw [htext] at h; cases h
  | cons c rest =>
    rw [htext] at h htake
    have hblank : ¬ c.isWhitespace := fun hblank => by
      rw [next_whitespace hblank] at h
      cases h
    rw [lexemes, if_neg hblank]
    split
    · next other rest' hother =>
      rw [h] at hother
      cases hother
      dsimp only
      rw [htake]
    · next hnone => rw [h] at hnone; cases hnone

theorem lexemes_mark {c : Char} (h : c ∈ ['(', ')', '[', ']', ',', '*', '=']) (rest : List Char) :
    lexemes (c :: rest) =
      (lexemes rest).map (⟨some (.mark (String.singleton c)), [c]⟩ :: ·) := by
  have hmark : next ([c] ++ rest) = some (.mark (String.singleton c), rest) := next_mark h rest
  exact lexemes_of_next hmark

/-- Lexemes leave nothing of their text out and have its tokens. -/
theorem lexemes_exact {text : List Char} {cut : List Lexeme} (h : lexemes text = some cut) :
    cut.flatMap Lexeme.written = text ∧ tokens text = some (cut.filterMap Lexeme.token?) := by
  induction text using lexemes.induct generalizing cut with
  | case1 =>
    rw [lexemes_nil] at h
    cases h
    exact ⟨rfl, tokens_nil⟩
  | case2 c rest hblank ih =>
    rw [lexemes_blank hblank, Option.map_eq_some_iff] at h
    obtain ⟨others, hothers, rfl⟩ := h
    obtain ⟨hwritten, htokens⟩ := ih hothers
    rw [List.flatMap_cons, hwritten, tokens_blank hblank, htokens]
    exact ⟨rfl, rfl⟩
  | case3 c rest hblank token after hnext ih =>
    have hread := tokens_of_next hnext
    obtain ⟨written, htext⟩ : after <:+ c :: rest :=
      (next_suffix hnext).trans (List.suffix_cons _ _)
    rw [← htext] at hnext h
    rw [lexemes_of_next hnext, Option.map_eq_some_iff] at h
    obtain ⟨others, hothers, rfl⟩ := h
    obtain ⟨hwritten, htokens⟩ := ih hothers
    rw [List.flatMap_cons, hwritten, htext, hread, htokens]
    exact ⟨rfl, rfl⟩
  | case4 c rest hblank hnext =>
    rw [lexemes, if_neg hblank] at h
    split at h
    · next other rest' hother => rw [hnext] at hother; cases hother
    · cases h

/-- The lexeme of a piece that is no place for a value. -/
def pieceLexeme (piece : Piece) : Lexeme :=
  ⟨piece.ownTokens.head?, (piece.text fun _ => "").toList⟩

/-- The lexemes of pieces in which the parameters are numbered from `next` on. -/
def boundLexemes (dialect : Dialect) (next : Nat) : List Piece → List Lexeme
  | [] => []
  | .slot _ :: rest =>
    ⟨some (.placeholder (paramName next)), (dialect.placeholder (paramName next)).toList⟩ ::
      boundLexemes dialect (next + 1) rest
  | piece :: rest => pieceLexeme piece :: boundLexemes dialect next rest

theorem boundLexemes_cons {dialect : Dialect} {next : Nat} {piece : Piece} {pieces : List Piece}
    (hplain : piece.value? = none) : boundLexemes dialect next (piece :: pieces) =
      pieceLexeme piece :: boundLexemes dialect next pieces := by
  cases piece with
  | slot v => cases hplain
  | _ => rfl

/-- A loose piece is a lexeme of its own whatever follows, any other if nothing goes on with it. -/
theorem lexemes_piece {piece : Piece} (hplain : piece.value? = none) {rest : List Char}
    (h : piece.isLoose ∨ Delimited rest) :
    lexemes ((piece.text fun _ => "").toList ++ rest) =
      (lexemes rest).map (pieceLexeme piece :: ·) := by
  cases piece with
  | word w => exact lexemes_of_next (scans_of_isWord (isWord_word w) rest (h.resolve_left nofun))
  | operator o => exact lexemes_of_next (scans_operator o rest (h.resolve_left nofun))
  | star => exact lexemes_mark (by decide) rest
  | comma => exact lexemes_mark (by decide) rest
  | opening => exact lexemes_mark (by decide) rest
  | closing => exact lexemes_mark (by decide) rest
  | blank => exact lexemes_blank (by decide) rest
  | newline => exact lexemes_blank (by decide) rest
  | name s => exact lexemes_of_next (scans_identifier s rest (h.resolve_left nofun))
  | count n =>
    exact lexemes_of_next (scans_numeral (Numerals.isNumeral_int n) rest (h.resolve_left nofun))
  | slot v => cases hplain

/-- The lexemes of a text with parameters are its pieces. -/
theorem lexemes_bound (dialect : Dialect) {pieces : List Piece} (hspaced : Spaced pieces)
    (next : Nat) :
    lexemes (String.join (boundTexts dialect next pieces)).toList =
      some (boundLexemes dialect next pieces) := by
  induction pieces generalizing next with
  | nil => exact lexemes_nil
  | cons piece pieces ih =>
    obtain ⟨hneighbour, htail⟩ := List.isChain_cons.mp hspaced
    have hdelimited (following : Nat) (hloose : ¬ piece.isLoose) :
        Delimited (String.join (boundTexts dialect following pieces)).toList := by
      have hnext : ∀ q ∈ pieces.head?, q.isLoose := fun q hq => by
        simpa [hloose] using hneighbour q hq
      have hwrites := writesAll_bound dialect pieces following
      rw [← List.append_nil (String.toList _)]
      exact hwrites.delimited hnext delimited_nil
    by_cases hplain : piece.value? = none
    · have hpiece : piece.isLoose ∨
          Delimited (String.join (boundTexts dialect next pieces)).toList := by
        by_cases hloose : piece.isLoose
        · exact .inl hloose
        · exact .inr (hdelimited next hloose)
      rw [boundTexts_cons hplain, boundLexemes_cons hplain, String.toList_join, List.flatMap_cons,
        ← String.toList_join, lexemes_piece hplain hpiece, ih htail next]
      rfl
    · cases piece with
      | slot v =>
        have hscan := scans_placeholder dialect (isWord_paramName next) _ (hdelimited (next + 1) nofun)
        rw [boundTexts, boundLexemes, String.toList_join, List.flatMap_cons, ← String.toList_join,
          lexemes_of_next hscan, ih htail (next + 1)]
        rfl
      | _ => exact absurd rfl hplain

end Lexer
end SchemaClient.Sql
