import Mathlib.Data.List.Infix
import SchemaClient.Proofs.Runs

/-!
# Tokens of SQL

A text is split into names between double quotes, texts between single quotes, marks of parameters,
numbers, words and punctuation. In names and texts only the quote itself is special; it is written
twice. Comments are not read, and neither is a word or a number with a quote right behind it, which
some databases take for a text with an encoding.
-/
namespace SchemaClient.Sql

inductive Token where
  /-- A name, without its quotes. -/
  | identifier (name : String)
  /-- A text, without its quotes. -/
  | text (s : String)
  | placeholder (name : String)
  /-- A number as it is written, with its sign. -/
  | numeral (written : String)
  | word (w : String)
  | mark (m : String)
  deriving DecidableEq

namespace Lexer

def isWordStart (c : Char) : Bool := c.isAlpha || c = '_'

def isWordPart (c : Char) : Bool := c.isAlphanum || c = '_'

def isQuote (c : Char) : Bool := c = '"' || c = '\''

/-- What stands before the closing quote, and what follows it. -/
def closed? (quote : Char) : List Char → Option (List Char × List Char)
  | [] => none
  | [c] => if c = quote then some ([], []) else none
  | c :: d :: rest =>
    if c = quote then
      if d = quote then (closed? quote rest).map fun (s, after) => (quote :: s, after)
      else some ([], d :: rest)
    else (closed? quote (d :: rest)).map fun (s, after) => (c :: s, after)

/-- Digits after a point, and what follows them. -/
def fraction : List Char → List Char × List Char
  | '.' :: rest => ('.' :: rest.takeWhile Char.isDigit, rest.dropWhile Char.isDigit)
  | rest => ([], rest)

/-- A sign, and what follows it. -/
def sign : List Char → List Char × List Char
  | '+' :: rest => (['+'], rest)
  | '-' :: rest => (['-'], rest)
  | rest => ([], rest)

/-- An exponent with its mark, and what follows it. -/
def exponent (text : List Char) : List Char × List Char :=
  match text with
  | c :: rest =>
    let (sign, digits) := sign rest
    if (c = 'e' || c = 'E') && !(digits.takeWhile Char.isDigit).isEmpty then
      (c :: sign ++ digits.takeWhile Char.isDigit, digits.dropWhile Char.isDigit)
    else ([], text)
  | [] => ([], text)

/-- Whether a number may end where this text goes on. -/
def endsNumber : List Char → Bool
  | c :: _ => !isWordPart c && !isQuote c && c ≠ '.'
  | [] => true

/-- A number of which the start has been read. -/
def numeral? (start text : List Char) : Option (Token × List Char) :=
  let whole := text.takeWhile Char.isDigit
  let (fraction, rest) := fraction (text.dropWhile Char.isDigit)
  let (exponent, rest) := exponent rest
  if endsNumber rest then
    some (.numeral (String.ofList (start ++ whole ++ fraction ++ exponent)), rest)
  else none

/-- A word of which the start has been read. -/
def word? (start : Char) (text : List Char) : Option (Token × List Char) :=
  let rest := text.dropWhile isWordPart
  if rest.head?.any isQuote then none
  else some (.word (String.ofList (start :: text.takeWhile isWordPart)), rest)

/-- The name of a parameter between parentheses and the letter behind them. -/
def bracketed? (text : List Char) : Option (Token × List Char) :=
  match text.dropWhile isWordPart with
  | ')' :: 's' :: rest => some (.placeholder (String.ofList (text.takeWhile isWordPart)), rest)
  | _ => none

def singleMarks : List Char :=
  ['(', ')', '[', ']', ',', ';', '.', '*', '+', '-', '/', '%', '=', '<', '>', ':']

/-- Punctuation of one or two characters. Two may also open a comment. -/
def mark? : List Char → Option (Token × List Char)
  | '-' :: '-' :: _ => none
  | '/' :: '*' :: _ => none
  | '<' :: '=' :: rest => some (.mark "<=", rest)
  | '<' :: '>' :: rest => some (.mark "<>", rest)
  | '>' :: '=' :: rest => some (.mark ">=", rest)
  | '!' :: '=' :: rest => some (.mark "!=", rest)
  | '|' :: '|' :: rest => some (.mark "||", rest)
  | c :: rest => if c ∈ singleMarks then some (.mark (String.singleton c), rest) else none
  | [] => none

/-- The first token of a text that starts with one, and what follows it. -/
def next : List Char → Option (Token × List Char)
  | [] => none
  | c :: rest =>
    if c = '"' then
      (closed? '"' rest).map fun (s, after) => (.identifier (String.ofList s), after)
    else if c = '\'' then
      (closed? '\'' rest).map fun (s, after) => (.text (String.ofList s), after)
    else if c.isDigit then numeral? [c] rest
    else if c = '-' && rest.head?.any Char.isDigit then numeral? [c] rest
    else if isWordStart c then word? c rest
    else if c = ':' && rest.head?.any isWordStart then
      some (.placeholder (String.ofList (rest.takeWhile isWordPart)), rest.dropWhile isWordPart)
    else if c = '%' && rest.head? = some '(' then bracketed? (rest.drop 1)
    else mark? (c :: rest)

theorem closed?_suffix {quote : Char} {text s after : List Char}
    (h : closed? quote text = some (s, after)) : after <:+ text := by
  induction text using closed?.induct quote generalizing s with
  | case1 => cases h
  | case2 => simp only [closed?, if_true] at h; cases h; exact List.suffix_cons _ _
  | case3 c hc => simp [closed?, hc] at h
  | case4 rest ih =>
    simp only [closed?, if_true, Option.map_eq_some_iff, Prod.exists, Prod.mk.injEq] at h
    obtain ⟨s, rest', hrest, -, rfl⟩ := h
    exact (ih hrest).trans ((List.suffix_cons _ _).trans (List.suffix_cons _ _))
  | case5 d rest hd =>
    simp only [closed?, if_true, if_neg hd] at h
    cases h
    exact List.suffix_cons _ _
  | case6 c d rest hc ih =>
    simp only [closed?, if_neg hc, Option.map_eq_some_iff, Prod.exists, Prod.mk.injEq] at h
    obtain ⟨s, rest', hrest, -, rfl⟩ := h
    exact (ih hrest).trans (List.suffix_cons _ _)

theorem fraction_suffix (text : List Char) : (fraction text).2 <:+ text := by
  unfold fraction
  split
  · exact (List.dropWhile_suffix _).trans (List.suffix_cons _ _)
  · exact List.suffix_rfl

theorem sign_suffix (text : List Char) : (sign text).2 <:+ text := by
  unfold sign
  split
  · exact List.suffix_cons _ _
  · exact List.suffix_cons _ _
  · exact List.suffix_rfl

theorem exponent_suffix (text : List Char) : (exponent text).2 <:+ text := by
  unfold exponent
  split
  · next c rest =>
    dsimp only
    split
    · exact (List.dropWhile_suffix _).trans ((sign_suffix rest).trans (List.suffix_cons _ _))
    · exact List.suffix_rfl
  · exact List.suffix_rfl

theorem numeral?_suffix {start text after : List Char} {token : Token}
    (h : numeral? start text = some (token, after)) : after <:+ text := by
  simp only [numeral?] at h
  split at h
  · cases h
    exact (exponent_suffix _).trans ((fraction_suffix _).trans (List.dropWhile_suffix _))
  · cases h

theorem mark?_suffix {c : Char} {rest after : List Char} {token : Token}
    (h : mark? (c :: rest) = some (token, after)) : after <:+ rest := by
  unfold mark? at h
  split at h
  case h_8 => split at h <;> grind
  all_goals grind

/-- A token is at least one character long. -/
theorem next_suffix {c : Char} {rest after : List Char} {token : Token}
    (h : next (c :: rest) = some (token, after)) : after <:+ rest := by
  simp only [next] at h
  split_ifs at h
  · simp only [Option.map_eq_some_iff, Prod.exists, Prod.mk.injEq] at h
    obtain ⟨s, rest', hrest, -, rfl⟩ := h
    exact closed?_suffix hrest
  · simp only [Option.map_eq_some_iff, Prod.exists, Prod.mk.injEq] at h
    obtain ⟨s, rest', hrest, -, rfl⟩ := h
    exact closed?_suffix hrest
  · exact numeral?_suffix h
  · exact numeral?_suffix h
  · simp only [word?] at h
    split_ifs at h
    cases h
    exact List.dropWhile_suffix _
  · cases h
    exact List.dropWhile_suffix _
  · unfold bracketed? at h
    split at h
    · next hdrop =>
      cases h
      have hsuffix := List.dropWhile_suffix isWordPart (l := rest.drop 1)
      rw [hdrop] at hsuffix
      exact (List.suffix_cons _ _).trans ((List.suffix_cons _ _).trans
        (hsuffix.trans (List.drop_suffix _ _)))
    · cases h
  · exact mark?_suffix h

/-- The tokens of a text, if all of it can be read. -/
def tokens (text : List Char) : Option (List Token) :=
  match text with
  | [] => some []
  | c :: rest =>
    if c.isWhitespace then tokens rest
    else
      match _h : next (c :: rest) with
      | some (token, after) => (tokens after).map (token :: ·)
      | none => none
termination_by text.length
decreasing_by
  · exact Nat.lt_succ_self _
  · exact Nat.lt_succ_of_le (next_suffix _h).length_le

end Lexer
end SchemaClient.Sql
