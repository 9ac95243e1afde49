import SchemaClient.Proofs.Sql.Lexer
import SchemaClient.Sql.Render

/-!
# Texts that are read back

A text reads as tokens if the lexer finds these tokens in it, whatever follows, as long as that does
not go on with the last of them.
-/
namespace SchemaClient.Sql

open Runs (Stops stops_cons takeWhile_run dropWhile_run takeWhile_of_stops
  dropWhile_of_stops)

namespace Lexer

theorem tokens_nil : tokens [] = some [] := by rw [tokens]

theorem tokens_blank {c : Char} {rest : List Char} (h : c.isWhitespace) :
    tokens (c :: rest) = tokens rest := by
  rw [tokens, if_pos h]

theorem next_whitespace {c : Char} {rest : List Char} (h : c.isWhitespace) :
    next (c :: rest) = none := by
  simp only [Char.isWhitespace, Bool.or_eq_true, decide_eq_true_eq] at h
  rcases h with ((rfl | rfl) | rfl) | rfl <;> rfl

theorem tokens_of_next {text after : List Char} {token : Token}
    (h : next text = some (token, after)) : tokens text = (tokens after).map (token :: ·) := by
  cases text with
  | nil => cases h
  | cons c rest =>
    have hblank : ¬ c.isWhitespace := fun hblank => by
      rw [next_whitespace hblank] at h
      cases h
    rw [tokens, if_neg hblank]
    split
    · next other rest' hother =>
      rw [h] at hother
      cases hother
      rfl
    · next hnone => rw [h] at hnone; cases hnone

/-- The characters that no token goes on with. -/
def delimiters : List Char := [' ', '\n', ',', '(', ')', '[', ']']

/-- What may follow any token: nothing at all, or a delimiter. -/
def Delimited (rest : List Char) : Prop := ∀ c ∈ rest.head?, c ∈ delimiters

theorem delimited_nil : Delimited [] := by
  intro c hc
  cases hc

theorem delimited_cons {c : Char} {rest : List Char} (h : c ∈ delimiters) :
    Delimited (c :: rest) := by
  intro d hd
  cases hd
  exact h

/-- No delimiter is of a kind that a scanner goes on with. -/
theorem Delimited.stops {rest : List Char} (h : Delimited rest) {p : Char → Bool}
    (hp : delimiters.any p = false) : Stops p rest :=
  fun c hc => Bool.eq_false_iff.mpr (List.any_eq_false.mp hp c (h c hc))

theorem Delimited.head?_any {rest : List Char} (h : Delimited rest) {p : Char → Bool}
    (hp : delimiters.any p = false) : rest.head?.any p = false := by
  cases rest with
  | nil => rfl
  | cons c rest => exact h.stops hp c rfl

/-- The text has these tokens, whatever follows that goes on with none of them. -/
def Reads (text : List Char) (read : List Token) : Prop :=
  ∀ rest, Delimited rest → tokens (text ++ rest) = (tokens rest).map (read ++ ·)

/-- The text has these tokens, whatever follows. -/
def ReadsAlways (text : List Char) (read : List Token) : Prop :=
  ∀ rest, tokens (text ++ rest) = (tokens rest).map (read ++ ·)

theorem ReadsAlways.reads {text : List Char} {read : List Token} (h : ReadsAlways text read) :
    Reads text read := fun rest _ => h rest

/-- The text is one token, whatever follows that does not go on with it. -/
def Scans (text : List Char) (token : Token) : Prop :=
  ∀ rest, Delimited rest → next (text ++ rest) = some (token, rest)

theorem Scans.reads {text : List Char} {token : Token} (h : Scans text token) :
    Reads text [token] := by
  intro rest hrest
  rw [tokens_of_next (h rest hrest)]
  rfl

theorem readsAlways_of_next {text : List Char} {token : Token}
    (h : ∀ rest, next (text ++ rest) = some (token, rest)) : ReadsAlways text [token] := by
  intro rest
  rw [tokens_of_next (h rest)]
  rfl

theorem readsAlways_nil : ReadsAlways [] [] := by
  intro rest
  cases h : tokens rest <;> simp [h]

theorem readsAlways_blank {c : Char} (h : c.isWhitespace) : ReadsAlways [c] [] := by
  intro rest
  rw [List.singleton_append, tokens_blank h]
  exact readsAlways_nil rest

theorem ReadsAlways.append {first second : List Char} {read others : List Token}
    (hfirst : ReadsAlways first read) (hsecond : ReadsAlways second others) :
    ReadsAlways (first ++ second) (read ++ others) := by
  intro rest
  rw [List.append_assoc, hfirst, hsecond, Option.map_map]
  simp only [Function.comp_def, List.append_assoc]

theorem ReadsAlways.append_reads {first second : List Char} {read others : List Token}
    (hfirst : ReadsAlways first read) (hsecond : Reads second others) :
    Reads (first ++ second) (read ++ others) := by
  intro rest hrest
  rw [List.append_assoc, hfirst, hsecond rest hrest, Option.map_map]
  simp only [Function.comp_def, List.append_assoc]

/-- A delimiter keeps what is in front of it apart from what follows. -/
theorem Reads.append {first second : List Char} {read others : List Token}
    (hfirst : Reads first read) (hsecond : ReadsAlways second others)
    (hdelimited : ∀ rest, Delimited (second ++ rest)) :
    ReadsAlways (first ++ second) (read ++ others) := by
  intro rest
  rw [List.append_assoc, hfirst _ (hdelimited rest), hsecond, Option.map_map]
  simp only [Function.comp_def, List.append_assoc]

theorem Reads.tokens_eq {text : List Char} {read : List Token} (h : Reads text read) :
    tokens text = some read := by
  have hread := h [] delimited_nil
  rw [tokens_nil, Option.map_some, List.append_nil, List.append_nil] at hread
  exact hread

theorem next_mark {c : Char} (h : c ∈ ['(', ')', '[', ']', ',', '*', '=']) (rest : List Char) :
    next (c :: rest) = some (.mark (String.singleton c), rest) := by
  simp only [List.mem_cons, List.not_mem_nil, or_false] at h
  rcases h with rfl | rfl | rfl | rfl | rfl | rfl | rfl <;> rfl

theorem readsAlways_mark {c : Char} (h : c ∈ ['(', ')', '[', ']', ',', '*', '=']) :
    ReadsAlways [c] [.mark (String.singleton c)] := readsAlways_of_next (next_mark h)

/-- A text as it stands between two quotes. -/
def doubled (quote : Char) (text : List Char) : List Char :=
  text.flatMap fun c => if c = quote then [quote, quote] else [c]

theorem closed?_doubled {quote : Char} {rest : List Char} (h : rest.head? ≠ some quote)
    (text : List Char) : closed? quote (doubled quote text ++ quote :: rest) = some (text, rest) := by
  induction text with
  | nil =>
    cases rest with
    | nil => simp [doubled, closed?]
    | cons d rest =>
      have hd : d ≠ quote := fun heq => h (congrArg some heq)
      simp [doubled, closed?, hd]
  | cons c text ih =>
    rw [doubled, List.flatMap_cons, ← doubled]
    by_cases hc : c = quote
    · subst hc
      simp [closed?, ih]
    · obtain ⟨d, more, hmore⟩ : ∃ d more, doubled quote text ++ quote :: rest = d :: more := by
        cases hcons : doubled quote text ++ quote :: rest with
        | nil => simp at hcons
        | cons d more => exact ⟨d, more, rfl⟩
      rw [if_neg hc, List.singleton_append, List.cons_append, hmore]
      simp [closed?, if_neg hc, ← hmore, ih]

theorem enclosed_toList (quote : Char) (s : String) :
    (enclosed quote s).toList = quote :: (doubled quote s.toList ++ [quote]) := by
  rw [enclosed, String.toList_ofList]
  rfl

theorem Delimited.head?_ne {rest : List Char} (h : Delimited rest) {c : Char}
    (hc : c ∉ delimiters) : rest.head? ≠ some c := fun hhead => hc (h c hhead)

theorem scans_identifier (name : String) :
    Scans (Sql.identifier name).toList (.identifier name) := by
  intro rest hrest
  have hclosed := closed?_doubled (hrest.head?_ne (c := '"') (by decide)) name.toList
  rw [Sql.identifier, enclosed_toList, List.cons_append, List.append_assoc, List.singleton_append]
  simp [next, hclosed]

theorem reads_identifier (name : String) :
    Reads (Sql.identifier name).toList [.identifier name] := (scans_identifier name).reads

theorem reads_textLiteral (s : String) : Reads (textLiteral s).toList [.text s] := by
  refine Scans.reads fun rest hrest => ?_
  have hclosed := closed?_doubled (hrest.head?_ne (c := '\'') (by decide)) s.toList
  rw [textLiteral, enclosed_toList, List.cons_append, List.append_assoc, List.singleton_append]
  simp [next, hclosed]

theorem isWordPart_of_isWordStart {c : Char} (h : isWordStart c) : isWordPart c := by
  rw [isWordStart, Bool.or_eq_true] at h
  rw [isWordPart, Char.isAlphanum]
  rcases h with h | h <;> simp [h]

/-- A letter or an underscore is none of the characters that start another token. -/
theorem not_isDigit_of_isWordStart {c : Char} (h : isWordStart c) : c.isDigit = false := by
  rw [isWordStart, Bool.or_eq_true, decide_eq_true_eq] at h
  rcases h with h | rfl
  · change (decide ('A'.val ≤ c.val ∧ c.val ≤ 'Z'.val) ||
      decide ('a'.val ≤ c.val) && decide (c.val ≤ 'z'.val)) = true at h
    change (decide ('0'.val ≤ c.val) && decide (c.val ≤ '9'.val)) = false
    simp only [Bool.or_eq_true, Bool.and_eq_true, Bool.and_eq_false_iff, decide_eq_true_eq,
      decide_eq_false_iff_not, UInt32.le_iff_toNat_le] at h ⊢
    have h0 : '0'.val.toNat = 48 := rfl
    have h9 : '9'.val.toNat = 57 := rfl
    have hA : 'A'.val.toNat = 65 := rfl
    have ha : 'a'.val.toNat = 97 := rfl
    omega
  · rfl

theorem next_of_isWordStart {c : Char} {rest : List Char} (h : isWordStart c) :
    next (c :: rest) = word? c rest := by
  have hname : c ≠ '"' := by rintro rfl; cases h
  have htext : c ≠ '\'' := by rintro rfl; cases h
  have hminus : c ≠ '-' := by rintro rfl; cases h
  simp [next, hname, htext, hminus, not_isDigit_of_isWordStart h, h]

theorem scans_word {c : Char} {more : List Char} (hstart : isWordStart c)
    (hmore : ∀ d ∈ more, isWordPart d) : Scans (c :: more) (.word (String.ofList (c :: more))) := by
  intro rest hrest
  have hstops : Stops isWordPart rest := hrest.stops (by decide)
  have hquote : rest.head?.any isQuote = false := hrest.head?_any (by decide)
  rw [List.cons_append, next_of_isWordStart hstart, word?, dropWhile_run hmore hstops,
    takeWhile_run hmore hstops]
  simp [hquote]

/-- A word is made of letters, digits and underscores and does not start with a digit. -/
def isWord (w : String) : Bool :=
  match w.toList with
  | c :: more => isWordStart c && more.all isWordPart
  | [] => false

theorem scans_of_isWord {w : String} (h : isWord w) : Scans w.toList (.word w) := by
  unfold isWord at h
  split at h
  · next c more hlist =>
    rw [Bool.and_eq_true, List.all_eq_true] at h
    have hscan := scans_word h.1 h.2
    rwa [← hlist, String.ofList_toList] at hscan
  · cases h

theorem reads_of_isWord {w : String} (h : isWord w) : Reads w.toList [.word w] :=
  (scans_of_isWord h).reads

theorem mark?_of_delimited {c : Char} {rest : List Char} (hc : c = '<' ∨ c = '>')
    (h : Delimited rest) : mark? (c :: rest) = some (.mark (String.singleton c), rest) := by
  cases rest with
  | nil => rcases hc with rfl | rfl <;> rfl
  | cons d rest =>
    have hd := h d rfl
    simp only [delimiters, List.mem_cons, List.not_mem_nil, or_false] at hd
    rcases hc with rfl | rfl <;> rcases hd with rfl | rfl | rfl | rfl | rfl | rfl | rfl <;> rfl

theorem scans_operator (o : BinaryOperator) : Scans o.word.toList (.mark o.word) := by
  intro rest hrest
  cases o with
  | equal => rfl
  | greaterOrEqual => rfl
  | lessOrEqual => rfl
  | greater => exact mark?_of_delimited (.inr rfl) hrest
  | less => exact mark?_of_delimited (.inl rfl) hrest

theorem reads_operator (o : BinaryOperator) : Reads o.word.toList [.mark o.word] :=
  (scans_operator o).reads

theorem next_colon {text : List Char} (h : text.head?.any isWordStart = true) :
    next (':' :: text) =
      some (.placeholder (String.ofList (text.takeWhile isWordPart)), text.dropWhile isWordPart) := by
  simp [next, h, isWordStart]

theorem scans_placeholder (dialect : Dialect) {name : String} (h : isWord name) :
    Scans (dialect.placeholder name).toList (.placeholder name) := by
  obtain ⟨c, more, hlist, hstart, hmore⟩ : ∃ c more, name.toList = c :: more ∧ isWordStart c ∧
      ∀ d ∈ more, isWordPart d := by
    unfold isWord at h
    split at h
    · next c more hlist =>
      rw [Bool.and_eq_true, List.all_eq_true] at h
      exact ⟨c, more, hlist, h⟩
    · cases h
  have hall : ∀ d ∈ name.toList, isWordPart d := by
    rw [hlist]
    exact List.forall_mem_cons.mpr ⟨isWordPart_of_isWordStart hstart, hmore⟩
  intro rest hrest
  cases dialect with
  | postgres =>
    have hstops : Stops isWordPart (')' :: 's' :: rest) := stops_cons rfl
    have htext : (Dialect.postgres.placeholder name).toList ++ rest =
        '%' :: '(' :: (name.toList ++ ')' :: 's' :: rest) := by
      simp [Dialect.placeholder, String.toList_append]
    have hbracketed : bracketed? (name.toList ++ ')' :: 's' :: rest) =
        some (.placeholder name, rest) := by
      rw [bracketed?, dropWhile_run hall hstops, takeWhile_run hall hstops, String.ofList_toList]
      rfl
    rw [htext]
    exact hbracketed
  | sqlite =>
    have hstops : Stops isWordPart rest := hrest.stops (by decide)
    have htext : (Dialect.sqlite.placeholder name).toList ++ rest =
        ':' :: (name.toList ++ rest) := by
      simp [Dialect.placeholder, String.toList_append]
    have hhead : (name.toList ++ rest).head?.any isWordStart = true := by
      rw [hlist]
      exact hstart
    rw [htext, next_colon hhead, takeWhile_run hall hstops, dropWhile_run hall hstops,
      String.ofList_toList]

theorem reads_placeholder (dialect : Dialect) {name : String} (h : isWord name) :
    Reads (dialect.placeholder name).toList [.placeholder name] := (scans_placeholder dialect h).reads

theorem isWord_paramName (n : Nat) : isWord (paramName n) := by
  have hlist : (paramName n).toList = 'p' :: ("aram_".toList ++ (Nat.repr n).toList) := by
    rw [paramName, String.toList_append]
    rfl
  rw [isWord, hlist]
  simp only [Bool.and_eq_true, List.all_append]
  refine ⟨by decide, by decide, List.all_eq_true.mpr fun d hd => ?_⟩
  rw [isWordPart, Char.isAlphanum, Runs.repr_isDigit hd]
  simp

end Lexer
end SchemaClient.Sql
