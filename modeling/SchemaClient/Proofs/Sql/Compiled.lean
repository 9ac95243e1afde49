import SchemaClient.Proofs.Sql.Contents

/-!
# Compiled statements

A compiled statement has the tokens it is meant to have, whatever its names and values are. Each
name is one identifier, each value is one parameter or, written as a literal, has one token for each
of its texts, and everything else is a number or a word or mark from a fixed list.
-/
namespace SchemaClient.Sql

open Lexer (reads_literal WritesAll writesAll_bound writesAll_inline)
open Success (bind_eq_ok)

namespace Token

def identifier? : Token → Option String
  | identifier name => some name
  | _ => none

def text? : Token → Option String
  | text s => some s
  | _ => none

def placeholder? : Token → Option String
  | placeholder name => some name
  | _ => none

end Token

def Item.name? : Item → Option String
  | .name s => some s
  | .value _ => none

def Item.value? : Item → Option Value
  | .name _ => none
  | .value v => some v

/-- The names of a statement, in order. -/
def Statement.names (statement : Statement) : List String := statement.items.filterMap Item.name?

/-- The values of a statement, in order. -/
def Statement.values (statement : Statement) : List Value := statement.items.filterMap Item.value?

mutual

/-- The texts in a value, dates and times among them, in order. -/
def textsOf : Value → List String
  | .date d => [d.iso]
  | .time t => [t.iso]
  | .datetime t => [t.iso]
  | .text s => [s]
  | .list items | .tuple items => textsOfAll items
  | .null | .bool _ | .int _ | .float _ | .decimal _ | .bytes _ | .uuid _ | .record _ => []

def textsOfAll : List Value → List String
  | [] => []
  | v :: rest => textsOf v ++ textsOfAll rest

end

/-- A token of a literal: a text, a number, or a word or mark that statements may have. -/
structure Token.OfValue (t : Token) : Prop where
  known : t.Known
  noName : t.identifier? = none
  noParameter : t.placeholder? = none

theorem ofValue_word {w : String} (h : w ∈ vocabulary) : (Token.word w).OfValue := ⟨h, rfl, rfl⟩

theorem ofValue_mark {m : String} (h : m ∈ punctuation) : (Token.mark m).OfValue := ⟨h, rfl, rfl⟩

theorem ofValue_numeral (written : String) : (Token.numeral written).OfValue := ⟨trivial, rfl, rfl⟩

theorem ofValue_text (s : String) : (Token.text s).OfValue := ⟨trivial, rfl, rfl⟩

theorem ofValue_flag (dialect : Dialect) (b : Bool) : (dialect.flagToken b).OfValue := by
  cases dialect with
  | postgres => cases b <;> exact ofValue_word (by decide)
  | sqlite => cases b <;> exact ofValue_numeral _

theorem mem_intercalate {α : Type} {a : α} {separator : List α} {groups : List (List α)}
    (h : a ∈ separator.intercalate groups) : a ∈ separator ∨ ∃ group ∈ groups, a ∈ group := by
  induction groups with
  | nil => cases h
  | cons group rest ih =>
    cases rest with
    | nil => exact .inr ⟨group, List.mem_singleton_self _, by simpa [List.intercalate] using h⟩
    | cons second rest =>
      rw [List.intercalate, List.intersperse_cons_cons, List.flatten_cons, List.flatten_cons,
        ← List.intercalate, List.mem_append, List.mem_append] at h
      rcases h with h | h | h
      · exact .inr ⟨group, List.mem_cons_self, h⟩
      · exact .inl h
      · rcases ih h with h | ⟨other, hother, h⟩
        · exact .inl h
        · exact .inr ⟨other, List.mem_cons_of_mem _ hother, h⟩

theorem ofValue_array {groups : List (List Token)} (h : ∀ group ∈ groups, ∀ t ∈ group, t.OfValue) :
    ∀ t ∈ [.word "ARRAY", .mark "["] ++ commaSeparated groups ++ [.mark "]"], t.OfValue := by
  intro t ht
  rw [List.mem_append, List.mem_append] at ht
  rcases ht with (ht | ht) | ht
  · rcases List.mem_pair.mp ht with rfl | rfl
    · exact ofValue_word (by decide)
    · exact ofValue_mark (by decide)
  · rcases mem_intercalate ht with hcomma | ⟨group, hgroup, ht⟩
    · rw [List.mem_singleton.mp hcomma]
      exact ofValue_mark (by decide)
    · exact h group hgroup t ht
  · rw [List.mem_singleton.mp ht]
    exact ofValue_mark (by decide)

mutual

theorem literalTokens_ofValue (dialect : Dialect) :
    ∀ v : Value, ∀ t ∈ literalTokens dialect v, t.OfValue
  | .null => List.forall_mem_singleton.mpr (ofValue_word (by decide))
  | .bool b => List.forall_mem_singleton.mpr (ofValue_flag dialect b)
  | .int n => List.forall_mem_singleton.mpr (ofValue_numeral (toString n))
  | .float x => List.forall_mem_singleton.mpr (ofValue_numeral x.text)
  | .decimal d => List.forall_mem_singleton.mpr (ofValue_numeral d.text)
  | .date d => List.forall_mem_singleton.mpr (ofValue_text d.iso)
  | .time t => List.forall_mem_singleton.mpr (ofValue_text t.iso)
  | .datetime t => List.forall_mem_singleton.mpr (ofValue_text t.iso)
  | .text s => List.forall_mem_singleton.mpr (ofValue_text s)
  | .list items => ofValue_array (itemTokens_ofValue dialect items)
  | .tuple items => ofValue_array (itemTokens_ofValue dialect items)
  | .bytes _ => List.forall_mem_nil _
  | .uuid _ => List.forall_mem_nil _
  | .record _ => List.forall_mem_nil _

theorem itemTokens_ofValue (dialect : Dialect) :
    ∀ values : List Value, ∀ group ∈ itemTokens dialect values, ∀ t ∈ group, t.OfValue
  | [] => List.forall_mem_nil _
  | v :: rest =>
    List.forall_mem_cons.mpr ⟨literalTokens_ofValue dialect v, itemTokens_ofValue dialect rest⟩

end

theorem texts_array (groups : List (List Token)) :
    ([Token.word "ARRAY", .mark "["] ++ commaSeparated groups ++ [Token.mark "]"]).filterMap
      Token.text? = groups.flatMap (·.filterMap Token.text?) := by
  rw [List.filterMap_append, List.filterMap_append, commaSeparated, filterMap_intercalate rfl]
  exact List.append_nil _

mutual

theorem texts_literalTokens (dialect : Dialect) :
    ∀ v : Value, (literalTokens dialect v).filterMap Token.text? = textsOf v
  | .null => rfl
  | .bool b => by cases dialect <;> cases b <;> rfl
  | .int _ => rfl
  | .float _ => rfl
  | .decimal _ => rfl
  | .date _ => rfl
  | .time _ => rfl
  | .datetime _ => rfl
  | .text _ => rfl
  | .list items => (texts_array _).trans (texts_itemTokens dialect items)
  | .tuple items => (texts_array _).trans (texts_itemTokens dialect items)
  | .bytes _ => rfl
  | .uuid _ => rfl
  | .record _ => rfl

theorem texts_itemTokens (dialect : Dialect) :
    ∀ values : List Value,
      (itemTokens dialect values).flatMap (·.filterMap Token.text?) = textsOfAll values
  | [] => rfl
  | v :: rest => by
    rw [itemTokens, List.flatMap_cons, texts_literalTokens dialect v, texts_itemTokens dialect rest,
      textsOfAll]

end

/-- A part that is a value, a name, a number, or a word or mark that statements may have. -/
def Part.Fixed : Part → Prop
  | token t => t.Known ∧ t.text? = none ∧ t.placeholder? = none
  | value _ => True

theorem word_mem_vocabulary (w : Word) : w.text ∈ vocabulary := by
  cases w <;> decide

theorem operator_mem_punctuation (o : BinaryOperator) : o.word ∈ punctuation := by
  cases o <;> decide

theorem Piece.part_fixed {piece : Piece} {part : Part} (h : piece.part? = some part) :
    part.Fixed := by
  cases piece with
  | word w => cases h; exact ⟨word_mem_vocabulary w, rfl, rfl⟩
  | operator o => cases h; exact ⟨operator_mem_punctuation o, rfl, rfl⟩
  | star => cases h; exact ⟨(by decide : "*" ∈ punctuation), rfl, rfl⟩
  | comma => cases h; exact ⟨(by decide : "," ∈ punctuation), rfl, rfl⟩
  | opening => cases h; exact ⟨(by decide : "(" ∈ punctuation), rfl, rfl⟩
  | closing => cases h; exact ⟨(by decide : ")" ∈ punctuation), rfl, rfl⟩
  | blank => cases h
  | newline => cases h
  | name s => cases h; exact ⟨trivial, rfl, rfl⟩
  | count n => cases h; exact ⟨trivial, rfl, rfl⟩
  | slot v => cases h; trivial

theorem partsOf_fixed (pieces : List Piece) : ∀ part ∈ partsOf pieces, part.Fixed := by
  intro part hpart
  obtain ⟨piece, -, h⟩ := List.mem_filterMap.mp hpart
  exact Piece.part_fixed h

theorem placeholders_bound {parts : List Part} (h : ∀ part ∈ parts, part.Fixed) (next : Nat) :
    (boundTokens next parts).filterMap Token.placeholder? =
      (List.range' next ((itemsOf parts).filterMap Item.value?).length).map paramName := by
  induction parts generalizing next with
  | nil => rfl
  | cons part rest ih =>
    obtain ⟨hpart, hrest⟩ := List.forall_mem_cons.mp h
    cases part with
    | value v => exact congrArg (paramName next :: ·) (ih hrest (next + 1))
    | token t =>
      cases t with
      | placeholder s => cases hpart.2.2
      | _ => exact ih hrest next

/-- The texts of a layout are written from its pieces. -/
theorem Layout.writes_texts {layout : Layout} {dialect : Dialect} {mode : ValueMode}
    {texts : List String} {params : Record} (h : layout.texts dialect mode = .ok (texts, params)) :
    WritesAll layout.pieces texts (filledTokens dialect mode (partsOf layout.pieces)) := by
  cases mode with
  | bound =>
    cases h
    exact writesAll_bound dialect layout.pieces 0
  | inline =>
    rw [Layout.texts] at h
    cases hpieces : layout.pieces.mapM (Piece.inlineText dialect) with
    | error fault => rw [hpieces] at h; cases h
    | ok written =>
      rw [hpieces] at h
      cases h
      exact writesAll_inline hpieces

/-- A statement that compiles has no fault, and its text is that of its pieces. -/
theorem Statement.layout_of_compile {statement : Statement} {dialect : Dialect} {mode : ValueMode}
    {compiled : Compiled} (h : statement.compile dialect mode = .ok compiled) :
    statement.layout.fault = none ∧ ∃ texts,
      statement.layout.texts dialect mode = .ok (texts, compiled.params) ∧
      compiled.sql = String.join texts := by
  rw [Statement.compile] at h
  cases hcompile : statement.layout.compile dialect mode with
  | error fault => rw [hcompile] at h; cases h
  | ok other =>
    rw [hcompile] at h
    cases h
    simp only [Layout.compile, bind_eq_ok] at hcompile
    obtain ⟨⟨texts, params⟩, htexts, hresult⟩ := hcompile
    cases hfault : statement.layout.fault with
    | some fault => simp [hfault] at hresult
    | none =>
      simp only [hfault] at hresult
      cases hresult
      exact ⟨rfl, texts, htexts, rfl⟩

/-- The parts of a statement that compiles are those of its pieces. -/
theorem Statement.parts_of_compile {statement : Statement} {dialect : Dialect} {mode : ValueMode}
    {compiled : Compiled} (h : statement.compile dialect mode = .ok compiled) :
    partsOf statement.layout.pieces = statement.parts :=
  (statement.layout_spells (layout_of_compile h).1).1

/-- The text of a statement has the tokens that the statement is meant to have. -/
theorem Statement.tokens_of_compile {statement : Statement} {dialect : Dialect} {mode : ValueMode}
    {compiled : Compiled} (h : statement.compile dialect mode = .ok compiled) :
    Lexer.tokens compiled.sql.toList = some (statement.tokens dialect mode) := by
  obtain ⟨hfault, texts, htexts, hsql⟩ := layout_of_compile h
  have hwrites := (Layout.writes_texts htexts).reads (statement.layout_spells hfault).2
  rw [parts_of_compile h] at hwrites
  rw [hsql, hwrites.tokens_eq, Statement.tokens]

theorem Statement.parts_fixed {statement : Statement} {dialect : Dialect} {mode : ValueMode}
    {compiled : Compiled} (h : statement.compile dialect mode = .ok compiled) :
    ∀ part ∈ statement.parts, part.Fixed := by
  rw [← parts_of_compile h]
  exact partsOf_fixed _

/-- The parameters of so many values. -/
def ValueMode.parameters (count : Nat) : ValueMode → List String
  | bound => (List.range count).map paramName
  | inline => []

/-- The texts that are written for values. -/
def ValueMode.texts (values : List Value) : ValueMode → List String
  | bound => []
  | inline => values.flatMap textsOf

end SchemaClient.Sql
