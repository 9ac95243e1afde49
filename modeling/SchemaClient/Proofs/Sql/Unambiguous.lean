import SchemaClient.Proofs.Sql.Parameters

/-!
# Parts that can be told apart

Parts in a row bear no sign of where one thing ends and the next one starts, and need none: a name,
a value and a condition end by themselves, a list goes on after its separator only, and each clause
has a word of its own in front. So what was written in parts is known from them.
-/
namespace SchemaClient.Sql

open SchemaClient.Sql.Part (word mark name count)

def Word.all : List Word :=
  [.select, .from, .where, .and, .order, .by, .asc, .desc, .limit, .offset, .insert, .into, .values,
    .update, .set, .delete, .returning, .is, .not, .null]

theorem Word.find_text (w : Word) : Word.all.find? (·.text == w.text) = some w := by
  cases w <;> decide

theorem Word.text_injective : Function.Injective Word.text := by
  intro v w h
  have hfound := v.find_text
  rw [h, w.find_text] at hfound
  exact (Option.some.inj hfound).symm

theorem word_injective : Function.Injective word := by
  intro v w h
  rw [word, word, Part.token.injEq, Token.word.injEq] at h
  exact Word.text_injective h

theorem binaryWord_injective : Function.Injective BinaryOperator.word := by
  intro o p h
  cases o <;> cases p <;> first | rfl | exact absurd h (by decide)

theorem count_injective : Function.Injective fun n : Nat => count n := by
  intro m n h
  simp only [count, Part.token.injEq, Token.numeral.injEq] at h
  exact Runs.repr_injective h

/-- Whether a part stands behind lists only: a closing parenthesis, or a word between clauses. -/
def Part.endsList : Part → Bool
  | .token (.word w) => w != Word.and.text
  | .token (.mark m) => m == ")"
  | _ => false

/-- Nothing follows that a list could go on with. -/
def Ended (rest : List Part) : Prop := ∀ p ∈ rest.head?, p.endsList

theorem ended_nil : Ended [] := nofun

theorem ended_closing (rest : List Part) : Ended (mark ")" :: rest) := by
  rintro _ ⟨⟩
  rfl

theorem ended_word {w : Word} (h : w ≠ .and) (rest : List Part) : Ended (word w :: rest) := by
  rintro _ ⟨⟩
  exact bne_iff_ne.mpr fun htext => h (Word.text_injective htext)

theorem Ended.head {p : Part} {rest : List Part} (h : Ended (p :: rest)) : p.endsList := h p rfl

/-- A way to write that shows where it ends, and that could not stand behind a list. -/
structure SelfDelimiting {α : Type} (write : α → List Part) : Prop where
  inj {a b : α} {rest other : List Part} (h : write a ++ rest = write b ++ other) :
    a = b ∧ rest = other
  starts (a : α) : ∃ first more, write a = first :: more ∧ first.endsList = false

variable {α : Type} {write : α → List Part}

theorem selfDelimiting_name : SelfDelimiting fun s => [name s] where
  inj h := by simpa [name] using h
  starts s := ⟨_, _, rfl, rfl⟩

theorem selfDelimiting_value : SelfDelimiting fun v => [Part.value v] where
  inj h := by simpa using h
  starts v := ⟨_, _, rfl, rfl⟩

theorem selfDelimiting_assignment : SelfDelimiting assignmentParts where
  inj {a b rest other} h := by
    simp only [assignmentParts, name, List.cons_append, List.nil_append, List.cons.injEq,
      Part.token.injEq, Token.identifier.injEq, Part.value.injEq, true_and] at h
    exact ⟨Prod.ext h.1 h.2.1, h.2.2⟩
  starts entry := ⟨_, _, rfl, rfl⟩

/-- The parts of a condition. -/
def conditionParts (c : Condition) : List Part := testParts (.ofCondition c)

theorem conditionParts_unary (column : String) (o : UnaryOperator) :
    conditionParts (.unary column o) = name column :: unaryParts o := by
  cases o <;> rfl

theorem unaryParts_inj {o p : UnaryOperator} {rest other : List Part}
    (h : unaryParts o ++ rest = unaryParts p ++ other) : o = p ∧ rest = other := by
  cases o <;> cases p <;> simp [unaryParts, word, Word.text] at h ⊢ <;> exact h

theorem unaryParts_ne_mark (o : UnaryOperator) (rest : List Part) (m : String)
    (other : List Part) : unaryParts o ++ rest ≠ mark m :: other := by
  cases o <;> simp [unaryParts, word, mark]

theorem selfDelimiting_condition : SelfDelimiting conditionParts where
  inj {a b rest other} h := by
    cases a with
    | unary column o =>
      cases b with
      | unary column' p =>
        rw [conditionParts_unary, conditionParts_unary, List.cons_append, List.cons_append,
          List.cons.injEq] at h
        obtain ⟨hname, hoperator⟩ := h
        obtain ⟨rfl, hrest⟩ := unaryParts_inj hoperator
        cases hname
        exact ⟨rfl, hrest⟩
      | binary column' p v =>
        rw [conditionParts_unary, List.cons_append] at h
        exact absurd (List.cons.inj h).2 (unaryParts_ne_mark o rest _ _)
    | binary column o v =>
      cases b with
      | unary column' p =>
        rw [conditionParts_unary, List.cons_append] at h
        exact absurd (List.cons.inj h).2.symm (unaryParts_ne_mark p other _ _)
      | binary column' p w =>
        simp only [conditionParts, Test.ofCondition, testParts, name, mark, List.cons_append,
          List.nil_append, List.cons.injEq, Part.token.injEq, Token.identifier.injEq,
          Token.mark.injEq, Part.value.injEq] at h
        obtain ⟨rfl, hword, rfl, hrest⟩ := h
        cases binaryWord_injective hword
        exact ⟨rfl, hrest⟩
  starts c := by
    cases c with
    | unary column o => exact ⟨_, _, conditionParts_unary column o, rfl⟩
    | binary column o v => exact ⟨_, _, rfl, rfl⟩

/-- Items with a separator between each two. -/
def separated (separator : Part) (write : α → List Part) (items : List α) : List Part :=
  [separator].intercalate (items.map write)

theorem separated_cons (separator : Part) (write : α → List Part) (a : α) (items : List α) :
    separated separator write (a :: items) =
      write a ++ items.flatMap fun b => separator :: write b := by
  induction items generalizing a with
  | nil => simp [separated, List.intercalate]
  | cons b rest ih =>
    have hsplit : separated separator write (a :: b :: rest) =
        write a ++ ([separator] ++ separated separator write (b :: rest)) := by
      rw [separated, List.map_cons, List.map_cons, List.intercalate, List.intersperse_cons_cons,
        List.flatten_cons, List.flatten_cons, ← List.intercalate]
      rfl
    rw [hsplit, ih]
    rfl

section Lists

variable {separator : Part} {rest other : List Part}

theorem SelfDelimiting.more_inj (hwrite : SelfDelimiting write)
    (hseparator : separator.endsList = false) (hrest : Ended rest) (hother : Ended other)
    {items items' : List α}
    (h : items.flatMap (fun a => separator :: write a) ++ rest =
      items'.flatMap (fun a => separator :: write a) ++ other) : items = items' ∧ rest = other := by
  induction items generalizing items' with
  | nil =>
    cases items' with
    | nil => exact ⟨rfl, h⟩
    | cons b more' =>
      rw [List.flatMap_nil, List.nil_append] at h
      have hends : separator.endsList := (h ▸ hrest).head
      simp [hseparator] at hends
  | cons a more ih =>
    cases items' with
    | nil =>
      rw [List.flatMap_nil, List.nil_append] at h
      have hends : separator.endsList := (h ▸ hother).head
      simp [hseparator] at hends
    | cons b more' =>
      simp only [List.flatMap_cons, List.cons_append, List.append_assoc, List.cons.injEq,
        true_and] at h
      obtain ⟨rfl, hmore⟩ := hwrite.inj h
      obtain ⟨rfl, hrest⟩ := ih hmore
      exact ⟨rfl, hrest⟩

/-- A list is known from its parts, up to where it ends. -/
theorem SelfDelimiting.separated_inj (hwrite : SelfDelimiting write)
    (hseparator : separator.endsList = false) (hrest : Ended rest) (hother : Ended other)
    {items items' : List α}
    (h : separated separator write items ++ rest = separated separator write items' ++ other) :
    items = items' ∧ rest = other := by
  -- A list that is not empty does not start like anything that may follow a list.
  have hstarts : ∀ a more, ¬ Ended (separated separator write (a :: more) ++ rest) ∧
      ¬ Ended (separated separator write (a :: more) ++ other) := by
    intro a more
    obtain ⟨first, tail, hfirst, hitem⟩ := hwrite.starts a
    rw [separated_cons, hfirst]
    constructor <;> exact fun hended => absurd hended.head (by simp [hitem])
  cases items with
  | nil =>
    cases items' with
    | nil => exact ⟨rfl, h⟩
    | cons b more' =>
      have hnil : rest = separated separator write (b :: more') ++ other := h
      exact absurd (hnil ▸ hrest) (hstarts b more').2
  | cons a more =>
    cases items' with
    | nil =>
      have hnil : separated separator write (a :: more) ++ rest = other := h
      exact absurd (hnil ▸ hother) (hstarts a more).1
    | cons b more' =>
      rw [separated_cons, separated_cons, List.append_assoc, List.append_assoc] at h
      obtain ⟨rfl, hmore⟩ := hwrite.inj h
      obtain ⟨rfl, hrest⟩ := hwrite.more_inj hseparator hrest hother hmore
      exact ⟨rfl, hrest⟩

theorem nameParts_inj {columns columns' : List String} (hrest : Ended rest) (hother : Ended other)
    (h : nameParts columns ++ rest = nameParts columns' ++ other) :
    columns = columns' ∧ rest = other :=
  selfDelimiting_name.separated_inj rfl hrest hother h

theorem valueParts_inj {values values' : List Value} (hrest : Ended rest) (hother : Ended other)
    (h : valueParts values ++ rest = valueParts values' ++ other) :
    values = values' ∧ rest = other :=
  selfDelimiting_value.separated_inj rfl hrest hother h

/-- Whether columns are all of them, which a star is written for. -/
def isStarred (columns : List String) : Bool := columns.isEmpty || columns == ["*"]

theorem columnParts_eq (columns : List String) :
    columnParts columns = if isStarred columns then [mark "*"] else nameParts columns := by
  simp [columnParts, isStarred]

theorem nameParts_ne_star {columns : List String} (hstarred : ¬ isStarred columns) :
    nameParts columns ++ rest ≠ mark "*" :: other := by
  cases columns with
  | nil => exact absurd rfl hstarred
  | cons c more =>
    intro h
    have hcons := separated_cons (mark ",") (fun s => [name s]) c more
    rw [nameParts, listParts, ← separated, hcons] at h
    cases h

theorem columnParts_inj {columns columns' : List String} (hrest : Ended rest) (hother : Ended other)
    (h : columnParts columns ++ rest = columnParts columns' ++ other) :
    (isStarred columns ∧ isStarred columns' ∨ columns = columns') ∧ rest = other := by
  rw [columnParts_eq, columnParts_eq] at h
  by_cases hstar : isStarred columns
  · rw [if_pos hstar] at h
    by_cases hstar' : isStarred columns'
    · rw [if_pos hstar'] at h
      exact ⟨.inl ⟨hstar, hstar'⟩, (List.cons.inj h).2⟩
    · rw [if_neg hstar'] at h
      exact absurd h.symm (nameParts_ne_star hstar')
  · rw [if_neg hstar] at h
    by_cases hstar' : isStarred columns'
    · rw [if_pos hstar'] at h
      exact absurd h (nameParts_ne_star hstar)
    · rw [if_neg hstar'] at h
      obtain ⟨rfl, hrest⟩ := nameParts_inj hrest hother h
      exact ⟨.inr rfl, hrest⟩

end Lists

/-- The values of a row between parentheses. -/
def tupleOf (values : List Value) : List Part := [mark "("] ++ valueParts values ++ [mark ")"]

theorem selfDelimiting_tuple : SelfDelimiting tupleOf where
  inj {a b rest other} h := by
    simp only [tupleOf, List.append_assoc, List.cons_append, List.nil_append, List.cons.injEq,
      true_and] at h
    obtain ⟨rfl, hrest⟩ := valueParts_inj (ended_closing rest) (ended_closing other) h
    exact ⟨rfl, (List.cons.inj hrest).2⟩
  starts values := ⟨_, _, rfl, rfl⟩

/-- A clause that may be left out. -/
def clauseParts (w : Word) (write : α → List Part) : Option α → List Part
  | none => []
  | some a => word w :: write a

/-- Nothing follows but clauses that start with certain words. -/
def StartsWith (words : List Word) (rest : List Part) : Prop :=
  ∀ p ∈ rest.head?, ∃ w ∈ words, p = word w

variable {w : Word} {words : List Word} {rest other : List Part}

theorem startsWith_nil (words : List Word) : StartsWith words [] := nofun

theorem startsWith_word (h : w ∈ words) (rest : List Part) : StartsWith words (word w :: rest) := by
  rintro _ ⟨⟩
  exact ⟨w, h, rfl⟩

theorem StartsWith.clause (h : StartsWith words rest) (w : Word) (write : α → List Part)
    (x : Option α) : StartsWith (w :: words) (clauseParts w write x ++ rest) := by
  cases x with
  | none =>
    intro p hp
    obtain ⟨v, hv, heq⟩ := h p hp
    exact ⟨v, List.mem_cons_of_mem w hv, heq⟩
  | some a => exact startsWith_word List.mem_cons_self _

theorem StartsWith.ended (h : StartsWith words rest) (hand : .and ∉ words) : Ended rest := by
  intro p hp
  obtain ⟨w, hw, rfl⟩ := h p hp
  exact (ended_word (fun heq => hand (heq ▸ hw)) []).head

theorem StartsWith.ne_word (h : StartsWith words rest) (hw : w ∉ words) (more : List Part) :
    rest ≠ word w :: more := by
  rintro rfl
  obtain ⟨v, hv, heq⟩ := h (word w) rfl
  exact hw (word_injective heq ▸ hv)

/-- Whether a clause is there, and what it says, is known from its parts, as long as none that may
follow it starts with its word. -/
theorem clauseParts_inj {x y : Option α} (hrest : StartsWith words rest)
    (hother : StartsWith words other) (hw : w ∉ words)
    (hwrite : ∀ a ∈ x, ∀ b ∈ y, write a ++ rest = write b ++ other → a = b ∧ rest = other)
    (h : clauseParts w write x ++ rest = clauseParts w write y ++ other) : x = y ∧ rest = other := by
  cases x with
  | none =>
    cases y with
    | none => exact ⟨rfl, h⟩
    | some b => exact absurd h (hrest.ne_word hw _)
  | some a =>
    cases y with
    | none => exact absurd h.symm (hother.ne_word hw _)
    | some b =>
      obtain ⟨rfl, hrest⟩ := hwrite a rfl b rfl (List.cons.inj h).2
      exact ⟨rfl, hrest⟩

theorem valuesIn_token (t : Token) (parts : List Part) :
    valuesIn (itemsOf (.token t :: parts)) = valuesIn (itemsOf parts) := by
  cases t <;> rfl

theorem ne_placeholder_of_fixed {t : Token} (h : (Part.token t).Fixed) (name : String) :
    t ≠ .placeholder name := by
  rintro rfl
  cases h.2.2

/-- Parts are known from their tokens and the values that are bound. -/
theorem boundTokens_inj {parts parts' : List Part} {next : Nat} (hfixed : ∀ p ∈ parts, p.Fixed)
    (hfixed' : ∀ p ∈ parts', p.Fixed)
    (htokens : boundTokens next parts = boundTokens next parts')
    (hvalues : valuesIn (itemsOf parts) = valuesIn (itemsOf parts')) : parts = parts' := by
  -- Both rows have had as many values so far, so the next parameter has the same number in both.
  induction parts generalizing parts' next with
  | nil =>
    cases parts' with
    | nil => rfl
    | cons p' more' => cases p' <;> cases htokens
  | cons p more ih =>
    obtain ⟨hp, hmore⟩ := List.forall_mem_cons.mp hfixed
    cases parts' with
    | nil => cases p <;> cases htokens
    | cons p' more' =>
      obtain ⟨hp', hmore'⟩ := List.forall_mem_cons.mp hfixed'
      cases p with
      | token t =>
        cases p' with
        | token t' =>
          obtain ⟨rfl, hrest⟩ := List.cons.inj htokens
          rw [valuesIn_token, valuesIn_token] at hvalues
          rw [ih hmore hmore' hrest hvalues]
        | value v' => exact absurd (List.cons.inj htokens).1 (ne_placeholder_of_fixed hp _)
      | value v =>
        cases p' with
        | token t' => exact absurd (List.cons.inj htokens).1.symm (ne_placeholder_of_fixed hp' _)
        | value v' =>
          obtain ⟨rfl, hothers⟩ := List.cons.inj hvalues
          rw [ih hmore hmore' (List.cons.inj htokens).2 hothers]

end SchemaClient.Sql
