import SchemaClient.Proofs.Sql.Lexemes
import SchemaClient.Proofs.Sql.Parameters

/-!
# The two places of values

A statement whose values are written into it has the text that it has with bound values, but for the
marks of the parameters: in the place of each stands the literal of its value. What looks like a
mark inside a name is none. There is such a text unless some value has no literal. The first value
without one decides what is told: that there is no literal of its kind, or, if a whole number has
too many digits, that it is too long.
-/
namespace SchemaClient.Sql

open Success (Exactly)

/-- Whether a value can be written into a statement. Whole numbers if their digits are not too many;
lists only where there are arrays, and no item of them without a literal. -/
inductive HasLiteral (dialect : Dialect) : Value → Prop where
  | null : HasLiteral dialect .null
  | bool (b : Bool) : HasLiteral dialect (.bool b)
  | int {n : Int} (h : n.natAbs < 10 ^ Numeral.digitLimit) : HasLiteral dialect (.int n)
  | float {x : Binary64} (h : x.isFinite) : HasLiteral dialect (.float x)
  | decimal {d : Decimal} (h : d.isFinite) : HasLiteral dialect (.decimal d)
  | date (d : Date) : HasLiteral dialect (.date d)
  | time (t : TimeOfDay) : HasLiteral dialect (.time t)
  | datetime (t : DateTime) : HasLiteral dialect (.datetime t)
  | text (s : String) : HasLiteral dialect (.text s)
  | list {items : List Value} (hdialect : dialect = .postgres)
    (h : ∀ item ∈ items, HasLiteral dialect item) : HasLiteral dialect (.list items)
  | tuple {items : List Value} (hdialect : dialect = .postgres)
    (h : ∀ item ∈ items, HasLiteral dialect item) : HasLiteral dialect (.tuple items)

mutual

/-- A value that has no literal because of a whole number with too many digits: it is the number, or
an array of which the first item without a literal is such a value. -/
inductive Overlong (dialect : Dialect) : Value → Prop where
  | int {n : Int} (h : 10 ^ Numeral.digitLimit ≤ n.natAbs) : Overlong dialect (.int n)
  | list {items : List Value} (hdialect : dialect = .postgres) (h : FirstOverlong dialect items) :
    Overlong dialect (.list items)
  | tuple {items : List Value} (hdialect : dialect = .postgres) (h : FirstOverlong dialect items) :
    Overlong dialect (.tuple items)

/-- Values of which the first without a literal is overlong. -/
inductive FirstOverlong (dialect : Dialect) : List Value → Prop where
  | here {v : Value} {rest : List Value} (h : Overlong dialect v) :
    FirstOverlong dialect (v :: rest)
  | later {v : Value} {rest : List Value} (hv : HasLiteral dialect v)
    (h : FirstOverlong dialect rest) : FirstOverlong dialect (v :: rest)

end

/-- The faults of values of a kind without a literal: they are told as such, of no clause in
particular. -/
def Fault.OfLiteral (fault : Fault) : Prop :=
  ∃ message, fault.failure = .problem (.uncompilable message none)

theorem ofLiteral_noLiteral (kind : String) : (Fault.noLiteral kind).OfLiteral := ⟨_, rfl⟩

theorem ofLiteral_notFinite (v : Value) : (Fault.notFinite v).OfLiteral := ⟨_, rfl⟩

/-- What is told of values of which not all have literals. -/
structure FaultOf (dialect : Dialect) (values : List Value) (fault : Fault) : Prop where
  overlong : FirstOverlong dialect values → fault = .notWritten .tooLong
  other : ¬ FirstOverlong dialect values → fault.OfLiteral

theorem literals_eq_mapM (dialect : Dialect) (values : List Value) :
    literals dialect values = values.mapM (literal dialect) := by
  induction values with
  | nil => rfl
  | cons v rest ih =>
    rw [literals, ih, List.mapM_cons]
    rfl

section Literals

variable {dialect : Dialect} {v : Value} {rest : List Value} {fault : Fault}

mutual

theorem Overlong.not_hasLiteral {v : Value} : Overlong dialect v → ¬ HasLiteral dialect v
  | .int hlong, .int hshort => absurd hlong (Nat.not_le.mpr hshort)
  | .list _ h, .list _ hitems => FirstOverlong.not_all h hitems
  | .tuple _ h, .tuple _ hitems => FirstOverlong.not_all h hitems

theorem FirstOverlong.not_all {values : List Value} :
    FirstOverlong dialect values → ¬ ∀ v ∈ values, HasLiteral dialect v
  | .here h, hall => Overlong.not_hasLiteral h (hall _ List.mem_cons_self)
  | .later _ h, hall => FirstOverlong.not_all h fun v hv => hall v (List.mem_cons_of_mem _ hv)

end

theorem firstOverlong_here (hv : ¬ HasLiteral dialect v) :
    FirstOverlong dialect (v :: rest) ↔ Overlong dialect v := by
  refine ⟨fun h => ?_, .here⟩
  cases h with
  | here h => exact h
  | later hhas _ => exact absurd hhas hv

theorem firstOverlong_later (hv : HasLiteral dialect v) :
    FirstOverlong dialect (v :: rest) ↔ FirstOverlong dialect rest := by
  refine ⟨fun h => ?_, .later hv⟩
  cases h with
  | here h => exact absurd hv h.not_hasLiteral
  | later _ h => exact h

theorem FaultOf.here (hv : ¬ HasLiteral dialect v) (h : FaultOf dialect [v] fault) :
    FaultOf dialect (v :: rest) fault := by
  have hfirst : FirstOverlong dialect (v :: rest) ↔ FirstOverlong dialect [v] :=
    (firstOverlong_here hv).trans (firstOverlong_here hv).symm
  exact ⟨fun hlong => h.overlong (hfirst.mp hlong), fun hnot => h.other (hnot ∘ hfirst.mpr)⟩

theorem FaultOf.later (hv : HasLiteral dialect v) (h : FaultOf dialect rest fault) :
    FaultOf dialect (v :: rest) fault := by
  have hfirst : FirstOverlong dialect (v :: rest) ↔ FirstOverlong dialect rest :=
    firstOverlong_later hv
  exact ⟨fun hlong => h.overlong (hfirst.mp hlong), fun hnot => h.other (hnot ∘ hfirst.mpr)⟩

/-- A value has a literal exactly if it can be written, and otherwise the fault that it has by
itself. -/
abbrev LiteralExactly (dialect : Dialect) (v : Value) : Prop :=
  Exactly (HasLiteral dialect v) (FaultOf dialect [v]) (literal dialect v)

theorem exactly_ok {text : String} (hv : HasLiteral dialect v) (h : literal dialect v = .ok text) :
    LiteralExactly dialect v :=
  ⟨fun _ => ⟨text, h⟩, fun hnot => absurd hv hnot⟩

theorem exactly_error (hv : ¬ HasLiteral dialect v) (hlong : ¬ Overlong dialect v)
    (hfault : fault.OfLiteral) (h : literal dialect v = .error fault) :
    LiteralExactly dialect v := by
  refine ⟨fun hhas => absurd hhas hv, fun _ => ⟨fault, h, ?_, fun _ => hfault⟩⟩
  rw [firstOverlong_here hv]
  exact fun hfirst => absurd hfirst hlong

theorem exactly_overlong (hlong : Overlong dialect v)
    (h : literal dialect v = .error (.notWritten .tooLong)) : LiteralExactly dialect v := by
  refine ⟨fun hhas => absurd hhas hlong.not_hasLiteral, fun _ => ⟨_, h, fun _ => rfl, ?_⟩⟩
  exact fun hnot => absurd (.here hlong) hnot

theorem exactly_int (n : Int) : LiteralExactly dialect (.int n) := by
  by_cases hn : n.natAbs < 10 ^ Numeral.digitLimit
  · exact exactly_ok (.int hn) (by rw [literal, wholeLiteral_of_lt hn])
  · have hlong := Nat.not_lt.mp hn
    exact exactly_overlong (.int hlong) (by rw [literal, wholeLiteral_of_le hlong])

/-- A number has a literal if it is finite. -/
theorem exactly_finite {finite : Bool} {text : String} (hv : HasLiteral dialect v ↔ finite = true)
    (hlong : ¬ Overlong dialect v)
    (h : literal dialect v = if finite then .ok text else .error (.notFinite v)) :
    LiteralExactly dialect v := by
  cases finite with
  | true => exact exactly_ok (hv.mpr rfl) h
  | false =>
    have hnot : ¬ HasLiteral dialect v := fun hhas => nomatch hv.mp hhas
    exact exactly_error hnot hlong (ofLiteral_notFinite v) h

/-- A list has a literal in the dialect that has arrays, if its items have. -/
theorem exactly_array {kind : String} {items : List Value}
    (hv : HasLiteral dialect v ↔ dialect = .postgres ∧ ∀ item ∈ items, HasLiteral dialect item)
    (hlong : Overlong dialect v ↔ dialect = .postgres ∧ FirstOverlong dialect items)
    (h : literal dialect v = arrayLiteral dialect kind (literals dialect items))
    (hitems : ∀ item ∈ items, LiteralExactly dialect item) : LiteralExactly dialect v := by
  rw [literals_eq_mapM] at h
  have hitems := Exactly.mapM (fun _ _ _ => FaultOf.here) (fun _ _ _ => FaultOf.later) hitems
  cases dialect with
  | sqlite =>
    have hnot : ¬ HasLiteral .sqlite v := fun hhas => nomatch (hv.mp hhas).1
    have hshort : ¬ Overlong .sqlite v := fun hlong' => nomatch (hlong.mp hlong').1
    exact exactly_error hnot hshort (ofLiteral_noLiteral kind) h
  | postgres =>
    by_cases hall : ∀ item ∈ items, HasLiteral .postgres item
    · obtain ⟨texts, htexts⟩ := hitems.ok hall
      rw [htexts] at h
      exact exactly_ok (hv.mpr ⟨rfl, hall⟩) h
    · obtain ⟨fault, hfault, hkind⟩ := hitems.error hall
      rw [hfault] at h
      by_cases hfirst : FirstOverlong .postgres items
      · rw [hkind.overlong hfirst] at h
        exact exactly_overlong (hlong.mpr ⟨rfl, hfirst⟩) h
      · have hshort : ¬ Overlong .postgres v := fun hlong' => hfirst (hlong.mp hlong').2
        exact exactly_error (fun hhas => hall (hv.mp hhas).2) hshort (hkind.other hfirst) h

mutual

theorem literal_exactly : ∀ v : Value, LiteralExactly dialect v
  | .null => exactly_ok .null (by rw [literal])
  | .bool b => exactly_ok (.bool b) (by rw [literal])
  | .int n => exactly_int n
  | .float x =>
    exactly_finite ⟨fun h => by cases h; assumption, .float⟩ nofun (by rw [literal])
  | .decimal d =>
    exactly_finite ⟨fun h => by cases h; assumption, .decimal⟩ nofun (by rw [literal])
  | .date d => exactly_ok (.date d) (by rw [literal])
  | .time t => exactly_ok (.time t) (by rw [literal])
  | .datetime t => exactly_ok (.datetime t) (by rw [literal])
  | .text s => exactly_ok (.text s) (by rw [literal])
  | .list items => by
    have hhas : HasLiteral dialect (.list items) ↔
        dialect = .postgres ∧ ∀ item ∈ items, HasLiteral dialect item :=
      ⟨fun h => by cases h with | list hdialect h => exact ⟨hdialect, h⟩, fun h => .list h.1 h.2⟩
    have hlong : Overlong dialect (.list items) ↔
        dialect = .postgres ∧ FirstOverlong dialect items :=
      ⟨fun h => by cases h with | list hdialect h => exact ⟨hdialect, h⟩, fun h => .list h.1 h.2⟩
    exact exactly_array hhas hlong (by rw [literal]) (eachLiteral_exactly items)
  | .tuple items => by
    have hhas : HasLiteral dialect (.tuple items) ↔
        dialect = .postgres ∧ ∀ item ∈ items, HasLiteral dialect item :=
      ⟨fun h => by cases h with | tuple hdialect h => exact ⟨hdialect, h⟩, fun h => .tuple h.1 h.2⟩
    have hlong : Overlong dialect (.tuple items) ↔
        dialect = .postgres ∧ FirstOverlong dialect items :=
      ⟨fun h => by cases h with | tuple hdialect h => exact ⟨hdialect, h⟩, fun h => .tuple h.1 h.2⟩
    exact exactly_array hhas hlong (by rw [literal]) (eachLiteral_exactly items)
  | .bytes content => exactly_error nofun nofun (ofLiteral_noLiteral _) (by rw [literal])
  | .uuid u => exactly_error nofun nofun (ofLiteral_noLiteral _) (by rw [literal])
  | .record entries => exactly_error nofun nofun (ofLiteral_noLiteral _) (by rw [literal])

theorem eachLiteral_exactly : ∀ values : List Value, ∀ v ∈ values, LiteralExactly dialect v
  | [] => List.forall_mem_nil _
  | v :: rest => List.forall_mem_cons.mpr ⟨literal_exactly v, eachLiteral_exactly rest⟩

end

end Literals

/-- The text of a lexeme, or, of the mark of a parameter, the literal of its value. -/
def Lexeme.filled (dialect : Dialect) (params : Record) (lexeme : Lexeme) : Except Fault String :=
  match lexeme.token? with
  | some (.placeholder name) =>
    match params.lookup name with
    | some v => literal dialect v
    | none => .ok (String.ofList lexeme.written)
  | _ => .ok (String.ofList lexeme.written)

theorem filled_pieceLexeme {dialect : Dialect} {params : Record} {piece : Piece}
    (hplain : piece.value? = none) :
    (Lexer.pieceLexeme piece).filled dialect params = piece.inlineText dialect := by
  have hwritten : (Lexer.pieceLexeme piece).filled dialect params =
      .ok (String.ofList (Lexer.pieceLexeme piece).written) := by
    cases piece with
    | slot v => cases hplain
    | _ => rfl
  rw [hwritten, inlineText_plain hplain, Lexer.pieceLexeme, String.ofList_toList]

/-- The lexemes of bound pieces are filled with what the pieces are written as with values in
them. -/
theorem mapM_filled {dialect : Dialect} {params : Record} {pieces : List Piece} {next : Nat}
    (h : ∀ i, params.lookup (paramName (next + i)) = (pieces.filterMap Piece.value?)[i]?) :
    (Lexer.boundLexemes dialect next pieces).mapM (Lexeme.filled dialect params) =
      pieces.mapM (Piece.inlineText dialect) := by
  induction pieces generalizing next with
  | nil => rfl
  | cons piece pieces ih =>
    by_cases hplain : piece.value? = none
    · rw [List.filterMap_cons_none hplain] at h
      rw [Lexer.boundLexemes_cons hplain, List.mapM_cons, List.mapM_cons, ih h,
        filled_pieceLexeme hplain]
    · cases piece with
      | slot v =>
        have hfirst : params.lookup (paramName next) = some v := h 0
        have hrest : ∀ i, params.lookup (paramName (next + 1 + i)) =
            (pieces.filterMap Piece.value?)[i]? := fun i => by
          rw [Nat.add_assoc, Nat.add_comm 1 i]
          exact h (i + 1)
        have hfilled : Lexeme.filled dialect params ⟨some (.placeholder (paramName next)),
            (dialect.placeholder (paramName next)).toList⟩ = literal dialect v := by
          simp only [Lexeme.filled, hfirst]
        rw [Lexer.boundLexemes, List.mapM_cons, List.mapM_cons, ih hrest, hfilled]
        rfl
      | _ => exact absurd rfl hplain

/-- A piece can be written with its value in it exactly if the value, where it has one, has a
literal. -/
theorem inlineText_exactly (dialect : Dialect) (piece : Piece) :
    Exactly (∀ v ∈ piece.value?, HasLiteral dialect v) (FaultOf dialect piece.value?.toList)
      (piece.inlineText dialect) := by
  by_cases hplain : piece.value? = none
  · refine ⟨fun _ => ⟨_, inlineText_plain hplain⟩, fun hnot => absurd ?_ hnot⟩
    rw [hplain]
    nofun
  · cases piece with
    | slot v =>
      have hslot : HasLiteral dialect v ↔ ∀ w ∈ (Piece.slot v).value?, HasLiteral dialect w := by
        simp [Piece.value?]
      exact (literal_exactly v).congr hslot
    | _ => exact absurd rfl hplain

theorem FaultOf.herePiece {dialect : Dialect} {piece : Piece} {rest : List Piece} {fault : Fault}
    (hpiece : ¬ ∀ v ∈ piece.value?, HasLiteral dialect v)
    (h : FaultOf dialect piece.value?.toList fault) :
    FaultOf dialect ((piece :: rest).filterMap Piece.value?) fault := by
  cases hvalue : piece.value? with
  | none =>
    rw [hvalue] at hpiece
    exact absurd nofun hpiece
  | some v =>
    rw [hvalue] at hpiece h
    rw [List.filterMap_cons_some hvalue]
    exact .here (fun hv => hpiece fun _ hw => Option.some.inj hw ▸ hv) h

theorem FaultOf.laterPiece {dialect : Dialect} {piece : Piece} {rest : List Piece} {fault : Fault}
    (hpiece : ∀ v ∈ piece.value?, HasLiteral dialect v)
    (h : FaultOf dialect (rest.filterMap Piece.value?) fault) :
    FaultOf dialect ((piece :: rest).filterMap Piece.value?) fault := by
  cases hvalue : piece.value? with
  | none => rwa [List.filterMap_cons_none hvalue]
  | some v =>
    rw [List.filterMap_cons_some hvalue]
    exact .later (hpiece v hvalue) h

/-- Pieces can be written with their values in them exactly if all the values have literals. -/
theorem inlineTexts_exactly (dialect : Dialect) (pieces : List Piece) :
    Exactly (∀ v ∈ pieces.filterMap Piece.value?, HasLiteral dialect v)
      (FaultOf dialect (pieces.filterMap Piece.value?))
      (pieces.mapM (Piece.inlineText dialect)) := by
  have hpieces : Exactly (∀ piece ∈ pieces, ∀ v ∈ piece.value?, HasLiteral dialect v)
      (FaultOf dialect (pieces.filterMap Piece.value?)) (pieces.mapM (Piece.inlineText dialect)) :=
    @Exactly.mapM _ _ _ _ _ _ (fun pieces => FaultOf dialect (pieces.filterMap Piece.value?)) _
      (fun _ _ _ => FaultOf.herePiece) (fun _ _ _ => FaultOf.laterPiece)
      fun piece _ => inlineText_exactly dialect piece
  refine hpieces.congr ?_
  simp only [List.mem_filterMap]
  exact ⟨fun h v ⟨piece, hpiece, hv⟩ => h piece hpiece v hv,
    fun h piece hpiece v hv => h v ⟨piece, hpiece, hv⟩⟩

/-- A statement without a fault is compiled with its values in it as its pieces are written. -/
theorem Statement.compile_inline {statement : Statement} (hfault : statement.layout.fault = none)
    (dialect : Dialect) :
    statement.compile dialect .inline =
      ((statement.layout.pieces.mapM (Piece.inlineText dialect)).map fun texts =>
        ⟨String.join texts, [], dialect⟩).mapError Fault.failure := by
  rw [compile, Layout.compile, Layout.texts, hfault]
  cases statement.layout.pieces.mapM (Piece.inlineText dialect) <;> rfl

theorem Statement.lexemes_of_compile {statement : Statement} {dialect : Dialect}
    {bound : Compiled} (h : statement.compile dialect .bound = .ok bound) :
    Lexer.lexemes bound.sql.toList =
      some (Lexer.boundLexemes dialect 0 statement.layout.pieces) := by
  obtain ⟨hfault, texts, htexts, hsql⟩ := layout_of_compile h
  simp only [Layout.texts, Except.ok.injEq, Prod.mk.injEq] at htexts
  rw [hsql, ← htexts.1]
  exact Lexer.lexemes_bound dialect (statement.layout_spells hfault).2 0

/-- The values of the pieces are those of the parameters. -/
theorem Statement.pieceValues_of_compile {statement : Statement} {dialect : Dialect}
    {bound : Compiled} (h : statement.compile dialect .bound = .ok bound) :
    statement.layout.pieces.filterMap Piece.value? = bound.params.map Prod.snd := by
  rw [params_of_compile h, map_snd_numbered, ← values_of_layout (layout_of_compile h).1,
    ← itemsOf_parts, ← parts_of_compile h, valuesIn_pieces]

/-- Where a statement compiles with bound values, it compiles with the values written into it
exactly if all of them have literals. If not, what is told is that there is no literal of a value;
only where the first value without one is overlong, it is that. What is compiled has no parameters,
and its text is that with bound values, cut at its tokens, with a literal for the mark of each
parameter and all else as it was. -/
theorem Statement.inline_of_bound {statement : Statement} {dialect : Dialect} {bound : Compiled}
    (h : statement.compile dialect .bound = .ok bound) :
    ((∃ inline, statement.compile dialect .inline = .ok inline) ↔
      ∀ entry ∈ bound.params, HasLiteral dialect entry.2) ∧
    (∀ failure, statement.compile dialect .inline = .error failure →
      (FirstOverlong dialect (bound.params.map Prod.snd) → failure = .uncut .tooLong) ∧
      (¬ FirstOverlong dialect (bound.params.map Prod.snd) →
        ∃ message, failure = .problem (.uncompilable message none))) ∧
    ∀ inline, statement.compile dialect .inline = .ok inline →
      inline.params = [] ∧ ∃ cut texts,
        Lexer.lexemes bound.sql.toList = some cut ∧
        cut.flatMap Lexeme.written = bound.sql.toList ∧
        Lexer.tokens bound.sql.toList = some (cut.filterMap Lexeme.token?) ∧
        cut.mapM (Lexeme.filled dialect bound.params) = .ok texts ∧
        inline.sql = String.join texts := by
  obtain ⟨hfault, -⟩ := layout_of_compile h
  have hexactly := inlineTexts_exactly dialect statement.layout.pieces
  rw [pieceValues_of_compile h] at hexactly
  rw [compile_inline hfault dialect]
  refine ⟨?_, ?_, ?_⟩
  · rw [← List.forall_mem_map, ← hexactly.exists_ok_iff]
    cases statement.layout.pieces.mapM (Piece.inlineText dialect) with
    | error fault => exact ⟨nofun, nofun⟩
    | ok texts => exact ⟨fun _ => ⟨texts, rfl⟩, fun _ => ⟨_, rfl⟩⟩
  · intro failure hfailure
    cases hpieces : statement.layout.pieces.mapM (Piece.inlineText dialect) with
    | ok texts => rw [hpieces] at hfailure; cases hfailure
    | error fault =>
      have hkind := hexactly.kind_of_error hpieces
      rw [hpieces] at hfailure
      cases hfailure
      exact ⟨fun hfirst => congrArg Fault.failure (hkind.overlong hfirst), hkind.other⟩
  · intro inline hinline
    cases hpieces : statement.layout.pieces.mapM (Piece.inlineText dialect) with
    | error fault => rw [hpieces] at hinline; cases hinline
    | ok texts =>
      rw [hpieces] at hinline
      cases hinline
      have hcut := lexemes_of_compile h
      obtain ⟨hwritten, htokens⟩ := Lexer.lexemes_exact hcut
      have hlookup : ∀ i, bound.params.lookup (paramName (0 + i)) =
          (statement.layout.pieces.filterMap Piece.value?)[i]? := fun i => by
        rw [pieceValues_of_compile h, params_of_compile h, lookup_numbered, map_snd_numbered]
      exact ⟨rfl, _, texts, hcut, hwritten, htokens, (mapM_filled hlookup).trans hpieces, rfl⟩

/-- A call with the smallest whole number that is too long to be written. -/
def Statement.overlong : Statement := .call "f" [.int (.ofNat (10 ^ Numeral.digitLimit))]

/-- What is passed is a whole number, and yet the call compiles with bound values only. -/
theorem Statement.inline_overlong : ∃ bound : Compiled,
    overlong.compile .postgres .bound = .ok bound ∧
    bound.params = [("param_0", .int (.ofNat (10 ^ Numeral.digitLimit)))] ∧
    overlong.compile .postgres .inline = .error (.uncut .tooLong) := by
  have hlong : 10 ^ Numeral.digitLimit ≤ (Int.ofNat (10 ^ Numeral.digitLimit)).natAbs :=
    (Int.natAbs_natCast _).ge
  have hfirst : FirstOverlong .postgres (overlong.layout.pieces.filterMap Piece.value?) :=
    .here (.int hlong)
  have hexactly := inlineTexts_exactly .postgres overlong.layout.pieces
  obtain ⟨fault, hpieces, hfault⟩ := hexactly.error hfirst.not_all
  rw [hfault.overlong hfirst] at hpieces
  refine ⟨_, rfl, rfl, ?_⟩
  rw [compile_inline rfl, hpieces]
  rfl

/-- A call of a routine whose name looks like the mark of a parameter. -/
def Statement.deceptive : Statement := .call "f(:param_0)" [.text "it's"]

theorem Statement.inline_deceptive : ∃ bound inline : Compiled,
    deceptive.compile .sqlite .bound = .ok bound ∧
    bound.sql = "SELECT * FROM \"f(:param_0)\"(:param_0)" ∧
    deceptive.compile .sqlite .inline = .ok inline ∧ inline.params = [] ∧
    inline.sql = "SELECT * FROM \"f(:param_0)\"('it''s')" := by
  have hbound : deceptive.compile .sqlite .bound =
      .ok ⟨"SELECT * FROM \"f(:param_0)\"(:param_0)", [("param_0", .text "it's")], .sqlite⟩ := rfl
  obtain ⟨hsuccess, -, hinline⟩ := inline_of_bound hbound
  obtain ⟨inline, hcompiled⟩ := hsuccess.mpr (List.forall_mem_singleton.mpr (.text _))
  obtain ⟨hparams, cut, texts, hcut, -, -, htexts, hsql⟩ := hinline inline hcompiled
  obtain rfl := Option.some.inj ((Statement.lexemes_of_compile hbound).symm.trans hcut)
  obtain rfl := Except.ok.inj htexts
  exact ⟨_, inline, hbound, rfl, hcompiled, hparams, hsql.trans (by decide +kernel)⟩

end SchemaClient.Sql
