import Mathlib.Algebra.Order.BigOperators.Group.List
import Mathlib.Algebra.Order.Group.Nat
import SchemaClient.Proofs.Sql.Inline

/-!
# Percent signs

Before a text with parameters is sent to PostgreSQL, its driver looks for percent signs from left to
right and pays no attention to quotes. Two of them stand for one, a name in parentheses between one
of them and an `s` is a parameter, and any other is an error. What the driver finds in the text of a
statement is what the statement means exactly if there is no percent sign in its names: such a sign
is not written twice.
-/
namespace SchemaClient.Sql

namespace Driver

/-- What a driver finds in a text: a character that is sent as it is, or a parameter. -/
inductive Found where
  | char (c : Char)
  | parameter (name : String)
  deriving DecidableEq

/-- How far a driver has come after a percent sign, if it has met one. -/
inductive State where
  | outside
  | percent
  | name (read : List Char)
  | closed (read : List Char)

/-- What a driver finds in a text, unless it finds an error. -/
def scanFrom : State → List Char → Option (List Found)
  | .outside, [] => some []
  | .outside, c :: rest =>
    if c = '%' then scanFrom .percent rest else (scanFrom .outside rest).map (.char c :: ·)
  | .percent, c :: rest =>
    if c = '%' then (scanFrom .outside rest).map (.char '%' :: ·)
    else if c = '(' then scanFrom (.name []) rest
    else none
  | .name read, c :: rest =>
    if c ≠ ')' then scanFrom (.name (read ++ [c])) rest
    else if read = [] then none
    else scanFrom (.closed read) rest
  | .closed read, c :: rest =>
    if c = 's' then (scanFrom .outside rest).map (.parameter (String.ofList read) :: ·) else none
  | .percent, [] | .name _, [] | .closed _, [] => none

def scan (text : List Char) : Option (List Found) := scanFrom .outside text

namespace Found

/-- What has to be written for something to be found. -/
def written : Found → List Char
  | char c => if c = '%' then ['%', '%'] else [c]
  | parameter name => (Dialect.postgres.placeholder name).toList

/-- A parameter has a name that ends at the parenthesis. -/
def Writable : Found → Prop
  | char _ => True
  | parameter name => name.toList ≠ [] ∧ ')' ∉ name.toList

def parameter? : Found → Option String
  | char _ => none
  | parameter name => some name

end Found

theorem written_parameter (name : String) :
    (Found.parameter name).written = '%' :: '(' :: (name.toList ++ [')', 's']) := by
  simp [Found.written, Dialect.placeholder]

/-- What has been read of a parameter and is not yet found. -/
def State.pending : State → List Char
  | outside => []
  | percent => ['%']
  | name read => '%' :: '(' :: read
  | closed read => '%' :: '(' :: (read ++ [')'])

def State.Sound : State → Prop
  | outside | percent => True
  | name read => ')' ∉ read
  | closed read => read ≠ [] ∧ ')' ∉ read

/-- What a driver finds makes up the text. -/
theorem written_of_scanFrom {state : State} {text : List Char} {found : List Found}
    (hstate : state.Sound) (h : scanFrom state text = some found) :
    found.flatMap Found.written = state.pending ++ text ∧ ∀ f ∈ found, f.Writable := by
  fun_induction scanFrom state text generalizing found with
  | case1 => cases h; exact ⟨rfl, List.forall_mem_nil _⟩
  | case2 rest ih => exact ih trivial h
  | case3 c rest hc ih =>
    obtain ⟨others, hothers, rfl⟩ := Option.map_eq_some_iff.mp h
    obtain ⟨hwritten, hwritable⟩ := ih trivial hothers
    refine ⟨?_, List.forall_mem_cons.mpr ⟨trivial, hwritable⟩⟩
    rw [List.flatMap_cons, hwritten, Found.written, if_neg hc]
    rfl
  | case4 rest ih =>
    obtain ⟨others, hothers, rfl⟩ := Option.map_eq_some_iff.mp h
    obtain ⟨hwritten, hwritable⟩ := ih trivial hothers
    refine ⟨?_, List.forall_mem_cons.mpr ⟨trivial, hwritable⟩⟩
    rw [List.flatMap_cons, hwritten]
    rfl
  | case5 rest hc ih => exact ih List.not_mem_nil h
  | case6 => cases h
  | case7 read c rest hc ih =>
    have hsound : ')' ∉ read ++ [c] := by
      rw [List.mem_append, List.mem_singleton, not_or]
      exact ⟨hstate, Ne.symm hc⟩
    obtain ⟨hwritten, hwritable⟩ := ih hsound h
    exact ⟨by simpa [State.pending] using hwritten, hwritable⟩
  | case8 => cases h
  | case9 read c rest hc hread ih =>
    obtain rfl := not_not.mp hc
    obtain ⟨hwritten, hwritable⟩ := ih ⟨hread, hstate⟩ h
    exact ⟨by simpa [State.pending] using hwritten, hwritable⟩
  | case10 read rest ih =>
    obtain ⟨others, hothers, rfl⟩ := Option.map_eq_some_iff.mp h
    obtain ⟨hwritten, hwritable⟩ := ih trivial hothers
    refine ⟨?_, List.forall_mem_cons.mpr ⟨?_, hwritable⟩⟩
    · rw [List.flatMap_cons, hwritten, written_parameter]
      simp [State.pending]
    · rw [Found.Writable, String.toList_ofList]
      exact hstate
  | case11 => cases h
  | case12 => cases h
  | case13 => cases h
  | case14 => cases h

theorem scanFrom_name {name : List Char} (hname : ')' ∉ name) (read rest : List Char)
    (hread : read ++ name ≠ []) :
    scanFrom (.name read) (name ++ ')' :: rest) = scanFrom (.closed (read ++ name)) rest := by
  induction name generalizing read with
  | nil =>
    rw [List.append_nil] at hread
    simp [scanFrom, hread]
  | cons c name ih =>
    rw [List.mem_cons, not_or] at hname
    rw [List.cons_append, scanFrom, if_pos (Ne.symm hname.1), ih hname.2]
    · simp
    · simp

/-- What is written is found. -/
theorem scan_written {f : Found} (hf : f.Writable) (rest : List Char) :
    scan (f.written ++ rest) = (scan rest).map (f :: ·) := by
  cases f with
  | char c =>
    by_cases hc : c = '%'
    · subst hc
      simp [Found.written, scan, scanFrom]
    · simp [Found.written, hc, scan, scanFrom]
  | parameter name =>
    have hscan := scanFrom_name hf.2 [] ('s' :: rest) hf.1
    rw [written_parameter]
    simp only [scan, scanFrom, List.cons_append, List.append_assoc, List.nil_append] at hscan ⊢
    simpa using hscan

/-- A driver finds exactly what the text is written from. -/
theorem scan_eq_some_iff {text : List Char} {found : List Found} :
    scan text = some found ↔
      found.flatMap Found.written = text ∧ ∀ f ∈ found, f.Writable := by
  constructor
  · intro h
    have hsound : State.outside.Sound := trivial
    exact written_of_scanFrom hsound h
  · rintro ⟨rfl, hwritable⟩
    induction found with
    | nil => rfl
    | cons f found ih =>
      obtain ⟨hfirst, hrest⟩ := List.forall_mem_cons.mp hwritable
      rw [List.flatMap_cons, scan_written hfirst, ih hrest]
      rfl

end Driver

open Driver (Found scan)

/-- What a lexeme means: the parameter that it is the mark of, or its characters. -/
def Lexeme.meant (lexeme : Lexeme) : List Found :=
  match lexeme.token? with
  | some (.placeholder name) => [.parameter name]
  | _ => lexeme.written.map .char

/-- A lexeme is read as it is meant if what it means is written as it is. -/
def Lexeme.Faithful (lexeme : Lexeme) : Prop :=
  lexeme.meant.flatMap Found.written = lexeme.written

/-- Where each item gives at least as much in one way as in another and all together give the same,
each gives the same. -/
theorem eq_of_flatMap_eq {α β : Type} {f g : α → List β} {items : List α}
    (hle : ∀ a ∈ items, (g a).length ≤ (f a).length) (h : items.flatMap f = items.flatMap g) :
    ∀ a ∈ items, f a = g a := by
  have hlength : ∀ rest : List α, (∀ a ∈ rest, (g a).length ≤ (f a).length) →
      (rest.flatMap g).length ≤ (rest.flatMap f).length := by
    intro rest hrest
    rw [List.length_flatMap, List.length_flatMap]
    exact List.sum_le_sum hrest
  induction items with
  | nil => exact List.forall_mem_nil _
  | cons a rest ih =>
    obtain ⟨hfirst, hrest⟩ := List.forall_mem_cons.mp hle
    rw [List.flatMap_cons, List.flatMap_cons] at h
    have htotal := congrArg List.length h
    rw [List.length_append, List.length_append] at htotal
    have hothers := hlength rest hrest
    obtain ⟨hsame, hflat⟩ := List.append_inj h (by omega)
    exact List.forall_mem_cons.mpr ⟨hsame, ih hrest hflat⟩

theorem length_le_written (text : List Char) :
    text.length ≤ ((text.map Found.char).flatMap Found.written).length := by
  induction text with
  | nil => exact Nat.le_refl 0
  | cons c rest ih =>
    rw [List.map_cons, List.flatMap_cons, List.length_append, List.length_cons, Found.written]
    split <;> simp only [List.length_cons, List.length_nil] <;> omega

/-- Characters stand for themselves exactly if there is no percent sign among them. -/
theorem written_chars_iff {text : List Char} :
    (text.map Found.char).flatMap Found.written = text ↔ '%' ∉ text := by
  rw [List.flatMap_map]
  constructor
  · intro h hmem
    have hle : ∀ c ∈ text, [c].length ≤ (Found.char c).written.length := by
      intro c _
      rw [Found.written]
      split <;> simp
    have hsame := eq_of_flatMap_eq hle (h.trans (List.flatMap_singleton' text).symm) '%' hmem
    simp [Found.written] at hsame
  · intro h
    conv_rhs => rw [← List.flatMap_singleton' text]
    refine List.flatMap_congr fun c hc => ?_
    have hne : c ≠ '%' := fun heq => h (heq ▸ hc)
    rw [Found.written, if_neg hne]

/-- A name between quotes has the percent signs of the name. -/
theorem percent_mem_identifier {name : String} :
    '%' ∈ (identifier name).toList ↔ '%' ∈ name.toList := by
  rw [identifier, Lexer.enclosed_toList, Lexer.doubled]
  simp only [List.mem_cons, List.mem_append, List.mem_flatMap, List.not_mem_nil, or_false]
  constructor
  · rintro (h | ⟨c, hc, h⟩ | h)
    · exact absurd h (by decide)
    · split at h
      · next hquote =>
        subst hquote
        exact absurd h (by decide)
      · rwa [List.mem_singleton.mp h]
    · exact absurd h (by decide)
  · intro h
    exact .inr (.inl ⟨'%', h, by simp⟩)

theorem percent_not_mem_int (n : Int) : '%' ∉ (toString n).toList := by
  intro h
  have hdigits : ∀ k : Nat, '%' ∉ (Nat.repr k).toList := fun k hk =>
    absurd (Runs.repr_isDigit hk) (by decide)
  rw [Int.toString_eq_repr, Int.repr_eq_if] at h
  split at h
  · exact hdigits _ h
  · rw [String.toList_append, List.mem_append] at h
    rcases h with h | h
    · exact absurd h (by decide)
    · exact hdigits _ h

/-- Only names bring percent signs into the text of a statement, apart from the marks of
parameters. -/
theorem percent_mem_piece {piece : Piece} (hplain : piece.value? = none) :
    '%' ∈ (piece.text fun _ => "").toList ↔ ∃ name, piece = .name name ∧ '%' ∈ name.toList := by
  cases piece with
  | name s => simpa [Piece.text] using percent_mem_identifier
  | word w => cases w <;> simp [Piece.text, Word.text]
  | operator o => cases o <;> simp [Piece.text, BinaryOperator.word]
  | count n => simpa [Piece.text] using percent_not_mem_int n
  | slot v => cases hplain
  | _ => simp [Piece.text]

/-- The lexeme of a parameter. -/
def markLexeme (dialect : Dialect) (n : Nat) : Lexeme :=
  ⟨some (.placeholder (paramName n)), (dialect.placeholder (paramName n)).toList⟩

theorem meant_pieceLexeme (piece : Piece) :
    (Lexer.pieceLexeme piece).meant = (piece.text fun _ => "").toList.map .char := by
  -- none of the pieces is the mark of a parameter, whatever it is written as
  have hmeant : ∀ written, (Lexeme.mk piece.ownTokens.head? written).meant = written.map .char := by
    intro written
    cases piece <;> rfl
  exact hmeant _

theorem faithful_piece_iff (piece : Piece) :
    (Lexer.pieceLexeme piece).Faithful ↔ '%' ∉ (piece.text fun _ => "").toList := by
  rw [Lexeme.Faithful, meant_pieceLexeme, ← written_chars_iff]
  rfl

theorem faithful_mark (n : Nat) : (markLexeme .postgres n).Faithful := by
  simp [Lexeme.Faithful, Lexeme.meant, markLexeme, Found.written]

theorem writable_mark (n : Nat) : (Found.parameter (paramName n)).Writable := by
  have hlist : (paramName n).toList = "param_".toList ++ (Nat.repr n).toList := by
    rw [paramName, String.toList_append]
  rw [Found.Writable, hlist, List.mem_append, not_or]
  refine ⟨List.append_ne_nil_of_right_ne_nil _ Runs.repr_ne_nil, by decide, fun h => ?_⟩
  exact absurd (Runs.repr_isDigit h) (by decide)

/-- The lexemes of a text with parameters are those of the pieces and the marks of the
parameters. -/
theorem forall_mem_boundLexemes {dialect : Dialect} {pieces : List Piece} {P : Lexeme → Prop}
    (hmark : ∀ n, P (markLexeme dialect n)) (next : Nat) :
    (∀ lexeme ∈ Lexer.boundLexemes dialect next pieces, P lexeme) ↔
      ∀ piece ∈ pieces, piece.value? = none → P (Lexer.pieceLexeme piece) := by
  induction pieces generalizing next with
  | nil => simp [Lexer.boundLexemes]
  | cons piece pieces ih =>
    by_cases hplain : piece.value? = none
    · rw [Lexer.boundLexemes_cons hplain, List.forall_mem_cons, List.forall_mem_cons, ih]
      simp [hplain]
    · cases piece with
      | slot v =>
        rw [Lexer.boundLexemes, ← markLexeme, List.forall_mem_cons, List.forall_mem_cons, ih]
        simp [hmark, Piece.value?]
      | _ => exact absurd rfl hplain

theorem forall_faithful_iff (pieces : List Piece) (next : Nat) :
    (∀ lexeme ∈ Lexer.boundLexemes .postgres next pieces, lexeme.Faithful) ↔
      ∀ name, .name name ∈ pieces → '%' ∉ name.toList := by
  rw [forall_mem_boundLexemes faithful_mark next]
  simp only [faithful_piece_iff]
  constructor
  · intro h name hname hmem
    exact h _ hname rfl ((percent_mem_piece rfl).mpr ⟨name, rfl, hmem⟩)
  · intro h piece hpiece hplain
    rw [percent_mem_piece hplain]
    rintro ⟨name, rfl, hname⟩
    exact h name hpiece hname

theorem length_le_meant {pieces : List Piece} {next : Nat} :
    ∀ lexeme ∈ Lexer.boundLexemes .postgres next pieces,
      lexeme.written.length ≤ (lexeme.meant.flatMap Found.written).length := by
  refine (forall_mem_boundLexemes (P := fun lexeme =>
    lexeme.written.length ≤ (lexeme.meant.flatMap Found.written).length) ?_ next).mpr ?_
  · intro n
    exact (congrArg List.length (faithful_mark n)).ge
  · intro piece _ _
    rw [meant_pieceLexeme]
    exact length_le_written _

/-- A text is written from what its lexemes mean exactly if there is no percent sign in its
names. -/
theorem written_meant_iff (pieces : List Piece) (next : Nat) :
    ((Lexer.boundLexemes .postgres next pieces).flatMap Lexeme.meant).flatMap Found.written =
        (Lexer.boundLexemes .postgres next pieces).flatMap Lexeme.written ↔
      ∀ name, .name name ∈ pieces → '%' ∉ name.toList := by
  rw [← forall_faithful_iff pieces next, List.flatMap_assoc]
  exact ⟨eq_of_flatMap_eq length_le_meant, List.flatMap_congr⟩

/-- The parameters that are meant are those of the marks. -/
theorem parameters_meant (cut : List Lexeme) :
    (cut.flatMap Lexeme.meant).filterMap Found.parameter? =
      (cut.filterMap Lexeme.token?).filterMap Token.placeholder? := by
  have hchars : ∀ text : List Char, (text.map Found.char).filterMap Found.parameter? = [] := by
    intro text
    simp [Found.parameter?, List.filterMap_map, Function.comp_def]
  induction cut with
  | nil => rfl
  | cons lexeme rest ih =>
    obtain ⟨token, written⟩ := lexeme
    rw [List.flatMap_cons, List.filterMap_append, ih]
    rcases token with _ | token
    · simp [Lexeme.meant, hchars]
    · cases token <;> simp [Lexeme.meant, hchars, Found.parameter?, Token.placeholder?, List.filterMap_cons]

theorem Statement.mem_names_iff {statement : Statement} {dialect : Dialect} {mode : ValueMode}
    {compiled : Compiled} (h : statement.compile dialect mode = .ok compiled) {name : String} :
    name ∈ statement.names ↔ .name name ∈ statement.layout.pieces := by
  rw [names, ← itemsOf_parts, ← parts_of_compile h, itemsOf, partsOf, List.filterMap_filterMap,
    List.filterMap_filterMap, List.mem_filterMap]
  constructor
  · rintro ⟨piece, hpiece, hname⟩
    cases piece with
    | name s => cases hname; exact hpiece
    | _ => cases hname
  · intro hname
    exact ⟨_, hname, rfl⟩

/-- The text of a statement with parameters is cut into lexemes whose marks are numbered from the
left. A driver finds in it what the lexemes mean exactly if no name of the statement has a percent
sign. -/
theorem Statement.scan_compiled_iff {statement : Statement} {compiled : Compiled}
    (h : statement.compile .postgres .bound = .ok compiled) :
    ∃ cut, Lexer.lexemes compiled.sql.toList = some cut ∧
      cut.flatMap Lexeme.written = compiled.sql.toList ∧
      (cut.flatMap Lexeme.meant).filterMap Found.parameter? =
        paramNames statement.arguments.length ∧
      (scan compiled.sql.toList = some (cut.flatMap Lexeme.meant) ↔
        ∀ name ∈ statement.names, '%' ∉ name.toList) := by
  have hcut := lexemes_of_compile h
  obtain ⟨hwritten, htokens⟩ := Lexer.lexemes_exact hcut
  refine ⟨_, hcut, hwritten, ?_, ?_⟩
  · have hmarks := placeholders_of_compile h
    rw [htokens] at hmarks
    rw [parameters_meant]
    exact Option.some.inj hmarks
  · have hwritable : ∀ f ∈ (Lexer.boundLexemes .postgres 0 statement.layout.pieces).flatMap
        Lexeme.meant, f.Writable := by
      refine List.forall_mem_flatMap.mpr ?_
      refine (forall_mem_boundLexemes (fun n => ?_) 0).mpr fun piece _ _ => ?_
      · exact List.forall_mem_singleton.mpr (writable_mark n)
      · rw [meant_pieceLexeme]
        exact List.forall_mem_map.mpr fun _ _ => trivial
    rw [Driver.scan_eq_some_iff, and_iff_left hwritable]
    conv_lhs => rw [← hwritten]
    rw [written_meant_iff]
    simp only [mem_names_iff h]

/-- A selection whose names look like marks of parameters, but have no percent sign. -/
def Statement.percentFree : Statement :=
  .select "(param_0)s" ["\"(a"] [.binary "b)s" "=" (.text "100%")] none .null .null

theorem Statement.scan_percentFree : ∃ compiled found,
    percentFree.compile .postgres .bound = .ok compiled ∧
    compiled.sql = "SELECT \"\"\"(a\"\nFROM \"(param_0)s\"\nWHERE \"b)s\" = %(param_0)s" ∧
    scan compiled.sql.toList = some found ∧ found.filterMap Found.parameter? = ["param_0"] := by
  have hcompiled : percentFree.compile .postgres .bound = .ok
      ⟨"SELECT \"\"\"(a\"\nFROM \"(param_0)s\"\nWHERE \"b)s\" = %(param_0)s",
        [("param_0", .text "100%")], .postgres⟩ := rfl
  obtain ⟨cut, -, -, hparameters, hscan⟩ := scan_compiled_iff hcompiled
  have hnames : ∀ name ∈ percentFree.names, '%' ∉ name.toList := by decide
  exact ⟨_, _, hcompiled, rfl, hscan.mpr hnames, hparameters⟩

/-- A percent sign in the name of a table makes a driver refuse the text, and a name that looks like
the mark of a parameter is taken for one. -/
theorem scan_percentNames :
    (∃ compiled,
      (Command.select ⟨"a%b", none, none, none, none, none⟩).compile .postgres .bound =
        .ok compiled ∧
      scan compiled.sql.toList = none) ∧
    ∃ compiled found,
      (Command.select ⟨"%(param_0)s", none, none, none, none, none⟩).compile .postgres .bound =
        .ok compiled ∧
      compiled.params = [] ∧ scan compiled.sql.toList = some found ∧
      found.filterMap Found.parameter? = ["param_0"] := by
  have hrefused : (Command.select ⟨"a%b", none, none, none, none, none⟩).compile .postgres .bound =
      .ok ⟨"SELECT *\nFROM \"a%b\"", [], .postgres⟩ := rfl
  have hphantom : (Command.select ⟨"%(param_0)s", none, none, none, none, none⟩).compile
      .postgres .bound = .ok ⟨"SELECT *\nFROM \"%(param_0)s\"", [], .postgres⟩ := rfl
  exact ⟨⟨_, hrefused, by decide +kernel⟩, _, _, hphantom, rfl, rfl, by decide +kernel⟩

end SchemaClient.Sql
