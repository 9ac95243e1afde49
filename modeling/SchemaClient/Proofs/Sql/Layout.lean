import SchemaClient.Proofs.Entries
import SchemaClient.Proofs.Sql.Pieces

/-!
# Layouts and the parts they stand for

A layout that has no fault stands for the parts that its statement is meant to have, and no two of
its pieces run into each other.
-/
namespace SchemaClient.Sql

open Layout (ofPieces fail joined)
open SchemaClient.Sql.Part (word mark name count)

namespace Layout

/-- Unless it has a fault, a layout stands for these parts and its pieces are kept apart. -/
def Spells (layout : Layout) (parts : List Part) : Prop :=
  layout.fault = none → partsOf layout.pieces = parts ∧ Spaced layout.pieces

variable {first second : Layout} {parts others : List Part}

theorem spells_ofPieces {p : List Piece} (h : Spaced p) : (ofPieces p).Spells (partsOf p) :=
  fun _ => ⟨rfl, h⟩

theorem spells_fail (fault : Fault) (parts : List Part) : (fail fault).Spells parts := by
  intro h
  cases h

theorem append_of_fault (h : (first ++ second).fault = none) :
    first.fault = none ∧ second.fault = none ∧
      (first ++ second).pieces = first.pieces ++ second.pieces := by
  obtain ⟨pieces, fault⟩ := first
  cases fault with
  | some fault => cases h
  | none => exact ⟨rfl, h, rfl⟩

/-- A row of layouts has the faults of each of them. -/
theorem fault_of_joined {separator : List Piece} {layouts : List Layout}
    (h : (joined separator layouts).fault = none) : ∀ layout ∈ layouts, layout.fault = none := by
  induction layouts with
  | nil => exact List.forall_mem_nil _
  | cons layout layouts ih =>
    cases layouts with
    | nil => exact List.forall_mem_singleton.mpr h
    | cons other layouts =>
      obtain ⟨hlayout, hrest, -⟩ := append_of_fault h
      obtain ⟨-, hothers, -⟩ := append_of_fault hrest
      exact List.forall_mem_cons.mpr ⟨hlayout, ih hothers⟩

/-- Layouts may follow each other if the first ends or the second starts with a loose piece. -/
theorem Spells.append (hfirst : first.Spells parts) (hsecond : second.Spells others)
    (hloose : first.pieces.getLast?.all Piece.isLoose ∨ second.pieces.head?.all Piece.isLoose) :
    (first ++ second).Spells (parts ++ others) := by
  intro hfault
  obtain ⟨hnone, hnone', hpieces⟩ := append_of_fault hfault
  obtain ⟨rfl, hspaced⟩ := hfirst hnone
  obtain ⟨rfl, hspaced'⟩ := hsecond hnone'
  rw [hpieces]
  refine ⟨List.filterMap_append, hspaced.append hspaced' fun p hp q hq => ?_⟩
  rw [Bool.or_eq_true]
  rcases hloose with hloose | hloose
  · rw [hp] at hloose
    exact .inl hloose
  · rw [hq] at hloose
    exact .inr hloose

/-- A separator keeps apart whatever it stands between. -/
structure Separates (separator : List Piece) : Prop where
  spaced : Spaced separator
  starts : separator.head?.any Piece.isLoose
  ends : separator.getLast?.all Piece.isLoose

theorem spells_joined {separator : List Piece} (hseparator : Separates separator)
    {layouts : List Layout} {groups : List (List Part)} (h : List.Forall₂ Spells layouts groups) :
    (joined separator layouts).Spells ((partsOf separator).intercalate groups) := by
  induction h with
  | nil => exact spells_ofPieces .nil
  | @cons layout group layouts groups hfirst hrest ih =>
    cases hrest with
    | nil =>
      rw [List.intercalate, List.intersperse_singleton, List.flatten_singleton]
      exact hfirst
    | @cons second other layouts groups _ _ =>
      have hsecond := (spells_ofPieces hseparator.spaced).append ih (.inl hseparator.ends)
      have hstarts : (ofPieces separator ++ joined separator (second :: layouts)).pieces.head?.all
          Piece.isLoose := by
        obtain ⟨p, more, rfl⟩ : ∃ p more, separator = p :: more := by
          have hstarts := hseparator.starts
          cases separator with
          | nil => cases hstarts
          | cons p more => exact ⟨p, more, rfl⟩
        exact hseparator.starts
      have hspells := hfirst.append hsecond (.inr hstarts)
      rw [List.intercalate, List.intersperse_cons_cons, List.flatten_cons, List.flatten_cons,
        ← List.intercalate]
      exact hspells

end Layout

open Layout (Spells Separates spells_ofPieces spells_fail spells_joined)

theorem BinaryOperator.word_of_ofWord? {w : String} {o : BinaryOperator}
    (h : BinaryOperator.ofWord? w = some o) : o.word = w := by
  have hmem := Entries.mem_of_lookup h
  obtain ⟨other, -, heq⟩ := List.mem_map.mp hmem
  cases heq
  rfl

theorem separates_list : Separates listSeparator :=
  ⟨by simp [Spaced, listSeparator, Piece.isLoose], rfl, rfl⟩

theorem separates_and : Separates [.blank, .word .and, .blank] :=
  ⟨by simp [Spaced, Piece.isLoose], rfl, rfl⟩

theorem separates_line : Separates [.newline] := ⟨.singleton _, rfl, rfl⟩

/-- Items with commas between them, each of which spells what it is meant to. -/
theorem list_spells {α : Type} {layoutOf : α → Layout} {partsFor : α → List Part} {items : List α}
    (each : ∀ a ∈ items, (layoutOf a).Spells (partsFor a)) :
    (joined listSeparator (items.map layoutOf)).Spells (listParts (items.map partsFor)) := by
  refine spells_joined separates_list ?_
  rw [List.forall₂_map_left_iff, List.forall₂_map_right_iff]
  exact List.forall₂_same.mpr each

theorem single_spells (piece : Piece) : (ofPieces [piece]).Spells (partsOf [piece]) :=
  spells_ofPieces (.singleton piece)

theorem names_spells (columns : List String) : (names columns).Spells (nameParts columns) :=
  list_spells fun c _ => single_spells (.name c)

theorem slots_spells (values : List Value) : (slots values).Spells (valueParts values) :=
  list_spells fun v _ => single_spells (.slot v)

theorem columnList_spells (columns : List String) :
    (columnList columns).Spells (columnParts columns) := by
  rw [columnList, columnParts]
  by_cases h : columns = [] ∨ columns = ["*"]
  · have hstar : (columns.isEmpty || columns = ["*"]) = true := by simpa using h
    rw [if_pos h, if_pos hstar]
    exact single_spells .star
  · have hnames : ¬ (columns.isEmpty || columns = ["*"]) = true := by simpa using h
    rw [if_neg h, if_neg hnames]
    exact names_spells columns

theorem test_spells (t : Test) : (test t).Spells (testParts t) := by
  cases t with
  | unary column operator =>
    rw [test, testParts]
    cases UnaryOperator.ofWord? operator with
    | none => exact spells_fail _ _
    | some o =>
      cases o with
      | isNull => exact spells_ofPieces (by simp [Spaced, phrase, unaryWords, Piece.isLoose])
      | isNotNull => exact spells_ofPieces (by simp [Spaced, phrase, unaryWords, Piece.isLoose])
  | binary column operator value =>
    rw [test, testParts]
    cases hword : BinaryOperator.ofWord? operator with
    | none => exact spells_fail _ _
    | some o =>
      rw [← BinaryOperator.word_of_ofWord? hword]
      exact spells_ofPieces (by simp [Spaced, Piece.isLoose])
  | foreign kind => exact spells_fail _ _

theorem where_spells (tests : List Test) :
    List.Forall₂ Spells (whereClause tests) (whereParts tests) := by
  rw [whereClause, whereParts]
  cases tests with
  | nil => exact .nil
  | cons t rest =>
    have htests : (joined [.blank, .word .and, .blank] ((t :: rest).map test)).Spells
        ([word .and].intercalate ((t :: rest).map testParts)) := by
      refine spells_joined separates_and ?_
      rw [List.forall₂_map_left_iff, List.forall₂_map_right_iff]
      exact List.forall₂_same.mpr fun t _ => test_spells t
    have hwhere := spells_ofPieces (p := [.word .where, .blank]) (by simp [Spaced, Piece.isLoose])
    exact .cons (hwhere.append htests (.inl rfl)) .nil

theorem directionWord?_eq_some {direction : String} {w : Word}
    (h : directionWord? direction = some w) : w = if direction = "asc" then .asc else .desc := by
  unfold directionWord? at h
  split at h
  · cases h
    rfl
  · cases h
    rfl
  · cases h

theorem order_spells (ordering : Option Ordering) :
    List.Forall₂ Spells (orderClause ordering) (orderParts ordering) := by
  cases ordering with
  | none => exact .nil
  | some ordering =>
    rw [orderClause, orderParts]
    cases hdirection : directionWord? ordering.direction with
    | none => exact .cons (spells_fail _ _) .nil
    | some w =>
      rw [← directionWord?_eq_some hdirection]
      dsimp only
      split
      · exact .cons (spells_fail _ _) .nil
      · have hby := spells_ofPieces (p := phrase [.order, .by] ++ [.blank])
          (by simp [Spaced, phrase, Piece.isLoose])
        have hword := spells_ofPieces (p := [.blank, .word w]) (by simp [Spaced, Piece.isLoose])
        have hnames := hby.append (names_spells ordering.columns) (.inl rfl)
        exact .cons (hnames.append hword (.inr rfl)) .nil

theorem count_spells (w : Word) (v : Value) :
    List.Forall₂ Spells (countClause w v) (countParts w v) := by
  rw [countClause, countParts]
  split
  · exact .nil
  · cases v.wholePart with
    | error fault => exact .cons (spells_fail _ _) .nil
    | ok n => exact .cons (spells_ofPieces (by simp [Spaced, Piece.isLoose])) .nil

theorem returning_spells (returning : List String) :
    List.Forall₂ Spells (returningClause returning) (returningParts returning) := by
  rw [returningClause, returningParts]
  cases returning with
  | nil => exact .nil
  | cons c rest =>
    have hword := spells_ofPieces (p := [.word .returning, .blank]) (by simp [Spaced, Piece.isLoose])
    exact .cons (hword.append (columnList_spells (c :: rest)) (.inl rfl)) .nil

/-- A column that a row has is found; none is left out. -/
theorem filterMap_lookup {columns : List String} {row : Record}
    (h : (columns.filter fun c => (row.lookup c).isNone).isEmpty) :
    columns.filterMap (fun c => row.lookup c) = columns.map fun c => (row.lookup c).getD .null := by
  induction columns with
  | nil => rfl
  | cons c rest ih =>
    rw [List.filter_cons] at h
    split at h
    · cases h
    · next hfound =>
      rw [Bool.not_eq_true, Option.isNone_eq_false_iff, Option.isSome_iff_exists] at hfound
      obtain ⟨v, hv⟩ := hfound
      rw [List.filterMap_cons, hv, List.map_cons, hv, ih h]
      rfl

theorem tuple_spells (columns : List String) (index : Nat) (row : Record) :
    (rowTuple columns index row).Spells (tupleParts columns row) := by
  rw [rowTuple, tupleParts]
  split
  · next hcolumns =>
    rw [filterMap_lookup hcolumns]
    have hslots := slots_spells (columns.map fun c => (row.lookup c).getD .null)
    have hopen := (single_spells .opening).append hslots (.inl rfl)
    exact hopen.append (single_spells .closing) (.inr rfl)
  · exact spells_fail _ _

theorem tuples_spells (columns : List String) (rows : List Record) (index : Nat) :
    List.Forall₂ Spells (rowTuples columns index rows) (rows.map (tupleParts columns)) := by
  induction rows generalizing index with
  | nil => exact .nil
  | cons row rest ih => exact .cons (tuple_spells columns index row) (ih (index + 1))

theorem assignments_spells (values : Record) :
    (joined listSeparator (values.map assignment)).Spells (listParts (values.map assignmentParts)) :=
  list_spells fun _ _ => spells_ofPieces (by simp [Spaced, Piece.isLoose])

theorem nil_intercalate {α : Type} (groups : List (List α)) :
    ([] : List α).intercalate groups = groups.flatten := by
  induction groups with
  | nil => rfl
  | cons group rest ih =>
    cases rest with
    | nil => rfl
    | cons second rest =>
      rw [List.intercalate, List.intersperse_cons_cons, List.flatten_cons, List.flatten_cons,
        ← List.intercalate, ih, List.nil_append, ← List.flatten_cons]

theorem lines_spells {clauses : List Layout} {groups : List (List Part)}
    (h : List.Forall₂ Spells clauses groups) : (lines clauses).Spells groups.flatten := by
  have hspells := spells_joined separates_line h
  have hnil : partsOf [.newline] = [] := rfl
  rwa [hnil, nil_intercalate] at hspells

/-- A statement without a fault is laid out as the parts it is meant to have. -/
theorem Statement.layout_spells (statement : Statement) :
    statement.layout.Spells statement.parts := by
  cases statement with
  | select table selected tests ordering limit offset =>
    have hselect := spells_ofPieces (p := [.word .select, .blank]) (by simp [Spaced, Piece.isLoose])
    have hfrom := spells_ofPieces (p := [.word .from, .blank, .name table])
      (by simp [Spaced, Piece.isLoose])
    have hhead := hselect.append (columnList_spells selected) (.inl rfl)
    exact lines_spells <| List.rel_append (List.rel_append (List.rel_append (List.rel_append
      (.cons hhead (.cons hfrom .nil)) (where_spells tests)) (order_spells ordering))
      (count_spells .limit limit)) (count_spells .offset offset)
  | insert table columns rows returning =>
    rw [layout]
    split
    · exact spells_fail _ _
    · split
      · exact spells_fail _ _
      · have hinto := spells_ofPieces
          (p := phrase [.insert, .into] ++ [.blank, .name table, .blank, .opening])
          (by simp [Spaced, phrase, Piece.isLoose])
        have hvalues := spells_ofPieces (p := [.word .values, .blank])
          (by simp [Spaced, Piece.isLoose])
        have hcolumns := (hinto.append (names_spells columns) (.inl rfl)).append
          (single_spells .closing) (.inr rfl)
        have htuples := hvalues.append
          (spells_joined separates_list (tuples_spells columns rows 0)) (.inl rfl)
        exact lines_spells <| List.rel_append (.cons hcolumns (.cons htuples .nil))
          (returning_spells returning)
  | update table values tests returning =>
    rw [layout]
    split
    · exact spells_fail _ _
    · have hupdate := spells_ofPieces (p := [.word .update, .blank, .name table])
        (by simp [Spaced, Piece.isLoose])
      have hset := spells_ofPieces (p := [.word .set, .blank]) (by simp [Spaced, Piece.isLoose])
      have hassignments := hset.append (assignments_spells values) (.inl rfl)
      exact lines_spells <| List.rel_append (List.rel_append
        (.cons hupdate (.cons hassignments .nil)) (where_spells tests)) (returning_spells returning)
  | delete table tests returning =>
    have hdelete := spells_ofPieces (p := phrase [.delete, .from] ++ [.blank, .name table])
      (by simp [Spaced, phrase, Piece.isLoose])
    exact lines_spells <| List.rel_append (List.rel_append (.cons hdelete .nil) (where_spells tests))
      (returning_spells returning)
  | call procedure parameters =>
    have hcall := spells_ofPieces
      (p := [.word .select, .blank, .star, .blank, .word .from, .blank, .name procedure, .opening])
      (by simp [Spaced, Piece.isLoose])
    have hclosed := (hcall.append (slots_spells parameters) (.inl rfl)).append
      (single_spells .closing) (.inr rfl)
    rw [parts, clauses, List.flatten_singleton]
    exact hclosed

end SchemaClient.Sql
