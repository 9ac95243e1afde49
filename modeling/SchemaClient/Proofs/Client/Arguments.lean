import SchemaClient.Proofs.Client.Chain

/-!
# What calls take for columns and numbers

A list of names is taken for the columns to return or to order by as it stands, if all of them are
columns of the table, and the first that is none is the one complained of. The star stands for all
columns, and for a limit or an offset a whole number stands for itself. The direction of an ordering
is looked at before its columns.
-/
namespace SchemaClient

open Success (bind_eq_ok)

namespace Table

variable {τ : Type} {t : Table τ} {names checked : List String} {name : String}

theorem checkColumn_text (h : name ∈ t.columnNames) : t.checkColumn (.text name) = .ok name :=
  if_pos (List.contains_iff_mem.mpr h)

theorem checkColumn_unknown (h : name ∉ t.columnNames) :
    t.checkColumn (.text name) =
      .error (.problem (.unknownColumn t.name (.text name) t.columnNames)) :=
  if_neg fun hcontains => h (List.contains_iff_mem.mp hcontains)

theorem checkColumn_text_iff {other : String} :
    t.checkColumn (.text name) = .ok other ↔ other = name ∧ name ∈ t.columnNames := by
  by_cases hname : name ∈ t.columnNames
  · rw [checkColumn_text hname, Except.ok.injEq]
    exact ⟨fun h => ⟨h.symm, hname⟩, fun h => h.1.symm⟩
  · rw [checkColumn_unknown hname]
    exact ⟨nofun, fun h => absurd h.2 hname⟩

/-- Names are taken as they stand exactly if each of them is a column of the table. -/
theorem checkColumns_texts :
    t.checkColumns (names.map .text) = .ok checked ↔
      checked = names ∧ ∀ name ∈ names, name ∈ t.columnNames := by
  rw [checkColumns, Success.mapM_eq_ok, List.forall₂_map_left_iff]
  simp only [checkColumn_text_iff]
  induction names generalizing checked with
  | nil => simp
  | cons name rest ih =>
    simp only [List.forall₂_cons_left_iff, ih, List.forall_mem_cons]
    constructor
    · rintro ⟨_, _, ⟨rfl, hname⟩, ⟨rfl, hrest⟩, rfl⟩
      exact ⟨rfl, hname, hrest⟩
    · rintro ⟨rfl, hname, hrest⟩
      exact ⟨name, rest, ⟨rfl, hname⟩, ⟨rfl, hrest⟩, rfl⟩

/-- The first name that is no column of the table is complained of. -/
theorem checkColumns_unknown {before after : List String}
    (hbefore : ∀ name ∈ before, name ∈ t.columnNames) (hname : name ∉ t.columnNames) :
    t.checkColumns ((before ++ name :: after).map .text) =
      .error (.problem (.unknownColumn t.name (.text name) t.columnNames)) := by
  induction before with
  | nil =>
    rw [List.nil_append, List.map_cons, checkColumns, List.mapM_cons, checkColumn_unknown hname]
    rfl
  | cons first rest ih =>
    obtain ⟨hfirst, hrest⟩ := List.forall_mem_cons.mp hbefore
    have ih := ih hrest
    rw [checkColumns] at ih
    rw [List.cons_append, List.map_cons, checkColumns, List.mapM_cons, checkColumn_text hfirst, ih]
    rfl

end Table

namespace Chain

variable {table : Table DataType} {names checked : List String}

theorem returningColumns_star : returningColumns table (.text "*") = .ok ["*"] := rfl

theorem returningColumns_texts :
    returningColumns table (.texts names) = .ok checked ↔
      checked = names ∧ ∀ name ∈ names, name ∈ table.columnNames :=
  Table.checkColumns_texts

theorem countField_null (name : String) : countField name .null = .ok none := rfl

theorem countField_int (name : String) (n : Int) :
    countField name (.int n) =
      if 0 ≤ n then .ok (some n.toNat)
      else .error (.rejected
        ⟨Select.model.title, .values, [⟨[.name name], .belowMinimum 0, .int n⟩]⟩) := by
  cases n with
  | ofNat k => rfl
  | negSucc k => rfl

/-- An ordering is by the names as they stand, in the direction that is called so. -/
theorem ordering_texts {direction : Direction} {o : OrderBy} :
    ordering table (.texts names) (.text direction.word) = .ok o ↔
      o.columns = names ∧ o.direction = direction ∧ ∀ name ∈ names, name ∈ table.columnNames := by
  have heq : ordering table (.texts names) (.text direction.word) =
      table.checkColumns (names.map .text) >>= orderedBy direction := by
    cases direction <;> rfl
  rw [heq, bind_eq_ok]
  constructor
  · rintro ⟨checked, hchecked, ho⟩
    obtain ⟨rfl, hnames⟩ := Table.checkColumns_texts.mp hchecked
    cases checked with
    | nil => cases direction <;> cases ho
    | cons first rest =>
      cases ho
      exact ⟨rfl, rfl, hnames⟩
  · rintro ⟨rfl, rfl, hnames⟩
    refine ⟨o.columns, Table.checkColumns_texts.mpr ⟨rfl, hnames⟩, ?_⟩
    obtain ⟨columns, direction, hne⟩ := o
    cases columns with
    | nil => exact absurd rfl hne
    | cons first rest => rfl

/-- A direction of another name is refused, whatever the columns are. -/
theorem ordering_direction {columns direction : Value}
    (h : ∀ d : Direction, direction ≠ .text d.word) :
    ordering table columns direction = .error (.problem (.invalidDirection direction)) := by
  cases direction with
  | text s =>
    have hlookup : Direction.words.lookup s = none := by
      rw [List.lookup_eq_none_iff]
      intro entry hentry
      obtain ⟨d, -, rfl⟩ := List.mem_map.mp hentry
      exact bne_iff_ne.mpr fun heq => h d (congrArg Value.text heq)
    simp only [ordering, hlookup]
    rfl
  | _ => rfl

end Chain
end SchemaClient
