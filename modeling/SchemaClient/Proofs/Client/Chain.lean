import SchemaClient.Client.Chain
import SchemaClient.Proofs.Command.Dump
import SchemaClient.Proofs.Success

/-!
# Chains of calls

What holds of the command of a chain after any calls on it, whatever their arguments are and whether
they failed or not: it is for the table of the chain and names no columns that the table lacks, and
its own model takes it as it is.
-/
namespace SchemaClient

open Success (bind_eq_ok)
open Validation (Validated Decoder)

namespace Table

variable {τ : Type} {t : Table τ}

theorem checkColumn_eq_ok {column : Value} {name : String} (h : t.checkColumn column = .ok name) :
    column = .text name ∧ name ∈ t.columnNames := by
  unfold checkColumn at h
  split at h
  · split at h
    · next hcontains =>
      cases h
      exact ⟨rfl, List.contains_iff_mem.mp hcontains⟩
    · cases h
  · cases h

theorem mem_of_checked {columns : List Value} {names : List String}
    (h : t.checkColumns columns = .ok names) {name : String} (hname : .text name ∈ columns) :
    name ∈ t.columnNames := by
  obtain ⟨checked, -, hchecked⟩ :=
    Success.exists_of_mem_results (Success.mapM_eq_ok.mp h).flip hname
  obtain ⟨heq, hmem⟩ := checkColumn_eq_ok hchecked
  cases heq
  exact hmem

theorem mem_of_checkColumns {columns : List Value} {names : List String}
    (h : t.checkColumns columns = .ok names) : ∀ name ∈ names, name ∈ t.columnNames := by
  intro name hname
  obtain ⟨column, -, hcolumn⟩ := Success.exists_step h hname
  exact (checkColumn_eq_ok hcolumn).2

end Table

namespace Command

/-- The table that a command is for. -/
def table? : Command → Option String
  | select q => some q.table
  | insert c => some c.table
  | update c => some c.table
  | delete c => some c.table
  | call _ => none

/-- The columns that a command selects and orders by, or inserts. -/
def listed : Command → List String
  | select q => q.selected.getD [] ++ (q.orderBy.map OrderBy.columns).getD []
  | insert c => c.columns
  | _ => []

/-- The columns that a command tests. -/
def tested (c : Command) : List String := (c.conditions?.getD []).map Condition.column

/-- The columns that a command sets. -/
def assigned : Command → List String
  | update c => Entries.names c.values
  | _ => []

def returning? : Command → Option (List String)
  | insert c => c.returning
  | update c => c.returning
  | delete c => c.returning
  | _ => none

/-- A command for a table that lists, tests and returns columns of this table only. -/
structure IsFor (table : Table DataType) (c : Command) : Prop where
  target : c.table? = some table.name
  listed : ∀ name ∈ c.listed, name ∈ table.columnNames
  tested : ∀ name ∈ c.tested, name ∈ table.columnNames
  returning : ∀ names ∈ c.returning?,
    names = [allColumns] ∨ ∀ name ∈ names, name ∈ table.columnNames

end Command

namespace Chain

/-- What a call on a chain for a table can make of a command, and how it can end. -/
inductive Change (table : Table DataType) (c : Command) : Command → Except Failure Unit → Prop where
  | failed (failure : Failure) : Change table c c (.error failure)
  /-- A condition was refused, but the list for it is there now. -/
  | tried {before : Option (List Condition)} (failure : Failure) (h : conditions? c = some before) :
    Change table c (withConditions (before.getD []) c) (.error failure)
  | condition {before : Option (List Condition)} (condition : Condition)
    (h : conditions? c = some before) (hcolumn : condition.column ∈ table.columnNames) :
    Change table c (withConditions (before.getD [] ++ [condition]) c) (.ok ())
  | limit {q : Select} (n : Option Nat) (h : c = .select q) :
    Change table c (.select { q with limit := n }) (.ok ())
  | offset {q : Select} (n : Option Nat) (h : c = .select q) :
    Change table c (.select { q with offset := n }) (.ok ())
  | order {q : Select} (o : OrderBy) (h : c = .select q)
    (hcolumns : ∀ name ∈ o.columns, name ∈ table.columnNames) :
    Change table c (.select { q with orderBy := some o }) (.ok ())
  | returning {c' : Command} (names : List String) (h : withReturning names c = some c')
    (hnames : names = [allColumns] ∨ ∀ name ∈ names, name ∈ table.columnNames) :
    Change table c c' (.ok ())

theorem column_of_ofArguments {column : String} {operator : Value} {value : Option Value}
    {condition : Condition} (h : Condition.ofArguments column operator value = .ok condition) :
    condition.column = column := by
  unfold Condition.ofArguments at h
  dsimp only at h
  split at h
  · split at h
    · cases h
      rfl
    · cases h
  · split at h <;> cases h <;> rfl

theorem mem_of_returningColumns {table : Table DataType} {columns : Value} {names : List String}
    (h : returningColumns table columns = .ok names) :
    names = [allColumns] ∨ ∀ name ∈ names, name ∈ table.columnNames := by
  unfold returningColumns at h
  split at h
  · cases h
    exact .inl rfl
  · obtain ⟨list, -, hchecked⟩ := bind_eq_ok.mp h
    exact .inr (Table.mem_of_checkColumns hchecked)

theorem mem_of_ordering {table : Table DataType} {columns direction : Value} {o : OrderBy}
    (h : ordering table columns direction = .ok o) :
    ∀ name ∈ o.columns, name ∈ table.columnNames := by
  unfold ordering at h
  split at h
  · split at h
    · next d _ =>
      obtain ⟨word, -, hcolumns⟩ := bind_eq_ok.mp h
      obtain ⟨names, hchecked, hresult⟩ := bind_eq_ok.mp hcolumns
      obtain ⟨list, -, hnames⟩ := bind_eq_ok.mp hchecked
      cases names with
      | nil =>
        -- An ordering by nothing is refused by the model.
        cases word <;> cases hresult
      | cons first rest =>
        cases hresult
        exact Table.mem_of_checkColumns hnames
    · cases h
  · cases h

theorem exists_withReturning {names : List String} {c c' : Command}
    (h : withReturning names c = some c') (others : List String) :
    ∃ c', withReturning others c = some c' := by
  cases c with
  | select q => cases h
  | call c => cases h
  | _ => exact ⟨_, rfl⟩

/-- After a call, a chain has its table, and a command that a change makes of the one before. -/
def Moves (chain : Chain) (after : Chain × Except Failure Unit) : Prop :=
  ∃ c result, after = (⟨chain.table, c⟩, result) ∧ Change chain.table chain.command c result

theorem moves_failed (chain : Chain) (failure : Failure) : Moves chain (chain, .error failure) :=
  ⟨_, _, rfl, .failed failure⟩

theorem moves_addCondition (chain : Chain) (column operator : Value) (value : Option Value) :
    Moves chain (chain.addCondition column operator value) := by
  rw [addCondition]
  cases hconditions : conditions? chain.command with
  | none => exact moves_failed chain _
  | some before =>
    cases hcolumn : chain.table.checkColumn column with
    | error failure => exact moves_failed chain failure
    | ok name =>
      simp only
      cases hcondition : Condition.ofArguments name operator value with
      | error p => exact ⟨_, _, rfl, .tried _ hconditions⟩
      | ok condition =>
        have hname := (Table.checkColumn_eq_ok hcolumn).2
        rw [← column_of_ofArguments hcondition] at hname
        exact ⟨_, _, rfl, .condition condition hconditions hname⟩

theorem moves_setSelection {α : Type} (chain : Chain) (name : String) {result : Except Failure α}
    {set : α → Select → Select}
    (h : ∀ a q, result = .ok a → chain.command = .select q →
      Change chain.table chain.command (.select (set a q)) (.ok ())) :
    Moves chain (chain.setSelection name result set) := by
  rw [setSelection]
  cases hcommand : chain.command with
  | select q =>
    cases result with
    | error failure => exact moves_failed chain failure
    | ok a => exact ⟨_, _, rfl, h a q rfl hcommand⟩
  | _ => exact moves_failed chain _

theorem moves_apply (chain : Chain) (step : Step) : Moves chain (chain.apply step) := by
  cases step with
  | condition column operator value => exact moves_addCondition chain column operator value
  | limit n => exact moves_setSelection chain "limit" fun n q _ hcommand => .limit n hcommand
  | offset n => exact moves_setSelection chain "offset" fun n q _ hcommand => .offset n hcommand
  | order columns direction =>
    exact moves_setSelection chain "order_by" fun o q ho hcommand =>
      .order o hcommand (mem_of_ordering ho)
  | returning columns =>
    rw [apply]
    cases hempty : withReturning [] chain.command with
    | none => exact moves_failed chain _
    | some _ =>
      cases hcolumns : returningColumns chain.table columns with
      | error failure => exact moves_failed chain failure
      | ok names =>
        have hnames := mem_of_returningColumns hcolumns
        obtain ⟨c, hc⟩ := exists_withReturning hempty names
        exact ⟨_, _, rfl, .returning names (by rw [hc]; rfl) hnames⟩

variable {table : Table DataType} {c c' : Command} {result : Except Failure Unit}

theorem isFor_withConditions {before : Option (List Condition)} {conditions : List Condition}
    (h : c.IsFor table) (hbefore : conditions? c = some before)
    (hconditions : ∀ condition ∈ conditions, condition.column ∈ table.columnNames) :
    (withConditions conditions c).IsFor table := by
  have htested : ∀ name ∈ conditions.map Condition.column, name ∈ table.columnNames :=
    List.forall_mem_map.mpr hconditions
  cases c with
  | insert c => cases hbefore
  | call c => cases hbefore
  | _ => exact ⟨h.target, h.listed, htested, h.returning⟩

theorem tested_eq {before : Option (List Condition)} (hbefore : conditions? c = some before) :
    c.tested = (before.getD []).map Condition.column := by
  cases c with
  | insert c => cases hbefore
  | call c => cases hbefore
  | _ => cases hbefore; rfl

/-- Whether it failed or not, a call leaves a command for the table. -/
theorem Change.isFor (h : Change table c c' result) (hc : c.IsFor table) : c'.IsFor table := by
  cases h with
  | failed failure => exact hc
  | tried failure hbefore =>
    have htested := hc.tested
    rw [tested_eq hbefore, List.forall_mem_map] at htested
    exact isFor_withConditions hc hbefore htested
  | condition condition hbefore hcolumn =>
    have htested := hc.tested
    rw [tested_eq hbefore, List.forall_mem_map] at htested
    exact isFor_withConditions hc hbefore
      (List.forall_mem_append.mpr ⟨htested, List.forall_mem_singleton.mpr hcolumn⟩)
  | limit n hselect =>
    subst hselect
    exact ⟨hc.target, hc.listed, hc.tested, hc.returning⟩
  | offset n hselect =>
    subst hselect
    exact ⟨hc.target, hc.listed, hc.tested, hc.returning⟩
  | order o hselect hcolumns =>
    subst hselect
    obtain ⟨hselected, -⟩ := List.forall_mem_append.mp hc.listed
    exact ⟨hc.target, List.forall_mem_append.mpr ⟨hselected, hcolumns⟩, hc.tested, hc.returning⟩
  | returning names hreturning hnames =>
    have hall : ∀ list ∈ some names,
        list = [allColumns] ∨ ∀ name ∈ list, name ∈ table.columnNames := by
      rintro _ ⟨⟩
      exact hnames
    cases c with
    | select q => cases hreturning
    | call c => cases hreturning
    | _ =>
      cases hreturning
      exact ⟨hc.target, hc.listed, hc.tested, hall⟩

/-- No call has a say in what is set. -/
theorem Change.assigned (h : Change table c c' result) : c'.assigned = c.assigned := by
  cases h with
  | failed failure => rfl
  | tried failure hbefore => cases c <;> rfl
  | condition condition hbefore hcolumn => cases c <;> rfl
  | limit n hselect => subst hselect; rfl
  | offset n hselect => subst hselect; rfl
  | order o hselect hcolumns => subst hselect; rfl
  | returning names hreturning hnames => cases c <;> cases hreturning <;> rfl

/-- What changes keep is kept by a run of calls. -/
theorem run_of_change (keeps : Table DataType → Command → Prop)
    (hchange : ∀ {table c c' result}, Change table c c' result → keeps table c → keeps table c')
    (steps : List Step) (chain : Chain) (h : keeps chain.table chain.command) :
    (chain.run steps).table = chain.table ∧ keeps chain.table (chain.run steps).command := by
  induction steps generalizing chain with
  | nil => exact ⟨rfl, h⟩
  | cons step rest ih =>
    obtain ⟨c, result, happly, hstep⟩ := moves_apply chain step
    have hafter : (chain.apply step).1 = ⟨chain.table, c⟩ := by rw [happly]
    have hrun := ih ⟨chain.table, c⟩ (hchange hstep h)
    rw [run, List.foldl_cons, hafter, ← run]
    exact hrun

/-- How a chain is started. -/
inductive Start where
  | select (columns : Value)
  | insert (rowOrColumns rows : Value)
  | update (row : Value)
  | delete

namespace Start

/-- The chain of a start, if it does not fail. -/
def chain (table : Table DataType) : Start → Except Failure Chain
  | select columns => Chain.select table columns
  | insert rowOrColumns rows => Chain.insert table rowOrColumns rows
  | update row => Chain.update table row
  | delete => .ok (Chain.delete table)

/-- Whether the values to be set, if there are any, are given by their names. -/
def IsNamed : Start → Prop
  | update (.record _) => True
  | update _ => False
  | _ => True

end Start

theorem withRows_eq_ok {α : Type} {operation : Operation} {rows : Validated α}
    {command : α → Command} (h : withRows operation rows command = .ok c) :
    ∃ a, rows = .ok a ∧ command a = c := by
  cases rows with
  | error issues => cases h
  | ok a =>
    cases h
    exact ⟨a, rfl, rfl⟩

theorem start_select {columns : Value} {chain : Chain}
    (h : Chain.select table columns = .ok chain) :
    chain.table = table ∧ chain.command.IsFor table ∧ chain.command.assigned = [] := by
  unfold Chain.select at h
  split at h
  · cases h
    exact ⟨rfl, ⟨rfl, List.forall_mem_nil _, List.forall_mem_nil _, nofun⟩, rfl⟩
  · obtain ⟨selected, hselected, hchain⟩ := bind_eq_ok.mp h
    cases hnames : columns.nameList >>= table.checkColumns with
    | error failure => rw [hnames] at hselected; cases hselected
    | ok names =>
      rw [hnames] at hselected
      cases hselected
      cases hchain
      obtain ⟨list, -, hchecked⟩ := bind_eq_ok.mp hnames
      have hlisted : ∀ name ∈ names ++ [], name ∈ table.columnNames := by
        rw [List.append_nil]
        exact Table.mem_of_checkColumns hchecked
      exact ⟨rfl, ⟨rfl, hlisted, List.forall_mem_nil _, nofun⟩, rfl⟩

theorem start_rows {columns : List Value} {rows : Validated (List Record)} {chain : Chain}
    (h : (do
      let names ← table.checkColumns columns
      let command ← withRows .insert rows fun rows => .insert ⟨table.name, names, rows, none⟩
      pure (⟨table, command⟩ : Chain)) = .ok chain) :
    chain.table = table ∧ chain.command.IsFor table ∧ chain.command.assigned = [] := by
  obtain ⟨names, hnames, h⟩ := bind_eq_ok.mp h
  obtain ⟨command, hcommand, h⟩ := bind_eq_ok.mp h
  obtain ⟨rows, -, rfl⟩ := withRows_eq_ok hcommand
  cases h
  exact ⟨rfl, ⟨rfl, Table.mem_of_checkColumns hnames, List.forall_mem_nil _, nofun⟩, rfl⟩

theorem start_insert {rowOrColumns rows : Value} {chain : Chain}
    (h : Chain.insert table rowOrColumns rows = .ok chain) :
    chain.table = table ∧ chain.command.IsFor table ∧ chain.command.assigned = [] := by
  unfold Chain.insert at h
  split at h
  · obtain ⟨row, -, h⟩ := bind_eq_ok.mp h
    obtain ⟨_, -, hchain⟩ := bind_eq_ok.mp h
    exact start_rows hchain
  · cases h
  · obtain ⟨columns, -, h⟩ := bind_eq_ok.mp h
    obtain ⟨mappings, -, h⟩ := bind_eq_ok.mp h
    obtain ⟨_, -, hchain⟩ := bind_eq_ok.mp h
    exact start_rows hchain

theorem namedEntries_texts (entries : Record) :
    Decoder.namedEntries (entries.map fun entry => (.text entry.1, entry.2)) = .ok entries := by
  induction entries with
  | nil => rfl
  | cons entry rest ih =>
    rw [List.map_cons, Decoder.namedEntries, ih]
    rfl

/-- What an update sets is checked only as far as the row is given by names: of other collections
the parts are checked, and not the names that they are taken apart into. -/
theorem start_update {row : Value} {chain : Chain} (h : Chain.update table row = .ok chain) :
    chain.table = table ∧ chain.command.IsFor table ∧
      ∀ entries, row = .record entries →
        ∀ name ∈ chain.command.assigned, name ∈ table.columnNames := by
  unfold Chain.update at h
  obtain ⟨names, hnames, h⟩ := bind_eq_ok.mp h
  obtain ⟨mapping, hmapping, h⟩ := bind_eq_ok.mp h
  obtain ⟨command, hcommand, h⟩ := bind_eq_ok.mp h
  obtain ⟨values, hvalues, rfl⟩ := withRows_eq_ok hcommand
  cases h
  refine ⟨rfl, ⟨rfl, List.forall_mem_nil _, List.forall_mem_nil _, nofun⟩, ?_⟩
  rintro entries rfl name hname
  cases hmapping
  have hrecord : Decoder.mapping (entries.map fun entry => (.text entry.1, entry.2)) =
      .ok (Entries.ofList entries) := by
    rw [Decoder.mapping, namedEntries_texts]
    rfl
  rw [hrecord] at hvalues
  cases hvalues
  have hentry : name ∈ Entries.names entries := Entries.mem_names_ofList.mp hname
  obtain ⟨entry, hmem, rfl⟩ := List.mem_map.mp hentry
  exact Table.mem_of_checked hnames (List.mem_map_of_mem hmem)

theorem Start.chain_isFor {start : Start} {chain : Chain} (h : start.chain table = .ok chain) :
    chain.table = table ∧ chain.command.IsFor table ∧
      (start.IsNamed → ∀ name ∈ chain.command.assigned, name ∈ table.columnNames) := by
  cases start with
  | select columns =>
    obtain ⟨htable, hfor, hassigned⟩ := start_select h
    exact ⟨htable, hfor, fun _ => hassigned ▸ List.forall_mem_nil _⟩
  | insert rowOrColumns rows =>
    obtain ⟨htable, hfor, hassigned⟩ := start_insert h
    exact ⟨htable, hfor, fun _ => hassigned ▸ List.forall_mem_nil _⟩
  | update row =>
    obtain ⟨htable, hfor, hassigned⟩ := start_update h
    refine ⟨htable, hfor, fun hnamed => ?_⟩
    cases row with
    | record entries => exact hassigned entries rfl
    | _ => cases hnamed
  | delete =>
    cases h
    exact ⟨rfl, ⟨rfl, List.forall_mem_nil _, List.forall_mem_nil _, nofun⟩,
      fun _ => List.forall_mem_nil _⟩

/-- However a chain was started, and whatever calls were made on it, failed ones among them, it has
a command for its table that names columns of this table only, and that its own model takes as it
is. Of an update this goes for the columns it sets if they were given as names. -/
theorem run_isFor {start : Start} {chain : Chain} (h : start.chain table = .ok chain)
    (steps : List Step) :
    (chain.run steps).command.IsFor table ∧
      (start.IsNamed →
        ∀ name ∈ (chain.run steps).command.assigned, name ∈ table.columnNames) ∧
      (chain.run steps).command.operation.model.read (chain.run steps).command.toValue =
        .ok (chain.run steps).command := by
  obtain ⟨rfl, hfor, hassigned⟩ := Start.chain_isFor h
  obtain ⟨-, hrun⟩ := run_of_change Command.IsFor Change.isFor steps chain hfor
  refine ⟨hrun, fun hnamed => ?_, Command.read_toValue _⟩
  obtain ⟨-, hkept⟩ := run_of_change (fun _ c => c.assigned = chain.command.assigned)
    (fun hchange hc => hchange.assigned.trans hc) steps chain rfl
  rw [hkept]
  exact hassigned hnamed

/-- A table of people with a column for initials. -/
def people : Table DataType :=
  ⟨"people", "People", [⟨"id", 1, false, .number⟩, ⟨"ab", 2, true, .string⟩]⟩

/-- Calls on an update, of which every second one fails. -/
def mixedCalls : List Step :=
  [.condition (.text "id") (.text ">=") (some (.int 7)),
    .condition (.text "nope") (.int 1) none,
    .condition (.text "ab") (.text "is null") none,
    .condition (.text "ab") (.text "~") (some (.int 1)),
    .returning (.tuple [.text "id"]), .limit (.int 1)]

theorem run_mixedCalls : ∃ chain, Chain.update people (.record [("ab", .text "x")]) = .ok chain ∧
    (chain.run mixedCalls).command.IsFor people ∧
    (∀ name ∈ (chain.run mixedCalls).command.assigned, name ∈ people.columnNames) ∧
    (chain.run mixedCalls).command.operation.model.read (chain.run mixedCalls).command.toValue =
      .ok (chain.run mixedCalls).command ∧
    (chain.run mixedCalls).command = .update ⟨"people", [("ab", .text "x")],
      some [.binary "id" .greaterOrEqual (.int 7), .unary "ab" .isNull], some ["id"]⟩ := by
  have hstart : (Start.update (.record [("ab", .text "x")])).chain people =
      .ok ⟨people, .update ⟨"people", [("ab", .text "x")], none, none⟩⟩ := rfl
  obtain ⟨hfor, hassigned, hread⟩ := run_isFor hstart mixedCalls
  exact ⟨_, hstart, hfor, hassigned trivial, hread, rfl⟩

/-- A list of names is taken for a row if they are of two letters; each is taken apart then. -/
theorem update_takenApart : ∃ chain, (Start.update (.list [.text "ab"])).chain people = .ok chain ∧
    (chain.run []).command.assigned = ["a"] ∧ "a" ∉ people.columnNames :=
  ⟨⟨people, .update ⟨"people", [("a", .text "b")], none, none⟩⟩, rfl, rfl, by decide⟩

end Chain
end SchemaClient
