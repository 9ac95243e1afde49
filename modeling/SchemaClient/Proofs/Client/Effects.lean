import SchemaClient.Proofs.Client.Chain
import SchemaClient.Proofs.Sql.Layout

/-!
# The effect of a call

All that a call on a chain can do, with what had to hold for it. What holds of chains after calls
follows from here, case by case.
-/
namespace SchemaClient

theorem BinaryOperator.ofWord?_word (o : BinaryOperator) :
    BinaryOperator.ofWord? o.word = some o := by
  cases o <;> rfl

/-- What is refused is a value beside anything but a binary operator, and nothing else. -/
theorem Condition.ofArguments_eq_error {column : String} {operator : Value} {value : Option Value}
    {p : Problem} :
    ofArguments column operator value = .error p ↔
      value.isSome ∧ (∀ o : BinaryOperator, operator ≠ .text o.word) ∧
        p = .invalidOperator operator (BinaryOperator.all.map (·.word)) := by
  cases value with
  | none =>
    refine ⟨fun h => ?_, fun h => Bool.noConfusion h.1⟩
    unfold ofArguments at h
    dsimp only at h
    split at h <;> cases h
  | some v =>
    constructor
    · intro h
      unfold ofArguments at h
      dsimp only at h
      split at h
      · cases h
      · next hword =>
        cases h
        refine ⟨rfl, fun o ho => ?_, rfl⟩
        subst ho
        rw [Option.bind_some, BinaryOperator.ofWord?_word] at hword
        cases hword
    · rintro ⟨-, hother, rfl⟩
      unfold ofArguments
      dsimp only
      split
      · next o hword =>
        obtain ⟨s, hs, hs'⟩ := Option.bind_eq_some_iff.mp hword
        cases operator with
        | text s =>
          cases hs
          have hword := Sql.BinaryOperator.word_of_ofWord? hs'
          exact absurd (congrArg Value.text hword.symm) (hother o)
        | _ => cases hs
      · rfl

namespace Chain

variable {chain : Chain} {c : Command}

theorem withConditions_self {conditions : List Condition}
    (h : conditions? c = some (some conditions)) : withConditions conditions c = c := by
  cases c with
  | insert c => cases h
  | call c => cases h
  | select q => obtain ⟨_, _, _, _, _, _⟩ := q; cases h; rfl
  | update c => obtain ⟨_, _, _, _⟩ := c; cases h; rfl
  | delete c => obtain ⟨_, _, _⟩ := c; cases h; rfl

/-- The chain with a list of conditions that has none. -/
def opened (chain : Chain) : Chain := { chain with command := withConditions [] chain.command }

/-- The call gives a value for a column of the table and no operator that compares with values, and
the chain has no list of conditions as yet. -/
structure Opens (chain : Chain) (step : Step) : Prop where
  absent : conditions? chain.command = some none
  refused : ∃ name operator value, step = .condition (.text name) operator (some value) ∧
    name ∈ chain.table.columnNames ∧ ∀ o : BinaryOperator, operator ≠ .text o.word

/-- What a call makes of a chain's command, and how it ends. -/
inductive Effect (chain : Chain) : Step → Command → Except Failure Unit → Prop where
  | failed {step : Step} (failure : Failure) (h : ¬ chain.Opens step) :
    Effect chain step chain.command (.error failure)
  | opened {step : Step} (failure : Failure) (h : chain.Opens step) :
    Effect chain step chain.opened.command (.error failure)
  | condition {name : String} {operator : Value} {value : Option Value} {condition : Condition}
    {before : Option (List Condition)} (hbefore : conditions? chain.command = some before)
    (hname : name ∈ chain.table.columnNames)
    (hcondition : Condition.ofArguments name operator value = .ok condition) :
    Effect chain (.condition (.text name) operator value)
      (withConditions (before.getD [] ++ [condition]) chain.command) (.ok ())
  | limit {n : Value} {q : Select} {limit : Option Nat} (h : chain.command = .select q)
    (hread : countField "limit" n = .ok limit) :
    Effect chain (.limit n) (.select { q with limit := limit }) (.ok ())
  | offset {n : Value} {q : Select} {offset : Option Nat} (h : chain.command = .select q)
    (hread : countField "offset" n = .ok offset) :
    Effect chain (.offset n) (.select { q with offset := offset }) (.ok ())
  | order {columns direction : Value} {q : Select} {o : OrderBy} (h : chain.command = .select q)
    (hread : ordering chain.table columns direction = .ok o) :
    Effect chain (.order columns direction) (.select { q with orderBy := some o }) (.ok ())
  | returning {columns : Value} {names : List String} {after : Command}
    (hread : returningColumns chain.table columns = .ok names)
    (h : withReturning names chain.command = some after) :
    Effect chain (.returning columns) after (.ok ())

/-- The chain and the result after a call are those of an effect, and the table is as before. -/
def Acts (chain : Chain) (step : Step) (after : Chain × Except Failure Unit) : Prop :=
  ∃ c result, after = (⟨chain.table, c⟩, result) ∧ chain.Effect step c result

theorem acts_failed {step : Step} (failure : Failure) (h : ¬ chain.Opens step) :
    chain.Acts step (chain, .error failure) :=
  ⟨_, _, rfl, .failed failure h⟩

/-- Only a condition can open the list of conditions. -/
theorem not_opens {step : Step}
    (h : ∀ column operator value, step ≠ .condition column operator value) :
    ¬ chain.Opens step := by
  intro hopens
  obtain ⟨name, operator, value, heq, -⟩ := hopens.refused
  exact h _ _ _ heq

theorem acts_addCondition (column operator : Value) (value : Option Value) :
    chain.Acts (.condition column operator value) (chain.addCondition column operator value) := by
  rw [addCondition]
  cases hconditions : conditions? chain.command with
  | none =>
    refine acts_failed _ fun hopens => ?_
    rw [hopens.absent] at hconditions
    cases hconditions
  | some before =>
    cases hcolumn : chain.table.checkColumn column with
    | error failure =>
      refine acts_failed failure fun hopens => ?_
      obtain ⟨name, _, _, heq, hname, -⟩ := hopens.refused
      cases heq
      have hchecked : chain.table.checkColumn (.text name) = .ok name :=
        if_pos (List.contains_iff_mem.mpr hname)
      rw [hchecked] at hcolumn
      cases hcolumn
    | ok name =>
      obtain ⟨rfl, hname⟩ := Table.checkColumn_eq_ok hcolumn
      simp only
      cases hcondition : Condition.ofArguments name operator value with
      | ok condition => exact ⟨_, _, rfl, .condition hconditions hname hcondition⟩
      | error p =>
        obtain ⟨hvalue, hother, -⟩ := Condition.ofArguments_eq_error.mp hcondition
        obtain ⟨v, rfl⟩ := Option.isSome_iff_exists.mp hvalue
        cases before with
        | none =>
          exact ⟨_, _, rfl, .opened _ ⟨hconditions, name, operator, v, rfl, hname, hother⟩⟩
        | some conditions =>
          rw [Option.getD_some, withConditions_self hconditions]
          refine acts_failed _ fun hopens => ?_
          rw [hopens.absent] at hconditions
          cases hconditions

theorem acts_setSelection {α : Type} {step : Step} (name : String) {result : Except Failure α}
    {set : α → Select → Select} (hstep : ¬ chain.Opens step)
    (h : ∀ a q, result = .ok a → chain.command = .select q →
      chain.Effect step (.select (set a q)) (.ok ())) :
    chain.Acts step (chain.setSelection name result set) := by
  rw [setSelection]
  cases hcommand : chain.command with
  | select q =>
    cases result with
    | error failure => exact acts_failed failure hstep
    | ok a => exact ⟨_, _, rfl, h a q rfl hcommand⟩
  | _ => exact acts_failed _ hstep

/-- Every call has one of these effects. -/
theorem acts_apply (chain : Chain) (step : Step) : chain.Acts step (chain.apply step) := by
  cases step with
  | condition column operator value => exact acts_addCondition column operator value
  | limit n =>
    exact acts_setSelection "limit" (not_opens nofun) fun _ _ hread h => .limit h hread
  | offset n =>
    exact acts_setSelection "offset" (not_opens nofun) fun _ _ hread h => .offset h hread
  | order columns direction =>
    exact acts_setSelection "order_by" (not_opens nofun) fun _ _ hread h => .order h hread
  | returning columns =>
    have hstep : ¬ chain.Opens (.returning columns) := not_opens nofun
    rw [apply]
    cases hempty : withReturning [] chain.command with
    | none => exact acts_failed _ hstep
    | some _ =>
      cases hread : returningColumns chain.table columns with
      | error failure => exact acts_failed failure hstep
      | ok names =>
        obtain ⟨after, hafter⟩ := exists_withReturning hempty names
        exact ⟨_, _, rfl, .returning hread (by rw [hafter]; rfl)⟩

end Chain
end SchemaClient
