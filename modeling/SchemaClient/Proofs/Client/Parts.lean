import SchemaClient.Proofs.Client.Effects

/-!
# Parts of a chain's command

Calls of each kind have a part of the command to themselves, and whether a call fails depends on how
the chain was started and not on the calls before it. Calls of different kinds can therefore change
places.
-/
namespace SchemaClient

/-- What calls can put into a command. -/
@[ext] structure Parts where
  conditions : Option (List Condition)
  limit : Option Nat
  offset : Option Nat
  orderBy : Option OrderBy
  returning : Option (List String)

def Parts.empty : Parts := ⟨none, none, none, none, none⟩

namespace Command

/-- The parts of a command. Those that it cannot have are absent. -/
def parts : Command → Parts
  | select q => ⟨q.conditions, q.limit, q.offset, q.orderBy, none⟩
  | insert c => ⟨none, none, none, none, c.returning⟩
  | update c => ⟨c.conditions, none, none, none, c.returning⟩
  | delete c => ⟨c.conditions, none, none, none, c.returning⟩
  | call _ => .empty

/-- The command with other parts, as far as it can have them. -/
def fill (p : Parts) : Command → Command
  | select q => .select ⟨q.table, q.selected, p.conditions, p.limit, p.offset, p.orderBy⟩
  | insert c => .insert ⟨c.table, c.columns, c.rows, p.returning⟩
  | update c => .update ⟨c.table, c.values, p.conditions, p.returning⟩
  | delete c => .delete ⟨c.table, p.conditions, p.returning⟩
  | call c => .call c

/-- The command without anything that calls can put in. -/
def bare (c : Command) : Command := c.fill .empty

variable {c d : Command}

theorem fill_parts (c : Command) : c.bare.fill c.parts = c := by cases c <;> rfl

theorem operation_bare (c : Command) : c.bare.operation = c.operation := by cases c <;> rfl

theorem operation_of_bare (h : c.bare = d.bare) : c.operation = d.operation := by
  rw [← operation_bare c, h, operation_bare]

theorem bare_bare (c : Command) : c.bare.bare = c.bare := by cases c <;> rfl

theorem bare_of_parts (h : c.parts = .empty) : c.bare = c := by
  have hfill := fill_parts c
  rw [h] at hfill
  exact (bare_bare c).symm.trans hfill

/-- What a command is without its parts and the parts make up the command. -/
theorem eq_of_parts (hbare : c.bare = d.bare) (hparts : c.parts = d.parts) : c = d := by
  rw [← fill_parts c, ← fill_parts d, hbare, hparts]

end Command

namespace Chain

inductive Kind where
  | condition
  | limit
  | offset
  | order
  | returning
  deriving DecidableEq

def Step.kind : Step → Kind
  | condition .. => .condition
  | limit _ => .limit
  | offset _ => .offset
  | order .. => .order
  | returning _ => .returning

/-- The calls of a kind, in their order. -/
def ofKind (kind : Kind) (calls : List Step) : List Step := calls.filter (·.kind = kind)

/-- Two commands have the same in the part that calls of a kind put in. -/
def Agree (c d : Command) : Kind → Prop
  | .condition => c.parts.conditions = d.parts.conditions
  | .limit => c.parts.limit = d.parts.limit
  | .offset => c.parts.offset = d.parts.offset
  | .order => c.parts.orderBy = d.parts.orderBy
  | .returning => c.parts.returning = d.parts.returning

variable {c d e : Command} {kind : Kind}

theorem Agree.refl (c : Command) (kind : Kind) : Agree c c kind := by cases kind <;> rfl

theorem Agree.symm (h : Agree c d kind) : Agree d c kind := by cases kind <;> exact Eq.symm h

theorem Agree.trans (hcd : Agree c d kind) (hde : Agree d e kind) : Agree c e kind := by
  cases kind <;> exact Eq.trans hcd hde

theorem parts_of_agree (h : ∀ kind, Agree c d kind) : c.parts = d.parts :=
  Parts.ext (h .condition) (h .limit) (h .offset) (h .order) (h .returning)

/-- Selections, updates and deletions have a list of conditions, absent or not. -/
theorem conditions?_eq (c : Command) : conditions? c =
    if c.operation = .insert ∨ c.operation = .call then none else some c.parts.conditions := by
  cases c <;> rfl

theorem parts_conditions {before : Option (List Condition)} (h : conditions? c = some before) :
    c.parts.conditions = before := by
  cases c with
  | insert c => cases h
  | call c => cases h
  | _ => cases h; rfl

theorem parts_withConditions {before : Option (List Condition)} (h : conditions? c = some before)
    (conditions : List Condition) :
    (withConditions conditions c).parts = { c.parts with conditions := some conditions } := by
  cases c with
  | insert c => cases h
  | call c => cases h
  | _ => rfl

theorem bare_withConditions (conditions : List Condition) (c : Command) :
    (withConditions conditions c).bare = c.bare := by
  cases c <;> rfl

theorem parts_withReturning {names : List String} (h : withReturning names c = some d) :
    d.parts = { c.parts with returning := some names } := by
  cases c with
  | select q => cases h
  | call c => cases h
  | _ => cases h; rfl

theorem bare_withReturning {names : List String} (h : withReturning names c = some d) :
    d.bare = c.bare := by
  cases c with
  | select q => cases h
  | call c => cases h
  | _ => cases h; rfl

theorem agree_withConditions {before : Option (List Condition)} (h : conditions? c = some before)
    (conditions : List Condition) (hkind : kind ≠ .condition) :
    Agree (withConditions conditions c) c kind := by
  have hparts := parts_withConditions h conditions
  cases kind with
  | condition => exact absurd rfl hkind
  | _ => rw [Agree, hparts]

variable {chain other : Chain} {step : Step} {result : Except Failure Unit}

/-- A call leaves alone what the chain was started with and the parts of other kinds. -/
theorem Effect.frame (h : chain.Effect step c result) :
    c.bare = chain.command.bare ∧ ∀ kind ≠ step.kind, Agree c chain.command kind := by
  cases h with
  | failed => exact ⟨rfl, fun kind _ => .refl _ kind⟩
  | opened _ hopens =>
    obtain ⟨name, operator, value, rfl, -⟩ := hopens.refused
    exact ⟨bare_withConditions _ _, fun kind => agree_withConditions hopens.absent []⟩
  | condition hbefore =>
    exact ⟨bare_withConditions _ _, fun kind => agree_withConditions hbefore _⟩
  | limit hselect | offset hselect | order hselect =>
    rw [hselect]
    refine ⟨rfl, fun kind hkind => ?_⟩
    cases kind <;> first | rfl | exact absurd rfl hkind
  | returning _ hreturning =>
    have hparts := parts_withReturning hreturning
    refine ⟨bare_withReturning hreturning, fun kind hkind => ?_⟩
    cases kind with
    | returning => exact absurd rfl hkind
    | _ => rw [Agree, hparts]

/-- Two chains are for one table and were started alike. -/
structure SameStart (chain other : Chain) : Prop where
  table : chain.table = other.table
  bare : chain.command.bare = other.command.bare

namespace SameStart

variable {third : Chain}

theorem refl (chain : Chain) : SameStart chain chain := ⟨rfl, rfl⟩

theorem symm (h : SameStart chain other) : SameStart other chain := ⟨h.table.symm, h.bare.symm⟩

theorem trans (h : SameStart chain other) (hother : SameStart other third) :
    SameStart chain third :=
  ⟨h.table.trans hother.table, h.bare.trans hother.bare⟩

theorem operation (h : SameStart chain other) :
    chain.command.operation = other.command.operation :=
  Command.operation_of_bare h.bare

end SameStart

/-- What a call leaves of a chain: how it was started, and the parts that calls of other kinds put
in. -/
theorem apply_frame (chain : Chain) (step : Step) :
    SameStart (chain.apply step).1 chain ∧
      ∀ kind ≠ step.kind, Agree (chain.apply step).1.command chain.command kind := by
  obtain ⟨after, result, happly, heffect⟩ := acts_apply chain step
  rw [happly]
  exact ⟨⟨rfl, heffect.frame.1⟩, heffect.frame.2⟩

/-- A call ends in the same way on two chains, and if they had the same in the part of a kind they
still have. -/
structure EndsAlike (chain other : Chain) (kind : Kind)
    (after after' : Chain × Except Failure Unit) : Prop where
  result : after.2 = after'.2
  part : Agree chain.command other.command kind → Agree after.1.command after'.1.command kind

theorem endsAlike_failed (failure : Failure) :
    EndsAlike chain other kind (chain, .error failure) (other, .error failure) := ⟨rfl, id⟩

theorem addCondition_congr {column operator : Value} {value : Option Value}
    (h : SameStart chain other) :
    EndsAlike chain other .condition (chain.addCondition column operator value)
      (other.addCondition column operator value) := by
  have hchain := conditions?_eq chain.command
  have hother := conditions?_eq other.command
  rw [h.operation] at hchain
  rw [addCondition, addCondition, noSuchCall, noSuchCall, h.table, h.operation]
  split at hchain
  · next hnone =>
    rw [if_pos hnone] at hother
    rw [hchain, hother]
    exact endsAlike_failed _
  · next hsome =>
    rw [if_neg hsome] at hother
    rw [hchain, hother]
    cases other.table.checkColumn column with
    | error failure => exact endsAlike_failed failure
    | ok name =>
      simp only
      cases Condition.ofArguments name operator value with
      | error p =>
        refine ⟨rfl, fun hagree => ?_⟩
        rw [Agree, parts_withConditions hchain, parts_withConditions hother, hagree]
      | ok condition =>
        refine ⟨rfl, fun hagree => ?_⟩
        rw [Agree, parts_withConditions hchain, parts_withConditions hother, hagree]

theorem exists_select (h : c.operation = .select) : ∃ q, c = .select q := by
  cases c with
  | select q => exact ⟨q, rfl⟩
  | _ => cases h

/-- Only selections have fields of a selection. -/
theorem setSelection_other {α : Type} {name : String} {result : Except Failure α}
    {set : α → Select → Select} (h : chain.command.operation ≠ .select) :
    chain.setSelection name result set = (chain, .error (chain.noSuchCall name)) := by
  rw [setSelection]
  cases hcommand : chain.command with
  | select q =>
    rw [hcommand] at h
    exact absurd rfl h
  | _ => rfl

theorem setSelection_congr {α : Type} (name : String) {result : Except Failure α}
    {set : α → Select → Select} (hset : ∀ a q r, Agree (.select (set a q)) (.select (set a r)) kind)
    (h : SameStart chain other) :
    EndsAlike chain other kind (chain.setSelection name result set)
      (other.setSelection name result set) := by
  by_cases hselect : other.command.operation = .select
  · obtain ⟨q, hq⟩ := exists_select (h.operation.trans hselect)
    obtain ⟨r, hr⟩ := exists_select hselect
    rw [setSelection, setSelection, hq, hr]
    cases result with
    | error failure => exact endsAlike_failed failure
    | ok a => exact ⟨rfl, fun _ => hset a q r⟩
  · rw [setSelection_other hselect, setSelection_other (h.operation ▸ hselect), noSuchCall,
      noSuchCall, h.operation]
    exact endsAlike_failed _

/-- Everything but selections and calls of routines can return columns. -/
theorem apply_returning (chain : Chain) (columns : Value) : chain.apply (.returning columns) =
    if chain.command.operation = .select ∨ chain.command.operation = .call then
      (chain, .error (chain.noSuchCall "returning"))
    else
      match returningColumns chain.table columns with
      | .error failure => (chain, .error failure)
      | .ok names =>
        (⟨chain.table, chain.command.fill { chain.command.parts with returning := some names }⟩,
          .ok ()) := by
  obtain ⟨table, c⟩ := chain
  rw [apply]
  cases c <;> cases returningColumns table columns <;> rfl

theorem returning_fill (h : ¬ (c.operation = .select ∨ c.operation = .call)) (p : Parts) :
    (c.fill p).parts.returning = p.returning := by
  cases c with
  | select q => exact absurd (.inl rfl) h
  | call c => exact absurd (.inr rfl) h
  | _ => rfl

theorem returning_congr {columns : Value} (h : SameStart chain other) :
    EndsAlike chain other .returning (chain.apply (.returning columns))
      (other.apply (.returning columns)) := by
  rw [apply_returning, apply_returning, noSuchCall, noSuchCall, h.table, h.operation]
  split
  · exact endsAlike_failed _
  · next hreturns =>
    cases returningColumns other.table columns with
    | error failure => exact endsAlike_failed failure
    | ok names =>
      refine ⟨rfl, fun _ => ?_⟩
      rw [Agree, returning_fill hreturns, returning_fill (h.operation ▸ hreturns)]

/-- How a call ends depends only on how the chain was started, and what it puts in depends besides
only on the part of its kind. -/
theorem apply_congr (h : SameStart chain other) (step : Step) :
    EndsAlike chain other step.kind (chain.apply step) (other.apply step) := by
  cases step with
  | condition column operator value => exact addCondition_congr h
  | limit n => exact setSelection_congr "limit" (fun _ _ _ => rfl) h
  | offset n => exact setSelection_congr "offset" (fun _ _ _ => rfl) h
  | order columns direction =>
    rw [apply, apply, h.table]
    exact setSelection_congr "order_by" (fun _ _ _ => rfl) h
  | returning columns => exact returning_congr h

theorem run_cons (chain : Chain) (step : Step) (rest : List Step) :
    chain.run (step :: rest) = (chain.apply step).1.run rest := rfl

theorem run_append (chain : Chain) (steps rest : List Step) :
    chain.run (steps ++ rest) = (chain.run steps).run rest := List.foldl_append

/-- Calls leave alone how a chain was started. -/
theorem run_sameStart (chain : Chain) (steps : List Step) : SameStart (chain.run steps) chain := by
  induction steps generalizing chain with
  | nil => exact .refl chain
  | cons step rest ih => exact (ih _).trans (apply_frame chain step).1

/-- How a call ends does not depend on the calls before it. -/
theorem apply_run (chain : Chain) (before : List Step) (step : Step) :
    ((chain.run before).apply step).2 = (chain.apply step).2 :=
  (apply_congr (run_sameStart chain before) step).result

/-- What is put in by the calls of one kind is the same without the other calls. -/
theorem run_agree (kind : Kind) (steps : List Step) (h : SameStart chain other)
    (hagree : Agree chain.command other.command kind) :
    Agree (chain.run steps).command (other.run (ofKind kind steps)).command kind := by
  induction steps generalizing chain other with
  | nil => exact hagree
  | cons step rest ih =>
    obtain ⟨hstart, hframe⟩ := apply_frame chain step
    rw [run_cons, ofKind, List.filter_cons]
    by_cases hkind : step.kind = kind
    · subst hkind
      have hother := (apply_frame other step).1
      rw [if_pos (decide_eq_true rfl), run_cons]
      exact ih (hstart.trans (h.trans hother.symm)) ((apply_congr h step).part hagree)
    · rw [if_neg (by simpa using hkind)]
      exact ih (hstart.trans h) ((hframe kind (Ne.symm hkind)).trans hagree)

/-- Calls of different kinds can change places: what counts is the order of those of each kind. -/
theorem run_interleaved {steps others : List Step}
    (h : ∀ kind, ofKind kind steps = ofKind kind others) : chain.run steps = chain.run others := by
  have hstart : SameStart (chain.run steps) (chain.run others) :=
    (run_sameStart chain steps).trans (run_sameStart chain others).symm
  have hagree : ∀ kind, Agree (chain.run steps).command (chain.run others).command kind :=
    fun kind => by
      have hsteps := run_agree kind steps (.refl chain) (.refl chain.command kind)
      have hothers := run_agree kind others (.refl chain) (.refl chain.command kind)
      rw [h kind] at hsteps
      exact hsteps.trans hothers.symm
  have hcommand := Command.eq_of_parts hstart.bare (parts_of_agree hagree)
  exact congrArg₂ Chain.mk hstart.table hcommand

end Chain
end SchemaClient
