import SchemaClient.Proofs.Client.Effects

/-!
# Failed calls

What a call that fails leaves behind. A chain is as it was, unless the call was the first one to
give a value and no operator for it: the list of conditions was absent then and is there now, with
nothing in it. The statement that the command stands for does not tell the two apart.
-/
namespace SchemaClient.Chain

variable {chain : Chain} {c : Command}

theorem conditions?_withConditions {before : Option (List Condition)}
    (h : conditions? c = some before) (conditions : List Condition) :
    conditions? (withConditions conditions c) = some (some conditions) := by
  cases c with
  | insert c => cases h
  | call c => cases h
  | _ => rfl

/-- An absent list of conditions and an empty one stand for the same statement. -/
theorem statement_withConditions_nil (h : conditions? c = some none) :
    (withConditions [] c).statement = c.statement := by
  cases c with
  | insert c => cases h
  | call c => cases h
  | select q => obtain ⟨_, _, _, _, _, _⟩ := q; cases h; rfl
  | update c => obtain ⟨_, _, _, _⟩ := c; cases h; rfl
  | delete c => obtain ⟨_, _, _⟩ := c; cases h; rfl

theorem opened_ne (h : conditions? chain.command = some none) : chain.opened ≠ chain := by
  intro heq
  have hsame : withConditions [] chain.command = chain.command := congrArg command heq
  have hopened := conditions?_withConditions h []
  rw [hsame, h] at hopened
  cases hopened

variable {failure : Failure}

/-- A call that fails opens the list of conditions or does nothing. -/
theorem apply_failed {step : Step} (h : (chain.apply step).2 = .error failure) :
    (chain.Opens step ∧ (chain.apply step).1 = chain.opened) ∨
      (¬ chain.Opens step ∧ (chain.apply step).1 = chain) := by
  obtain ⟨after, result, happly, heffect⟩ := acts_apply chain step
  rw [happly] at h ⊢
  cases heffect with
  | failed _ hkeeps => exact .inr ⟨hkeeps, rfl⟩
  | opened _ hopens => exact .inl ⟨hopens, rfl⟩
  | _ => cases h

/-- A call that fails leaves a chain as it was if and only if it is not the first one to give a
value without an operator for it. Such a call leaves an empty list of conditions where there was
none. -/
theorem apply_failed_eq_iff {step : Step} (h : (chain.apply step).2 = .error failure) :
    ((chain.apply step).1 = chain ↔ ¬ chain.Opens step) ∧
      (chain.Opens step → (chain.apply step).1 = chain.opened) := by
  rcases apply_failed h with ⟨hopens, hafter⟩ | ⟨hkeeps, hafter⟩
  · have hchanged : (chain.apply step).1 ≠ chain := by
      rw [hafter]
      exact opened_ne hopens.absent
    exact ⟨⟨fun hsame => absurd hsame hchanged, fun hkeeps => absurd hopens hkeeps⟩, fun _ => hafter⟩
  · exact ⟨⟨fun _ => hkeeps, fun _ => hafter⟩, fun hopens => absurd hopens hkeeps⟩

/-- A selection of people that no call was made on. -/
def untouched : Chain := ⟨people, .select ⟨"people", none, none, none, none, none⟩⟩

theorem apply_otherDirection :
    (untouched.apply (.order (.list [.text "id"]) (.text "up"))).2 =
        .error (.problem (.invalidDirection (.text "up"))) ∧
      (untouched.apply (.order (.list [.text "id"]) (.text "up"))).1 = untouched := by
  have hfailed : (untouched.apply (.order (.list [.text "id"]) (.text "up"))).2 =
      .error (.problem (.invalidDirection (.text "up"))) := rfl
  have hkeeps : ¬ untouched.Opens (.order (.list [.text "id"]) (.text "up")) := not_opens nofun
  exact ⟨hfailed, (apply_failed_eq_iff hfailed).1.mpr hkeeps⟩

/-- An operator that is none fails the call and leaves the list that was opened for it. -/
theorem apply_otherOperator : ∃ chain failure,
    (Start.select (.text allColumns)).chain people = .ok chain ∧
      (chain.apply (.condition (.text "id") (.text "~") (some (.int 1)))).2 = .error failure ∧
      conditions? chain.command = some none ∧
      conditions? (chain.apply (.condition (.text "id") (.text "~") (some (.int 1)))).1.command =
        some (some []) :=
  ⟨untouched, .problem (.invalidOperator (.text "~") (BinaryOperator.all.map (·.word))),
    rfl, rfl, rfl, rfl⟩

/-- What is left behind never shows in the statement. -/
theorem statement_of_failed {step : Step} (h : (chain.apply step).2 = .error failure) :
    (chain.apply step).1.command.statement = chain.command.statement := by
  rcases apply_failed h with ⟨hopens, hafter⟩ | ⟨-, hafter⟩
  · rw [hafter]
    exact statement_withConditions_nil hopens.absent
  · rw [hafter]

end SchemaClient.Chain
