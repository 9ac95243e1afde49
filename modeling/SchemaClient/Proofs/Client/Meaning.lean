import SchemaClient.Client.Directory
import SchemaClient.Proofs.Client.FailedCalls
import SchemaClient.Proofs.Client.Parts
import SchemaClient.Transport.Record

/-!
# What a chain means

A chain means what those of its calls say that do not fail. Conditions are put one after the other;
of everything else the last call counts. Nothing reaches the transport before a chain is ended, and
then it is the command as it stands.
-/
namespace SchemaClient

namespace Chain

variable {chain : Chain} {c d : Command} {kind : Kind} {step : Step} {result : Except Failure Unit}

/-- The calls that do not fail where they are made. -/
def succeeded (chain : Chain) : List Step → List Step
  | [] => []
  | step :: rest =>
    match (chain.apply step).2 with
    | .ok () => step :: succeeded (chain.apply step).1 rest
    | .error _ => succeeded (chain.apply step).1 rest

namespace Step

/-- The condition that a call asks for. -/
def condition? : Step → Option Condition
  | condition (.text name) operator value => (Condition.ofArguments name operator value).toOption
  | _ => none

/-- What a call sets the limit to, which may be none. -/
def limit? : Step → Option (Option Nat)
  | limit n => (countField "limit" n).toOption
  | _ => none

def offset? : Step → Option (Option Nat)
  | offset n => (countField "offset" n).toOption
  | _ => none

def orderBy? (table : Table DataType) : Step → Option (Option OrderBy)
  | order columns direction => (ordering table columns direction).toOption.map some
  | _ => none

def returning? (table : Table DataType) : Step → Option (Option (List String))
  | returning columns => (returningColumns table columns).toOption.map some
  | _ => none

end Step

/-- A value is what the last call of a kind sets; without such a call it is absent. -/
def LastSets {α : Type} (set? : Step → Option (Option α)) (kind : Kind) (calls : List Step)
    (value : Option α) : Prop :=
  match (ofKind kind calls).getLast? with
  | none => value = none
  | some step => set? step = some value

/-- In the part that calls of a kind put in, a chain has what these calls ask for: a condition for
each of them, in their order, and of everything else what the last call sets. -/
def Means (chain : Chain) (calls : List Step) : Kind → Prop
  | .condition =>
    (chain.command.parts.conditions.getD []).map some =
      (ofKind .condition calls).map Step.condition?
  | .limit => LastSets Step.limit? .limit calls chain.command.parts.limit
  | .offset => LastSets Step.offset? .offset calls chain.command.parts.offset
  | .order => LastSets (Step.orderBy? chain.table) .order calls chain.command.parts.orderBy
  | .returning =>
    LastSets (Step.returning? chain.table) .returning calls chain.command.parts.returning

variable {calls : List Step}

theorem ofKind_own (h : step.kind = kind) :
    ofKind kind (calls ++ [step]) = ofKind kind calls ++ [step] := by
  simp [ofKind, h]

theorem ofKind_other (h : kind ≠ step.kind) : ofKind kind (calls ++ [step]) = ofKind kind calls := by
  simp [ofKind, Ne.symm h]

theorem lastSets_append {α : Type} {set? : Step → Option (Option α)} {value : Option α}
    (hkind : step.kind = kind) (h : set? step = some value) :
    LastSets set? kind (calls ++ [step]) value := by
  rw [LastSets, ofKind_own hkind, List.getLast?_concat]
  exact h

/-- Calls of other kinds have no say. -/
theorem means_append (hkind : kind ≠ step.kind) (h : chain.Means calls kind) :
    chain.Means (calls ++ [step]) kind := by
  have hcalls : ofKind kind (calls ++ [step]) = ofKind kind calls := ofKind_other hkind
  cases kind <;> simpa only [Means, LastSets, hcalls] using h

theorem means_of_agree (h : Agree c d kind) {table : Table DataType}
    (hmeans : Means ⟨table, d⟩ calls kind) : Means ⟨table, c⟩ calls kind := by
  cases kind <;> rw [Agree] at h <;> simpa only [Means, h] using hmeans

/-- A call that does not fail is added to the meaning. -/
theorem Effect.means (h : chain.Effect step c (.ok ())) (hmeans : ∀ kind, chain.Means calls kind)
    (kind : Kind) : Means ⟨chain.table, c⟩ (calls ++ [step]) kind := by
  by_cases hkind : kind = step.kind
  · subst hkind
    cases h with
    | condition hbefore hname hcondition =>
      have hconditions := hmeans .condition
      rw [Means, parts_conditions hbefore] at hconditions
      rw [Step.kind, Means, parts_withConditions hbefore, ofKind_own, List.map_append, ← hconditions]
      · simp [Step.condition?, hcondition, Except.toOption]
      · rfl
    | limit hselect hread =>
      rw [Step.kind, Means]
      exact lastSets_append rfl (congrArg Except.toOption hread)
    | offset hselect hread =>
      rw [Step.kind, Means]
      exact lastSets_append rfl (congrArg Except.toOption hread)
    | order hselect hread =>
      rw [Step.kind, Means]
      exact lastSets_append rfl (congrArg (·.toOption.map some) hread)
    | returning hread hreturning =>
      rw [Step.kind, Means, parts_withReturning hreturning]
      exact lastSets_append rfl (congrArg (·.toOption.map some) hread)
  · exact means_append hkind (means_of_agree (h.frame.2 kind hkind) (hmeans kind))

/-- A call that fails has no meaning. -/
theorem Effect.means_failed {failure : Failure} (h : chain.Effect step c (.error failure))
    (hmeans : ∀ kind, chain.Means calls kind) (kind : Kind) :
    Means ⟨chain.table, c⟩ calls kind := by
  cases h with
  | failed => exact hmeans kind
  | opened _ hopens =>
    by_cases hkind : kind = .condition
    · subst hkind
      have hconditions := hmeans .condition
      rw [Means, parts_conditions hopens.absent] at hconditions
      rw [Means, Chain.opened, parts_withConditions hopens.absent]
      exact hconditions
    · exact means_of_agree (agree_withConditions hopens.absent [] hkind) (hmeans kind)

/-- What a chain means is added to by the calls that succeed. -/
theorem means_run (steps : List Step) (h : ∀ kind, chain.Means calls kind) (kind : Kind) :
    (chain.run steps).Means (calls ++ chain.succeeded steps) kind := by
  induction steps generalizing chain calls with
  | nil => simpa [succeeded, run] using h kind
  | cons step rest ih =>
    obtain ⟨after, result, happly, heffect⟩ := acts_apply chain step
    rw [run_cons, succeeded, happly]
    cases result with
    | ok _ =>
      have hrest := ih (heffect.means h)
      rwa [List.append_assoc, List.singleton_append] at hrest
    | error failure => exact ih (heffect.means_failed h)

namespace Start

def operation : Start → Operation
  | select _ => .select
  | insert .. => .insert
  | update _ => .update
  | delete => .delete

/-- A command that a chain of an operation can be started with. -/
def Fresh (operation : Operation) (c : Command) : Prop :=
  c.operation = operation ∧ c.parts = .empty

theorem fresh_rows {table : Table DataType} {columns : List Value}
    {rows : Validation.Validated (List Record)} {chain : Chain}
    (h : (do
      let names ← table.checkColumns columns
      let command ← withRows .insert rows fun rows => .insert ⟨table.name, names, rows, none⟩
      pure (⟨table, command⟩ : Chain)) = .ok chain) : Fresh .insert chain.command := by
  obtain ⟨names, -, h⟩ := Success.bind_eq_ok.mp h
  obtain ⟨command, hcommand, h⟩ := Success.bind_eq_ok.mp h
  obtain ⟨rows, -, rfl⟩ := withRows_eq_ok hcommand
  cases h
  exact ⟨rfl, rfl⟩

theorem fresh_select {table : Table DataType} {columns : Value} {chain : Chain}
    (h : Chain.select table columns = .ok chain) : Fresh .select chain.command := by
  unfold Chain.select at h
  split at h
  · cases h
    exact ⟨rfl, rfl⟩
  · obtain ⟨selected, -, h⟩ := Success.bind_eq_ok.mp h
    cases h
    exact ⟨rfl, rfl⟩

theorem fresh_insert {table : Table DataType} {rowOrColumns rows : Value} {chain : Chain}
    (h : Chain.insert table rowOrColumns rows = .ok chain) : Fresh .insert chain.command := by
  unfold Chain.insert at h
  split at h
  · obtain ⟨row, -, h⟩ := Success.bind_eq_ok.mp h
    obtain ⟨_, -, h⟩ := Success.bind_eq_ok.mp h
    exact fresh_rows h
  · cases h
  · obtain ⟨columns, -, h⟩ := Success.bind_eq_ok.mp h
    obtain ⟨mappings, -, h⟩ := Success.bind_eq_ok.mp h
    obtain ⟨_, -, h⟩ := Success.bind_eq_ok.mp h
    exact fresh_rows h

theorem fresh_update {table : Table DataType} {row : Value} {chain : Chain}
    (h : Chain.update table row = .ok chain) : Fresh .update chain.command := by
  unfold Chain.update at h
  obtain ⟨names, -, h⟩ := Success.bind_eq_ok.mp h
  obtain ⟨mapping, -, h⟩ := Success.bind_eq_ok.mp h
  obtain ⟨command, hcommand, h⟩ := Success.bind_eq_ok.mp h
  obtain ⟨values, -, rfl⟩ := withRows_eq_ok hcommand
  cases h
  exact ⟨rfl, rfl⟩

/-- A chain that no call was made on has none of the parts that calls put in. -/
theorem chain_fresh {start : Start} {table : Table DataType} (h : start.chain table = .ok chain) :
    Fresh start.operation chain.command := by
  cases start with
  | select columns => exact fresh_select h
  | insert rowOrColumns rows => exact fresh_insert h
  | update row => exact fresh_update h
  | delete =>
    cases h
    exact ⟨rfl, rfl⟩

end Start

theorem means_nil (h : chain.command.parts = .empty) (kind : Kind) : chain.Means [] kind := by
  cases kind <;> rw [Means, h] <;> rfl

/-- What is done with a chain: a call on it, or the call of a name that ends it, if it has that. -/
inductive Turn where
  | call (step : Step)
  | finish (name : String)

def Turn.step? : Turn → Option Step
  | call step => some step
  | finish _ => none

/-- What a chain is for the transport in turns that follow some calls: at each end the command that
the calls up to there make, or the failure to have such an end. -/
def requests (chain : Chain) (done : List Step) : List Turn → List (Except Failure Command)
  | [] => []
  | .call step :: rest => requests chain (done ++ [step]) rest
  | .finish name :: rest =>
    (if lastCall chain.command.operation = name then .ok (chain.run done).command
      else .error (chain.noSuchCall name)) :: requests chain done rest

end Chain

namespace Client

open Chain (Turn)

variable {m : Type → Type} [Monad m]

/-- The chain after turns, and what its ends gave. -/
def session (client : Client m) (chain : Chain) :
    List Turn → m (Chain × List (Except Failure Value))
  | [] => pure (chain, [])
  | .call step :: rest => session client (chain.apply step).1 rest
  | .finish name :: rest => do
    let result ← client.finish chain name
    let (after, results) ← session client chain rest
    pure (after, result :: results)

/-- Hands a command to the transport. -/
def request (client : Client m) : Except Failure Command → m (Except Failure Value)
  | .ok command => client.transport.run command
  | .error failure => pure (.error failure)

/-- The effects of a session are those of the transport on the requests, and its chain is that of
the calls alone. -/
theorem session_eq [LawfulMonad m] (client : Client m) (chain : Chain) (done : List Chain.Step)
    (turns : List Turn) : client.session (chain.run done) turns =
      (fun results => (chain.run (done ++ turns.filterMap Turn.step?), results)) <$>
        (chain.requests done turns).mapM client.request := by
  induction turns generalizing done with
  | nil => simp [session, Chain.requests]
  | cons turn rest ih =>
    cases turn with
    | call step =>
      have hafter : ((chain.run done).apply step).1 = chain.run (done ++ [step]) :=
        (Chain.run_append chain done [step]).symm
      rw [session, hafter, ih, Chain.requests]
      simp [Turn.step?]
    | finish name =>
      have hoperation : (chain.run done).command.operation = chain.command.operation :=
        (chain.run_sameStart done).operation
      have hfinish : client.finish (chain.run done) name = client.request
          (if Chain.lastCall chain.command.operation = name then .ok (chain.run done).command
            else .error (chain.noSuchCall name)) := by
        rw [finish, Chain.noSuchCall, Chain.noSuchCall, hoperation]
        split <;> rfl
      rw [session, hfinish, ih, Chain.requests, List.mapM_cons]
      simp [Turn.step?, List.filterMap_cons]

end Client

namespace Chain

/-- Calls ask the transport for nothing. -/
theorem requests_calls (chain : Chain) (done steps : List Step) :
    chain.requests done (steps.map .call) = [] := by
  induction steps generalizing done with
  | nil => rfl
  | cons step rest ih => exact ih (done ++ [step])

/-- Whatever the transport is asked to carry out is a command of the chain's own operation. -/
theorem operation_of_mem_requests {chain : Chain} {c : Command} {done : List Step}
    {turns : List Turn} (h : .ok c ∈ chain.requests done turns) :
    c.operation = chain.command.operation := by
  induction turns generalizing done with
  | nil => cases h
  | cons turn rest ih =>
    cases turn with
    | call step => exact ih h
    | finish name =>
      rcases List.mem_cons.mp h with hfirst | hrest
      · split at hfirst
        · cases hfirst
          exact (chain.run_sameStart done).operation
        · cases hfirst
      · exact ih hrest

/-- **A chain means what its calls say.** Of a chain that was started in any way, whatever calls
were made on it: its conditions are those that the calls that succeeded ask for, in order, and the
limit, the offset, the ordering and the columns to return are what the last of these calls set; the
rest of the command is as it was at the start. How a call ends does not depend on those before it,
and two runs of calls with the same calls of each kind in the same order make the same chain. What
is done with a client's chain has the effects of carrying out the command of each end, as the calls
before it made it and with the operation that the chain was started for, and no others: calls alone
have none, and the ends leave the chain as it is. -/
theorem run_means {m : Type → Type} [Monad m] [LawfulMonad m] (client : Client m) {start : Start}
    {table : Table DataType} {chain : Chain} (h : start.chain table = .ok chain) :
    (∀ steps kind, (chain.run steps).Means (chain.succeeded steps) kind) ∧
      (∀ steps, (chain.run steps).table = table ∧ (chain.run steps).command.bare = chain.command) ∧
      (∀ before step, ((chain.run before).apply step).2 = (chain.apply step).2) ∧
      (∀ steps others : List Step,
        (∀ kind, ofKind kind steps = ofKind kind others) → chain.run steps = chain.run others) ∧
      (∀ turns, client.session chain turns =
        (fun results => (chain.run (turns.filterMap Turn.step?), results)) <$>
          (chain.requests [] turns).mapM client.request) ∧
      (∀ steps : List Step, chain.requests [] (steps.map .call) = []) ∧
      ∀ turns c, .ok c ∈ chain.requests [] turns → c.operation = start.operation := by
  obtain ⟨hoperation, hparts⟩ := Start.chain_fresh h
  have htable : chain.table = table := (Start.chain_isFor h).1
  have hbare : chain.command.bare = chain.command := Command.bare_of_parts hparts
  refine ⟨fun steps kind => ?_, fun steps => ?_, apply_run chain,
    fun steps others hsame => run_interleaved hsame, fun turns => client.session_eq chain [] turns,
    requests_calls chain [], fun turns c hc => (operation_of_mem_requests hc).trans hoperation⟩
  · have hmeans := means_run steps (means_nil hparts) kind
    rwa [List.nil_append] at hmeans
  · have hstart := run_sameStart chain steps
    exact ⟨hstart.table.trans htable, hstart.bare.trans hbare⟩

/-- A selection that some calls fail on and that is ended three times, once by a name that it does
not have. -/
def interrupted : List Turn :=
  [.call (.limit (.text "all")), .call (.condition (.text "id") (.text "~") (some (.int 1))),
    .call (.limit (.int 5)), .call (.condition (.text "ab") (.text "x") none),
    .call (.order (.list [.text "nope"]) (.text "asc")), .finish "execute", .finish "fetch",
    .call (.limit (.int 7)), .call (.condition (.text "id") (.text ">=") (some (.int 3))),
    .finish "fetch"]

/-- What is asked for at the ends that there are. -/
def firstRequest : Command :=
  .select ⟨"people", none, some [.binary "ab" .equal (.text "x")], some 5, none, none⟩

def lastRequest : Command :=
  .select ⟨"people", none,
    some [.binary "ab" .equal (.text "x"), .binary "id" .greaterOrEqual (.int 3)], some 7, none,
    none⟩

def recorder : Client Recorded :=
  ⟨⟨[], [], [people], []⟩, .recording fun _ => .ok (.list [])⟩

theorem run_means_interrupted :
    (Start.select (.text allColumns)).chain people = .ok untouched ∧
      (∀ kind, (untouched.run (interrupted.filterMap Turn.step?)).Means
        [.limit (.int 5), .condition (.text "ab") (.text "x") none, .limit (.int 7),
          .condition (.text "id") (.text ">=") (some (.int 3))] kind) ∧
      (recorder.session untouched interrupted).outcome =
        ((⟨people, lastRequest⟩,
          [.error (.unknownCall "SelectBuilder" "execute"), .ok (.list []), .ok (.list [])]),
          [.command firstRequest, .command lastRequest]) := by
  have hstart : (Start.select (.text allColumns)).chain people = .ok untouched := rfl
  obtain ⟨hmeans, -, -, -, hsession, -⟩ := run_means recorder hstart
  refine ⟨hstart, hmeans (interrupted.filterMap Turn.step?), ?_⟩
  rw [hsession]
  rfl

end Chain
end SchemaClient
