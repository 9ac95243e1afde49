import SchemaClient.Proofs.Command.Refusals
import SchemaClient.Transport.Database

/-!
# When commands are compiled

A call of a routine is compiled when its block is already open. A call that cannot be compiled would
therefore leave a transaction behind that was taken back, where other commands leave nothing; but
there is no such call, so that a command on a database is the same as compiling it and, if that
succeeds, executing it.
-/
namespace SchemaClient

theorem Command.exists_compile_call (c : Call) (dialect : Sql.Dialect) :
    ∃ compiled, (Command.call c).compile dialect .bound = .ok compiled :=
  Sql.Statement.exists_compile (Call.fault_eq c) dialect

namespace Engine

variable {m : Type → Type} [Monad m] {engine : Engine m} {dialect : Sql.Dialect} {c : Command}

theorem run_of_compile {compiled : Sql.Compiled} (h : c.compile dialect .bound = .ok compiled) :
    (engine.transportIn dialect).run c = engine.execute c compiled := by
  cases c <;> simp only [transportIn, compiling, h, execute]

/-- A command that cannot be compiled is not brought before the database. -/
theorem run_of_refused {failure : Failure} (h : c.compile dialect .bound = .error failure) :
    (engine.transportIn dialect).run c = pure (.error failure) := by
  cases c with
  | call c =>
    obtain ⟨compiled, hcompiled⟩ := Command.exists_compile_call c dialect
    rw [hcompiled] at h
    cases h
  | _ => simp only [transportIn, compiling, h]

end Engine
end SchemaClient
