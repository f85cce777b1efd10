import Scriptlet.Proofs.Run.Stops

namespace Scriptlet

open Run

namespace Machine

variable {α β : Type}

/-- From every environment the run has one result, one environment at its end and one output,
which goes behind whatever was written. That the sink is full is not among the results. -/
def Streams (run : Run Machine α) : Prop :=
  ∀ env, ∃ result after out, result ≠ .error (.error .sinkFull) ∧
    ∀ written, run ⟨env, ⟨written, none⟩⟩ = (result, ⟨after, ⟨written ++ out, none⟩⟩)

namespace Streams

theorem pure (a : α) : Streams (pure a : Run Machine α) :=
  fun env => ⟨.ok a, env, .empty, nofun, fun written => by rw [ByteArray.append_empty]; rfl⟩

theorem onEnv {run : Run Env α} (free : ∀ env, (run env).1 ≠ .error (.error .sinkFull)) :
    Streams (onEnv run) :=
  fun env => ⟨(run env).1, (run env).2, .empty, free env, fun written => by
    rw [ByteArray.append_empty]; rfl⟩

theorem printLine (text : String) : Streams (printLine text) :=
  fun env => ⟨.ok (), env, (text ++ "\n").toUTF8, nofun, fun _ => rfl⟩

theorem define (x : String) (v : Value) : Streams (define x v) :=
  fun env => ⟨.ok (), env.define x v, .empty, nofun, fun written => by
    rw [ByteArray.append_empty]; rfl⟩

theorem unfinished : Streams fun m => ((.error .unfinished : Except Stop α), m) :=
  fun env => ⟨.error .unfinished, env, .empty, nofun, fun written => by
    rw [ByteArray.append_empty]⟩

theorem bind {run : Run Machine α} {next : α → Run Machine β} (first : Streams run)
    (others : ∀ a, Streams (next a)) : Streams (run >>= next) := by
  intro env
  obtain ⟨result, middle, out, free, ran⟩ := first env
  cases result with
  | error stop =>
    refine ⟨.error stop, middle, out, fun full => free ?_, fun written => ?_⟩
    · rw [Except.error.inj full]
    · rw [bind_apply, ran]
  | ok a =>
    obtain ⟨result, after, more, free, continued⟩ := others a middle
    refine ⟨result, after, out ++ more, free, fun written => ?_⟩
    rw [bind_apply, ran]
    exact (continued _).trans (by rw [ByteArray.append_assoc])

theorem inScope {body : Run Machine Unit} (inside : Streams body) : Streams (inScope body) := by
  intro env
  obtain ⟨result, after, out, free, ran⟩ := inside env.enter
  refine ⟨result, after.exit, out, free, fun written => ?_⟩
  simp only [Machine.inScope, ran]

end Streams

end Machine

open Machine

theorem Expr.streams_eval (e : Expr) : Streams (onEnv e.eval) := by
  apply Streams.onEnv
  intro env full
  obtain ⟨p, _, raises⟩ := e.stopsFor_eval env _ full
  exact raises.ne_sinkFull rfl

namespace Stmt

theorem streams_rules (all : List Expr) : Rules all fun _ _ => Streams where
  pure := .pure
  bind := .bind
  forget run _ := run
  evaluation _ _ := Expr.streams_eval _
  printLine := .printLine
  define := .define
  block := .inScope
  unfinished := .unfinished

theorem streams_execAll (fuel : Nat) (statements : List Stmt) : Streams (execAll fuel statements) :=
  (streams_rules (partsAll statements)).execAll fuel (List.Subset.refl _)
    (scopedAll_univ statements)

end Stmt

end Scriptlet
