import Mathlib.Logic.Function.Conjugate
import Scriptlet.Proofs.Run.Steps
import Scriptlet.Proofs.Syntax.Tokens

/-!
Translations of runs. If a change of tokens goes together with a change of environments and one of
stops in each thing that a run does with a token, it does so in whole runs, and step by step.
-/

namespace Scriptlet

namespace Run

variable {σ τ α β : Type} {state : σ → τ} {stop : Stop → Stop}

/-- From a translated state the second run does what the first one does, translated. -/
def Carries (state : σ → τ) (stop : Stop → Stop) (m : Run σ α) (n : Run τ α) : Prop :=
  ∀ s, n (state s) = ((m s).1.mapError stop, state (m s).2)

def lift (result : Except Stop α) : Run σ α := fun s => (result, s)

namespace Carries

theorem pure (a : α) : Carries state stop (pure a : Run σ α) (pure a : Run τ α) := fun _ => rfl

theorem lift {result other : Except Stop α} (same : other = result.mapError stop) :
    Carries state stop (lift result) (lift other) := fun s => congrArg (·, state s) same

theorem bind {m : Run σ α} {n : Run τ α} {f : α → Run σ β} {g : α → Run τ β}
    (first : Carries state stop m n) (next : ∀ a, Carries state stop (f a) (g a)) :
    Carries state stop (m >>= f) (n >>= g) := by
  intro s
  rw [bind_apply, bind_apply, first s]
  rcases m s with ⟨_ | a, t⟩
  · rfl
  · exact next a t

theorem ite {c : Prop} [Decidable c] {yes no : Run σ α} {yes' no' : Run τ α}
    (first : Carries state stop yes yes') (second : Carries state stop no no') :
    Carries state stop (if c then yes else no) (if c then yes' else no') := by
  split
  · exact first
  · exact second

end Carries

end Run

open Run Machine

/-- A change of operators, of names, of environments and of stops that go together wherever a run
comes upon an operator, a name or a scope. -/
structure Translation where
  op : Token → Token
  name : Token → Token
  env : Env → Env
  stop : Stop → Stop
  unary (t : Token) (v : Value) :
    Operator.unary (op t) v = (Operator.unary t v).mapError stop
  binary (t : Token) (v w : Value) :
    Operator.binary (op t) v w = (Operator.binary t v w).mapError stop
  decides (t : Token) (v : Value) : Operator.decides (op t) v = Operator.decides t v
  read (t : Token) (e : Env) : (env e).read (name t) = (e.read t).mapError stop
  write (t : Token) (v : Value) : Carries env stop (Env.write t v) (Env.write (name t) v)
  define (t : Token) (v : Value) (e : Env) :
    (env e).define (name t).lexeme v = env (e.define t.lexeme v)
  enter (e : Env) : (env e).enter = env e.enter
  exit (e : Env) : (env e).exit = env e.exit
  full : stop (.error .sinkFull) = .error .sinkFull
  unfinished : stop .unfinished = .unfinished

namespace Translation

variable (t : Translation)

abbrev expr : Expr → Expr := Expr.mapTokens t.op t.name

abbrev stmt : Stmt → Stmt := Stmt.mapTokens t.op t.name

def machine (m : Machine) : Machine := { m with env := t.env m.env }

theorem carries_eval (e : Expr) : Carries t.env t.stop e.eval (t.expr e).eval := by
  induction e with
  | string | number | bool | nil => exact .pure _
  | unary op operand ih => exact ih.bind fun v => .lift (t.unary op v)
  | binary op left right first second =>
    exact first.bind fun v => second.bind fun w => .lift (t.binary op v w)
  | logical op left right first second =>
    apply first.bind
    intro v
    rw [t.decides]
    exact .ite (.pure v) second
  | conditional condition yes no test first second =>
    exact test.bind fun v => .ite first second
  | group inner ih => exact ih
  | var name => exact fun e => congrArg (·, t.env e) (t.read name e)
  | assign name value ih => exact ih.bind fun v => t.write name v

theorem carries_onEnv {m n : Run Env α} (h : Carries t.env t.stop m n) :
    Carries t.machine t.stop (onEnv m) (onEnv n) := by
  intro s
  simp only [Machine.onEnv, machine, h s.env]

theorem carries_printLine (text : String) :
    Carries t.machine t.stop (printLine text) (printLine text) := by
  intro s
  by_cases fits : s.sink.fits (text ++ "\n").utf8ByteSize
  · simp only [Machine.printLine, machine, fits]
    rfl
  · simp only [Machine.printLine, machine, fits, Bool.false_eq_true, if_false, Except.mapError,
      t.full]

theorem carries_define (name : Token) (v : Value) :
    Carries t.machine t.stop (Machine.define name.lexeme v)
      (Machine.define (t.name name).lexeme v) := by
  intro s
  simp only [Machine.define, machine, t.define]
  rfl

theorem carries_inScope {body other : Run Machine Unit}
    (inside : Carries t.machine t.stop body other) :
    Carries t.machine t.stop (inScope body) (inScope other) := by
  intro s
  have entered := inside { s with env := s.env.enter }
  simp only [machine] at entered
  simp only [Machine.inScope, machine, t.enter, entered, t.exit]

theorem carries_turn {test test' : Run Machine Value} {body body' : Run Machine Unit}
    (tested : Carries t.machine t.stop test test') (inside : Carries t.machine t.stop body body')
    (fuel : Nat) : Carries t.machine t.stop (turn test body fuel) (turn test' body' fuel) := by
  induction fuel with
  | zero => exact fun s => congrArg (Except.error ·, t.machine s) t.unfinished.symm
  | succ fuel ih =>
    rw [turn_succ, turn_succ]
    exact tested.bind fun v => .ite (inside.bind fun _ => ih) (.pure ())

theorem carries_evaluation (e : Expr) :
    Carries t.machine t.stop (Machine.onEnv e.eval) (Machine.onEnv (t.expr e).eval) :=
  t.carries_onEnv (t.carries_eval e)

theorem carries_execAll_of_each {fuel : Nat} {body : List Stmt}
    (each : ∀ s ∈ body, Carries t.machine t.stop (s.exec fuel) ((t.stmt s).exec fuel)) :
    Carries t.machine t.stop (Stmt.execAll fuel body) (Stmt.execAll fuel (body.map t.stmt)) := by
  induction body with
  | nil => exact .pure ()
  | cons s rest ih =>
    exact (each s List.mem_cons_self).bind fun _ =>
      ih fun other member => each other (List.mem_cons_of_mem s member)

theorem carries_exec (fuel : Nat) (s : Stmt) :
    Carries t.machine t.stop (s.exec fuel) ((t.stmt s).exec fuel) := by
  induction s with
  | expression e => exact (t.carries_evaluation e).bind fun _ => .pure ()
  | print e => exact (t.carries_evaluation e).bind fun v => t.carries_printLine v.text
  | declare name initializer =>
    cases initializer with
    | none => exact t.carries_define name .nil
    | some e => exact (t.carries_evaluation e).bind fun v => t.carries_define name v
  | block body ih =>
    rw [stmt, Stmt.mapTokens, Stmt.mapTokensAll_eq_map]
    exact t.carries_inScope (t.carries_execAll_of_each ih)
  | branch condition yes no yesIH noIH =>
    cases no with
    | none => exact (t.carries_evaluation condition).bind fun v => .ite yesIH (.pure ())
    | some no => exact (t.carries_evaluation condition).bind fun v => .ite yesIH (noIH no rfl)
  | loop condition body ih => exact t.carries_turn (t.carries_evaluation condition) ih fuel

theorem carries_execAll (fuel : Nat) (statements : List Stmt) :
    Carries t.machine t.stop (Stmt.execAll fuel statements)
      (Stmt.execAll fuel (statements.map t.stmt)) :=
  t.carries_execAll_of_each fun s _ => t.carries_exec fuel s

def job : Job → Job
  | .run s => .run (t.stmt s)
  | .leave => .leave

def progress (p : Progress) : Progress :=
  ⟨p.jobs.map t.job, p.stop.map t.stop, t.machine p.machine⟩

theorem carries_begin (s : Stmt) : Carries t.machine t.stop s.begin (t.stmt s).begin := by
  cases s with
  | expression e => exact (t.carries_evaluation e).bind fun _ => .pure true
  | print e =>
    exact (t.carries_evaluation e).bind fun v => (t.carries_printLine v.text).bind fun _ =>
      .pure true
  | declare name initializer =>
    cases initializer with
    | none => exact (t.carries_define name .nil).bind fun _ => .pure true
    | some e =>
      exact (t.carries_evaluation e).bind fun v => (t.carries_define name v).bind fun _ =>
        .pure true
  | block body =>
    intro s
    simp only [stmt, Stmt.mapTokens, Stmt.begin, machine, t.enter]
    rfl
  | branch condition yes no =>
    cases no <;> exact (t.carries_evaluation condition).bind fun v => .pure v.truthy
  | loop condition body => exact (t.carries_evaluation condition).bind fun v => .pure v.truthy

theorem jobs_stmt (holds : Bool) (s : Stmt) : (t.stmt s).jobs holds = (s.jobs holds).map t.job := by
  cases s with
  | declare name initializer => cases initializer <;> rfl
  | block body =>
    simp only [stmt, Stmt.mapTokens, Stmt.mapTokensAll_eq_map, Stmt.jobs, List.map_append,
      List.map_map]
    rfl
  | branch condition yes no => cases no <;> cases holds <;> rfl
  | loop condition body => cases holds <;> rfl
  | _ => rfl

theorem step_progress (p : Progress) : (t.progress p).step = t.progress p.step := by
  obtain ⟨jobs, stop, m⟩ := p
  cases jobs with
  | nil => rfl
  | cons job rest =>
    cases job with
    | leave => simp only [progress, job, List.map_cons, Progress.step, machine, t.exit]
    | run s =>
      cases stop with
      | some stop => rfl
      | none =>
        have begun := t.carries_begin s m
        simp only [progress, job, List.map_cons, Option.map_none, Progress.step, begun]
        rcases s.begin m with ⟨stop | holds, u⟩
        · rfl
        · simp only [Except.mapError, t.jobs_stmt, List.map_append, Option.map_none]

theorem steps_start (n : Nat) (statements : List Stmt) (m : Machine) :
    Progress.step^[n] (.start (statements.map t.stmt) (t.machine m)) =
      t.progress (Progress.step^[n] (.start statements m)) := by
  have start : Progress.start (statements.map t.stmt) (t.machine m) =
      t.progress (.start statements m) := by
    simp only [Progress.start, progress, List.map_map]
    rfl
  have along : Function.Semiconj t.progress Progress.step Progress.step :=
    fun p => (t.step_progress p).symm
  rw [start]
  exact ((along.iterate_right n).eq _).symm

end Translation

end Scriptlet
