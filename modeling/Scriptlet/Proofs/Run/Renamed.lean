import Scriptlet.Proofs.Run.Resolved
import Scriptlet.Proofs.Run.Translation

namespace Scriptlet

open Run

variable (r : String ↪ String)

/-- Another name in an error for want of a variable. -/
def RuntimeError.renamed : RuntimeError → RuntimeError
  | undefinedVariable x line => .undefinedVariable (r x) line
  | e => e

def Stop.renamed : Stop → Stop
  | error e => .error (e.renamed r)
  | stop => stop

theorem Stop.renamed_of_bound {stop : Stop} (bound : ¬ stop.Unbound) : stop.renamed r = stop := by
  cases stop with
  | error e =>
    cases e with
    | undefinedVariable x line => exact absurd ⟨x, line, rfl⟩ bound
    | _ => rfl
  | _ => rfl

theorem Stop.mapError_renamed {α : Type} {result : Except Stop α}
    (bound : ∀ stop, result = .error stop → ¬ stop.Unbound) :
    result.mapError (Stop.renamed r) = result := by
  cases result with
  | ok a => rfl
  | error stop => exact congrArg Except.error (stop.renamed_of_bound r (bound stop rfl))

namespace Scope

def renamed (scope : Scope) : Scope := scope.map fun (x, v) => (r x, v)

theorem get?_renamed (scope : Scope) (x : String) :
    (scope.renamed r).get? (r x) = scope.get? x := by
  induction scope with
  | nil => rfl
  | cons binding rest ih =>
    simp only [renamed, List.map_cons, get?, r.apply_eq_iff_eq]
    split
    · rfl
    · exact ih

theorem set_renamed (scope : Scope) (x : String) (v : Value) :
    (scope.renamed r).set (r x) v = (scope.set x v).renamed r := by
  induction scope with
  | nil => rfl
  | cons binding rest ih =>
    simp only [renamed, List.map_cons, set, r.apply_eq_iff_eq]
    split
    · rfl
    · exact congrArg (_ :: ·) ih

end Scope

namespace Env

def renamed (env : Env) : Env := ⟨env.innermost.renamed r, env.enclosing.map (Scope.renamed r)⟩

variable (env : Env) (x : String) (v : Value)

theorem define_renamed : (env.renamed r).define (r x) v = (env.define x v).renamed r := by
  simp only [define, renamed, Scope.set_renamed]

theorem get?_renamed : (env.renamed r).get? (r x) = env.get? x := by
  have same : (Scope.get? (r x)) ∘ Scope.renamed r = Scope.get? x :=
    funext fun scope => scope.get?_renamed r x
  have chain : (env.renamed r).scopes = env.scopes.map (Scope.renamed r) := rfl
  rw [get?, get?, chain, List.findSome?_map]
  exact congrArg (fun f => env.scopes.findSome? f) same

theorem update?_renamed (scopes : List Scope) :
    update? (r x) v (scopes.map (Scope.renamed r)) =
      (update? x v scopes).map (List.map (Scope.renamed r)) := by
  induction scopes with
  | nil => rfl
  | cons scope rest ih =>
    simp only [List.map_cons, update?, Scope.get?_renamed, Scope.set_renamed, ih]
    split
    · rfl
    · simp only [Option.map_map, Function.comp_def, List.map_cons]

theorem assign?_renamed :
    (env.renamed r).assign? (r x) v = (env.assign? x v).map (renamed r) := by
  unfold assign?
  rw [define_renamed]
  simp only [renamed, Scope.get?_renamed, update?_renamed]
  split
  · rfl
  · simp only [Option.map_map, Function.comp_def]
    rfl

theorem enter_renamed : (env.renamed r).enter = env.enter.renamed r := rfl

theorem exit_renamed : (env.renamed r).exit = env.exit.renamed r := by
  obtain ⟨innermost, enclosing⟩ := env
  cases enclosing <;> rfl

theorem read_renamed (name : Token) :
    (env.renamed r).read (name.renamed r) = (env.read name).mapError (Stop.renamed r) := by
  simp only [read, Token.renamed, get?_renamed]
  cases env.get? name.lexeme <;> rfl

theorem write_renamed (name : Token) :
    Carries (renamed r) (Stop.renamed r) (write name v) (write (name.renamed r) v) := by
  intro env
  simp only [write, Token.renamed, assign?_renamed]
  cases env.assign? name.lexeme v <;> rfl

end Env

def Translation.names : Translation where
  op := id
  name := Token.renamed r
  env := Env.renamed r
  stop := Stop.renamed r
  unary _ _ := (Stop.mapError_renamed r fun _ => Operator.unary_bound).symm
  binary _ _ _ := (Stop.mapError_renamed r fun _ => Operator.binary_bound).symm
  decides _ _ := rfl
  read name env := env.read_renamed r name
  write name v := Env.write_renamed r v name
  define name v env := env.define_renamed r name.lexeme v
  enter env := env.enter_renamed r
  exit env := env.exit_renamed r
  full := rfl
  unfinished := rfl

def Machine.renamed (m : Machine) : Machine := { m with env := m.env.renamed r }

def Progress.renamed (p : Progress) : Progress := (Translation.names r).progress p

namespace Stmt

/-- With its variables renamed, so that no two become one, a program does the same on the renamed
environment: it prints the same bytes and ends in the same way, with the environment renamed, and
only an undefined variable shows the other name. This holds of every expression, of every run
within a bound, and of the first steps of every run, however many. -/
theorem execAll_renamed (statements : List Stmt) (m : Machine) :
    (∀ fuel, execAll fuel (statements.map (renamed r)) (m.renamed r) =
        ((execAll fuel statements m).1.mapError (Stop.renamed r),
          (execAll fuel statements m).2.renamed r)) ∧
      (∀ e : Expr, (e.renamed r).eval (m.env.renamed r) =
        ((e.eval m.env).1.mapError (Stop.renamed r), (e.eval m.env).2.renamed r)) ∧
      ∀ n, Progress.step^[n] (.start (statements.map (renamed r)) (m.renamed r)) =
        (Progress.step^[n] (.start statements m)).renamed r :=
  ⟨fun fuel => (Translation.names r).carries_execAll fuel statements m,
    fun e => (Translation.names r).carries_eval e m.env,
    fun n => (Translation.names r).steps_start n statements m⟩

end Stmt

end Scriptlet
