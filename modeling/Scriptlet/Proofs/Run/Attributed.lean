import Scriptlet.Proofs.Run.Resolved

/-!
Errors and the tokens to blame for them. The tree that was run has a token on the line of the
error, in a node that can raise it; and a variable that was not found has no value in the
environment that is left behind either, when all scopes that the run entered are gone.
-/

namespace Scriptlet

open Run Machine

/-- One of the expressions has a token on the line of the error, and its node can raise that. -/
def RuntimeError.BlamedOn (parts : List Expr) : RuntimeError → Prop
  | operandNotNumber line =>
    ∃ op operand, .unary op operand ∈ parts ∧ op.kind = .minus ∧ op.line = line
  | operandsNotNumbers line =>
    ∃ op left right, .binary op left right ∈ parts ∧
      op.kind ∉ [.comma, .equalEqual, .bangEqual, .plus] ∧ op.line = line
  | invalidAddition line =>
    ∃ op left right, .binary op left right ∈ parts ∧ op.kind = .plus ∧ op.line = line
  | divisionByZero line =>
    ∃ op left right, .binary op left right ∈ parts ∧ op.kind = .slash ∧ op.line = line
  | undefinedVariable x line =>
    ∃ name, (.var name ∈ parts ∨ ∃ value, .assign name value ∈ parts) ∧
      name.lexeme = x ∧ name.line = line
  | sinkFull => False

theorem Expr.Raises.blamedOn {p : Expr} {e : RuntimeError} (raises : p.Raises (.error e))
    {parts : List Expr} (member : p ∈ parts) : e.BlamedOn parts := by
  generalize stopped : Stop.error e = stop at raises
  cases raises with
  | unary raised =>
    obtain ⟨minus, rfl⟩ := Operator.unary_error raised
    cases stopped
    exact ⟨_, _, member, minus, rfl⟩
  | binary raised =>
    rcases Operator.binary_error raised with ⟨plus, rfl⟩ | ⟨slash, rfl⟩ | ⟨other, rfl | rfl⟩ <;>
      cases stopped
    · exact ⟨_, _, _, member, plus, rfl⟩
    · exact ⟨_, _, _, member, slash, rfl⟩
    · exact ⟨_, _, _, member, other, rfl⟩
  | var =>
    cases stopped
    exact ⟨_, .inl member, rfl, rfl⟩
  | assign =>
    cases stopped
    exact ⟨_, .inr ⟨_, member⟩, rfl, rfl⟩

theorem Expr.Blamed.blamedOn {parts : List Expr} {e : RuntimeError}
    (blamed : Blamed parts (.error e)) : e.BlamedOn parts := by
  obtain ⟨p, member, raises⟩ := blamed
  exact raises.blamedOn member

namespace Run

variable {σ α β : Type} {left : Stop → σ → Prop}

/-- A run that stops leaves a state that goes with the reason. -/
def Leaves (left : Stop → σ → Prop) (m : Run σ α) : Prop :=
  ∀ s stop t, m s = (.error stop, t) → left stop t

namespace Leaves

theorem pure (a : α) : Leaves left (pure a : Run σ α) := nofun

theorem result {f : σ → Except Stop α} (raised : ∀ s stop, f s = .error stop → left stop s) :
    Leaves left fun s => (f s, s) := by
  intro s stop t stopped
  obtain ⟨given, rfl⟩ := Prod.mk.inj stopped
  exact raised s stop given

theorem bind {m : Run σ α} {f : α → Run σ β} (first : Leaves left m)
    (next : ∀ a, Leaves left (f a)) : Leaves left (m >>= f) := by
  intro s stop t stopped
  rw [bind_apply] at stopped
  rcases ran : m s with ⟨e | a, u⟩ <;> rw [ran] at stopped
  · cases stopped
    exact first s _ _ ran
  · exact next a u stop t stopped

end Leaves

end Run

namespace Env

/-- If the stop is for want of a variable, the environment has no value for it. -/
def Lacks (stop : Stop) (env : Env) : Prop :=
  ∀ x line, stop = .error (.undefinedVariable x line) → env.get? x = none

theorem lacks_of_bound {stop : Stop} (bound : ¬ stop.Unbound) (env : Env) : Lacks stop env :=
  fun x line same => absurd ⟨x, line, same⟩ bound

theorem Lacks.exit {stop : Stop} {env : Env} (lacks : Lacks stop env) : Lacks stop env.exit := by
  intro x line same
  have none := lacks x line same
  obtain ⟨innermost, _ | ⟨scope, rest⟩⟩ := env
  · exact none
  · rw [get?, List.findSome?_eq_none_iff] at none ⊢
    exact fun inner member => none inner (List.mem_cons_of_mem _ member)

theorem lacks_read {env : Env} {name : Token} {stop : Stop} (raised : env.read name = .error stop) :
    Lacks stop env := by
  unfold read at raised
  split at raised
  case h_1 => cases raised
  case h_2 none =>
    rintro x line rfl
    cases raised
    exact none

theorem leaves_write (name : Token) (v : Value) : Leaves Lacks (write name v) := by
  intro env stop t stopped
  unfold write at stopped
  split at stopped
  case h_1 => cases stopped
  case h_2 none =>
    cases stopped
    rintro x line ⟨⟩
    have unbound := isSome_assign? env name.lexeme v
    rw [none] at unbound
    exact Option.not_isSome_iff_eq_none.mp (by simp [← unbound])

end Env

theorem Expr.leaves_rules : Rules (fun _ => True) (Leaves Env.Lacks) where
  pure := .pure
  bind := .bind
  unary _ _ := .result fun env _ raised => Env.lacks_of_bound (Operator.unary_bound raised) env
  binary _ _ _ := .result fun env _ raised => Env.lacks_of_bound (Operator.binary_bound raised) env
  var _ := .result fun _ _ => Env.lacks_read
  assign v _ := Env.leaves_write _ v

theorem Expr.leaves_eval (e : Expr) : Leaves Env.Lacks e.eval :=
  leaves_rules.eval e fun _ _ => trivial

namespace Machine

def Lacks (stop : Stop) (m : Machine) : Prop := Env.Lacks stop m.env

theorem leaves_evaluation (e : Expr) : Leaves Lacks (onEnv e.eval) := by
  intro s stop t stopped
  rcases ran : e.eval s.env with ⟨reason | v, env⟩ <;> simp only [onEnv, ran] at stopped <;>
    cases stopped
  exact e.leaves_eval s.env stop env ran

theorem leaves_printLine (text : String) : Leaves Lacks (printLine text) := by
  intro s stop t stopped
  apply Env.lacks_of_bound
  have full := stopsFor_printLine text s stop (by rw [stopped])
  rintro ⟨x, line, rfl⟩
  cases full

theorem leaves_define (x : String) (v : Value) : Leaves Lacks (define x v) := by
  intro s stop t stopped
  cases congrArg Prod.fst stopped

theorem leaves_inScope {body : Run Machine Unit} (inside : Leaves Lacks body) :
    Leaves Lacks (inScope body) := by
  intro s stop t stopped
  rcases ran : body { s with env := s.env.enter } with ⟨reason | _, u⟩ <;>
    simp only [inScope, ran] at stopped <;> cases stopped
  exact (inside _ stop u ran).exit

end Machine

namespace Stmt

theorem leaves_rules (all : List Expr) : Rules all fun _ _ => Leaves Machine.Lacks where
  pure := .pure
  bind := .bind
  forget run _ := run
  evaluation _ _ := leaves_evaluation _
  printLine := leaves_printLine
  define := leaves_define
  block := leaves_inScope
  unfinished := .result fun m _ raised =>
    Env.lacks_of_bound (Except.error.inj raised ▸ Stop.not_unbound_unfinished) m.env

theorem leaves_execAll (fuel : Nat) (body : List Stmt) :
    Leaves Machine.Lacks (execAll fuel body) :=
  (leaves_rules (partsAll body)).execAll fuel (List.Subset.refl _) (scopedAll_univ body)

/-- An error of a run, but for a full sink, is that of a token of its tree: the token is on the
line of the error, in a node that raises such an error. A variable that was not found is one that
the token names, and the environment that is left behind has no value for it. The same holds of
the evaluation of an expression, which never fills the sink. -/
theorem errors_attributed (fuel : Nat) (m : Machine) :
    (∀ statements e after, execAll fuel statements m = (.error (.error e), after) →
      e ≠ .sinkFull → e.BlamedOn (partsAll statements) ∧
        ∀ x line, e = .undefinedVariable x line → after.env.get? x = none) ∧
    ∀ (expr : Expr) e env, expr.eval m.env = (.error (.error e), env) →
      e.BlamedOn expr.parts ∧ ∀ x line, e = .undefinedVariable x line → env.get? x = none := by
  constructor
  · intro statements e after stopped printed
    have reason := stopsFor_execAll fuel statements m (.error e) (by rw [stopped])
    have lacks : Env.Lacks (.error e) after.env :=
      leaves_execAll fuel statements m (.error e) after stopped
    refine ⟨?_, fun x line same => lacks x line (congrArg Stop.error same)⟩
    obtain full | unfinished | blamed := reason
    · exact absurd (Stop.error.inj full) printed
    · cases unfinished
    · exact blamed.blamedOn
  · intro expr e env stopped
    have blamed := expr.stopsFor_eval m.env (.error e) (by rw [stopped])
    have lacks := expr.leaves_eval m.env (.error e) env stopped
    exact ⟨blamed.blamedOn, fun x line same => lacks x line (congrArg Stop.error same)⟩

/-- `{ var b = nil; while (true) { b = -a; } }`, with `a` unknown on the second line. -/
def missing : Stmt :=
  .block [.declare ⟨.name, "b", none, 1⟩ (some .nil),
    .loop (.bool true) (.block [.expression (.assign ⟨.name, "b", none, 2⟩
      (.unary ⟨.minus, "-", none, 2⟩ (.var ⟨.name, "a", none, 2⟩)))])]

theorem errors_attributed_missing :
    let e := RuntimeError.undefinedVariable "a" 2
    execAll 1 [missing] .initial = (.error (.error e), .initial) ∧ e ≠ .sinkFull ∧
      e.BlamedOn (partsAll [missing]) ∧ Env.get? .empty "a" = none := by
  intro e
  have stopped : execAll 1 [missing] .initial = (.error (.error e), .initial) := rfl
  have printed : e ≠ .sinkFull := nofun
  obtain ⟨blamed, lacks⟩ :=
    (errors_attributed 1 .initial).1 [missing] e .initial stopped printed
  exact ⟨stopped, printed, blamed, lacks "a" 2 rfl⟩

end Stmt

end Scriptlet
