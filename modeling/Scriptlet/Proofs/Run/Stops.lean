import Scriptlet.Proofs.Run.Rules

namespace Scriptlet

namespace Run

variable {σ α β : Type} {reason weaker : Stop → Prop}

/-- From no state does the run stop without a reason. -/
def StopsFor (reason : Stop → Prop) (m : Run σ α) : Prop :=
  ∀ s stop, (m s).1 = .error stop → reason stop

namespace StopsFor

theorem mono {m : Run σ α} (h : StopsFor reason m) (weaken : ∀ stop, reason stop → weaker stop) :
    StopsFor weaker m := fun s stop stopped => weaken stop (h s stop stopped)

theorem pure (a : α) : StopsFor reason (pure a : Run σ α) := nofun

theorem result {f : σ → Except Stop α} (raised : ∀ s stop, f s = .error stop → reason stop) :
    StopsFor reason fun s => (f s, s) := raised

theorem bind {m : Run σ α} {f : α → Run σ β} (first : StopsFor reason m)
    (next : ∀ a, StopsFor reason (f a)) : StopsFor reason (m >>= f) := by
  intro s stop stopped
  rw [bind_apply] at stopped
  rcases ran : m s with ⟨e | a, t⟩
  · rw [ran] at stopped
    obtain rfl : e = stop := Except.error.inj stopped
    exact first s e (by rw [ran])
  · rw [ran] at stopped
    exact next a t stop stopped

end StopsFor

end Run

open Run

namespace Operator

theorem unary_error {op : Token} {v : Value} {stop : Stop} (raised : unary op v = .error stop) :
    op.kind = .minus ∧ stop = .error (.operandNotNumber op.line) := by
  unfold unary at raised
  split at raised
  · cases raised
  · rename_i minus _
    exact ⟨minus, (Except.error.inj raised).symm⟩
  · cases raised

theorem numeric_error {op : Token} {x y : Float} {stop : Stop}
    (raised : numeric op x y = .error stop) :
    op.kind = .slash ∧ stop = .error (.divisionByZero op.line) ∨ stop = .stuck op := by
  unfold numeric at raised
  split at raised
  case h_3 slash =>
    split at raised
    · exact .inl ⟨slash, (Except.error.inj raised).symm⟩
    · cases raised
  case h_8 => exact .inr (Except.error.inj raised).symm
  all_goals cases raised

theorem add_error {op : Token} {v w : Value} {stop : Stop} (raised : add op v w = .error stop) :
    stop = .error (.invalidAddition op.line) := by
  unfold add at raised
  split at raised
  · cases raised
  · cases raised
  · exact (Except.error.inj raised).symm

theorem binary_error {op : Token} {v w : Value} {stop : Stop}
    (raised : binary op v w = .error stop) :
    op.kind = .plus ∧ stop = .error (.invalidAddition op.line) ∨
      op.kind = .slash ∧ stop = .error (.divisionByZero op.line) ∨
      op.kind ∉ [.comma, .equalEqual, .bangEqual, .plus] ∧
        (stop = .error (.operandsNotNumbers op.line) ∨ stop = .stuck op) := by
  unfold binary at raised
  split at raised
  case h_4 plus => exact .inl ⟨plus, add_error raised⟩
  case h_5 comma equalEqual bangEqual plus =>
    have other : op.kind ∉ [.comma, .equalEqual, .bangEqual, .plus] := by
      simp only [List.mem_cons, List.not_mem_nil, or_false, not_or]
      exact ⟨comma, equalEqual, bangEqual, plus⟩
    split at raised
    · rcases numeric_error raised with slash | stuck
      · exact .inr (.inl slash)
      · exact .inr (.inr ⟨other, .inr stuck⟩)
    · exact .inr (.inr ⟨other, .inl (Except.error.inj raised).symm⟩)
  all_goals cases raised

end Operator

/-- The node itself can stop a run for this reason. -/
inductive Expr.Raises : Expr → Stop → Prop where
  | unary {op : Token} {operand : Expr} {v : Value} {stop : Stop}
    (raised : Operator.unary op v = .error stop) : Raises (.unary op operand) stop
  | binary {op : Token} {left right : Expr} {v w : Value} {stop : Stop}
    (raised : Operator.binary op v w = .error stop) : Raises (.binary op left right) stop
  | var {name : Token} :
    Raises (.var name) (.error (.undefinedVariable name.lexeme name.line))
  | assign {name : Token} {value : Expr} :
    Raises (.assign name value) (.error (.undefinedVariable name.lexeme name.line))

namespace Env

theorem read_error {env : Env} {name : Token} {stop : Stop} (h : env.read name = .error stop) :
    stop = .error (.undefinedVariable name.lexeme name.line) := by
  unfold read at h
  split at h
  · cases h
  · exact (Except.error.inj h).symm

theorem stopsFor_write (name : Token) (v : Value) :
    StopsFor (· = .error (.undefinedVariable name.lexeme name.line)) (write name v) := by
  intro env stop h
  unfold write at h
  split at h
  · cases h
  · exact (Except.error.inj h).symm

end Env

namespace Expr

/-- One of the parts stops the run. -/
def Blamed (parts : List Expr) (stop : Stop) : Prop := ∃ p ∈ parts, p.Raises stop

theorem Raises.ne_sinkFull {e : Expr} {stop : Stop} (raises : e.Raises stop) :
    stop ≠ .error .sinkFull := by
  rintro rfl
  cases raises with
  | unary raised => cases (Operator.unary_error raised).2
  | binary raised =>
    rcases Operator.binary_error raised with ⟨_, same⟩ | ⟨_, same⟩ | ⟨_, same | same⟩ <;> cases same

theorem stopsFor_rules (nodes : List Expr) : Rules (· ∈ nodes) (StopsFor (Blamed nodes)) where
  pure := .pure
  bind := .bind
  unary _ node := .result fun _ _ raised => ⟨_, node, .unary raised⟩
  binary _ _ node := .result fun _ _ raised => ⟨_, node, .binary raised⟩
  var node := .result fun _ _ raised => ⟨_, node, Env.read_error raised ▸ .var⟩
  assign v node := (Env.stopsFor_write _ v).mono fun _ raised => ⟨_, node, raised ▸ .assign⟩

theorem stopsFor_eval (e : Expr) : StopsFor (Blamed e.parts) e.eval :=
  (stopsFor_rules e.parts).eval e fun _ => id

end Expr

namespace Machine

variable {α : Type} {reason : Stop → Prop}

theorem stopsFor_onEnv {m : Run Env α} (h : StopsFor reason m) : StopsFor reason (onEnv m) :=
  fun s => h s.env

theorem stopsFor_printLine (text : String) :
    StopsFor (· = .error .sinkFull) (printLine text) := by
  intro s stop h
  simp only [printLine] at h
  split at h
  · cases h
  · exact (Except.error.inj h).symm

theorem stopsFor_define (x : String) (v : Value) : StopsFor reason (define x v) := by
  intro s stop stopped
  cases stopped

theorem stopsFor_inScope {body : Run Machine Unit} (inside : StopsFor reason body) :
    StopsFor reason (inScope body) := fun s => inside { s with env := s.env.enter }

end Machine

namespace Stmt

open Machine

/-- Why a run of statements can stop in which these expressions are evaluated. -/
def Stopped (nodes : List Expr) (stop : Stop) : Prop :=
  stop = .error .sinkFull ∨ stop = .unfinished ∨ Expr.Blamed nodes stop

theorem stopsFor_evaluation {e : Expr} {all : List Expr} (within : e.parts ⊆ all) :
    StopsFor (Stopped all) (onEnv e.eval) := by
  have evaluated := (Expr.stopsFor_rules all).eval e fun _ part => within part
  exact (stopsFor_onEnv evaluated).mono fun _ blamed => .inr (.inr blamed)

theorem stopsFor_rules (all : List Expr) : Rules all fun _ _ => StopsFor (Stopped all) where
  pure := .pure
  bind := .bind
  forget run _ := run
  evaluation within _ := stopsFor_evaluation within
  printLine text := (stopsFor_printLine text).mono fun _ => .inl
  define := stopsFor_define
  block := stopsFor_inScope
  unfinished := .result fun _ _ raised => .inr (.inl (Except.error.inj raised).symm)

theorem stopsFor_execAll (fuel : Nat) (body : List Stmt) :
    StopsFor (Stopped (partsAll body)) (execAll fuel body) :=
  (stopsFor_rules (partsAll body)).execAll fuel (List.Subset.refl _) (scopedAll_univ body)

end Stmt

end Scriptlet
