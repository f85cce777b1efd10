import Scriptlet.Proofs.Grammar.Accepted
import Scriptlet.Proofs.Run.Stops

namespace Scriptlet

namespace Operator

theorem unary_ne_stuck (op : Token) (v : Value) (unknown : Token) :
    unary op v ≠ .error (.stuck unknown) := by
  unfold unary
  split <;> exact nofun

theorem add_ne_stuck (op : Token) (v w : Value) (unknown : Token) :
    add op v w ≠ .error (.stuck unknown) := by
  unfold add
  split <;> exact nofun

theorem numeric_ne_stuck {op : Token}
    (operator : op.kind ∈ [.greater, .greaterEqual, .less, .lessEqual, .minus, .star, .slash])
    (x y : Float) (unknown : Token) : numeric op x y ≠ .error (.stuck unknown) := by
  unfold numeric
  split
  case h_3 => split <;> exact nofun
  case h_8 => simp_all
  all_goals exact nofun

theorem binary_ne_stuck {op : Token} (operator : op.kind ∈ Kind.binaries) (v w : Value)
    (unknown : Token) : binary op v w ≠ .error (.stuck unknown) := by
  unfold binary
  split
  case h_4 => exact add_ne_stuck op v w unknown
  case h_5 =>
    split
    · apply numeric_ne_stuck
      simp_all [Kind.binaries]
    · exact nofun
  all_goals exact nofun

end Operator

namespace Expr

theorem Fitting.unstuck {e : Expr} (fitting : e.Fitting) (unknown : Token) :
    ¬ e.Raises (.stuck unknown) := by
  intro raises
  cases raises with
  | unary raised => exact Operator.unary_ne_stuck _ _ unknown raised
  | binary raised => exact Operator.binary_ne_stuck fitting _ _ unknown raised

theorem Canonical.eval_unstuck {e : Expr} (canonical : e.Canonical) (env : Env)
    (unknown : Token) : (e.eval env).1 ≠ .error (.stuck unknown) := by
  intro stopped
  obtain ⟨p, member, raises⟩ := e.stopsFor_eval env _ stopped
  exact (canonical.part p member).fitting.unstuck unknown raises

end Expr

namespace Stmt

theorem execAll_unstuck {statements : List Stmt} (canonical : ∀ s ∈ statements, s.Canonical)
    (fuel : Nat) (m : Machine) (unknown : Token) :
    (execAll fuel statements m).1 ≠ .error (.stuck unknown) := by
  intro stopped
  have reason := stopsFor_execAll fuel _ m _ stopped
  obtain full | unfinished | ⟨p, member, raises⟩ := reason
  · cases full
  · cases unfinished
  · obtain ⟨s, among, inside⟩ := mem_partsAll.mp member
    exact ((canonical s among).part p inside).fitting.unstuck unknown raises

end Stmt

namespace Program

/-- Whatever the tokens are, of the statements that come back every node has an operator or name
that it can work with. So nothing in them gets stuck: no expression at any depth, and no run of
any of the statements. -/
theorem ofTokens_unstuck (tokens : List Token) :
    (∀ s ∈ (ofTokens tokens).statements,
      (∀ e ∈ s.parts, e.Fitting ∧ ∀ env op, (e.eval env).1 ≠ .error (.stuck op)) ∧
        ∀ name ∈ s.declarations, name.kind = .name) ∧
      ∀ statements, statements ⊆ (ofTokens tokens).statements →
        ∀ fuel m op, (Stmt.execAll fuel statements m).1 ≠ .error (.stuck op) := by
  refine ⟨?_, fun statements returned => ?_⟩
  · intro s member
    have canonical := canonical_of_mem member
    exact ⟨fun e part => ⟨(canonical.part e part).fitting, (canonical.part e part).eval_unstuck⟩,
      canonical.named⟩
  · exact Stmt.execAll_unstuck fun s member => canonical_of_mem (returned member)

/-- The tokens of `-a / b = 1;`, whose target is reported and kept without its value. -/
def quotientTokens : List Token :=
  [⟨.minus, "-", none, 1⟩, ⟨.name, "a", none, 1⟩, ⟨.slash, "/", none, 1⟩, ⟨.name, "b", none, 1⟩,
    ⟨.equal, "=", none, 1⟩, ⟨.number, "1", some (.number 1), 1⟩, ⟨.semicolon, ";", none, 1⟩]

def quotient : Expr :=
  .binary ⟨.slash, "/", none, 1⟩ (.unary ⟨.minus, "-", none, 1⟩ (.var ⟨.name, "a", none, 1⟩))
    (.var ⟨.name, "b", none, 1⟩)

theorem ofTokens_unstuck_quotient :
    ofTokens quotientTokens =
        ⟨[.expression quotient], [⟨1, .atLexeme "=", .invalidTarget⟩]⟩ ∧
      (∀ env op, (quotient.eval env).1 ≠ .error (.stuck op)) ∧
      ∀ fuel m op, (Stmt.execAll fuel [.expression quotient] m).1 ≠ .error (.stuck op) := by
  have parsed : ofTokens quotientTokens =
      ⟨[.expression quotient], [⟨1, .atLexeme "=", .invalidTarget⟩]⟩ := by cbv
  obtain ⟨fitting, unstuck⟩ := ofTokens_unstuck quotientTokens
  rw [parsed] at fitting unstuck
  obtain ⟨parts, _⟩ := fitting (.expression quotient) List.mem_cons_self
  exact ⟨parsed, (parts quotient quotient.mem_parts_self).2, unstuck _ fun _ => id⟩

end Program

end Scriptlet
