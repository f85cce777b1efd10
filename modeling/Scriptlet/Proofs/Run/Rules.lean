import Scriptlet.Proofs.Run.Moves
import Scriptlet.Proofs.Syntax.Parts
import Scriptlet.Proofs.Syntax.Scoped

/-!
Properties of runs that are closed under what runs are made of. Such a property holds of the run
of each tree, by the one induction on trees that is here.
-/

namespace Scriptlet

open Run Machine

namespace Expr

variable {allowed : Expr → Prop} {P : Run Env Value → Prop}

/-- A property that evaluations have if their steps do, in trees of allowed nodes alone. -/
structure Rules (allowed : Expr → Prop) (P : Run Env Value → Prop) : Prop where
  pure (v : Value) : P (pure v)
  bind {m : Run Env Value} {f : Value → Run Env Value} : P m → (∀ v, P (f v)) → P (m >>= f)
  unary {op : Token} {operand : Expr} (v : Value) :
    allowed (.unary op operand) → P fun env => (Operator.unary op v, env)
  binary {op : Token} {left right : Expr} (v w : Value) :
    allowed (.binary op left right) → P fun env => (Operator.binary op v w, env)
  var {name : Token} : allowed (.var name) → P fun env => (env.read name, env)
  assign {name : Token} {value : Expr} (v : Value) :
    allowed (.assign name value) → P (Env.write name v)

theorem Rules.eval (rules : Rules allowed P) (e : Expr) (nodes : ∀ p ∈ e.parts, allowed p) :
    P e.eval := by
  induction e with
  | string | number | bool | nil => exact rules.pure _
  | unary op operand ih =>
    obtain ⟨node, inside⟩ := List.forall_mem_cons.mp nodes
    exact rules.bind (ih inside) fun v => rules.unary v node
  | binary op left right first second =>
    rw [parts, List.forall_mem_cons, List.forall_mem_append] at nodes
    obtain ⟨node, one, other⟩ := nodes
    exact rules.bind (first one) fun v => rules.bind (second other) fun w => rules.binary v w node
  | logical op left right first second =>
    rw [parts, List.forall_mem_cons, List.forall_mem_append] at nodes
    obtain ⟨_, one, other⟩ := nodes
    apply rules.bind (first one)
    intro v
    split
    · exact rules.pure v
    · exact second other
  | conditional condition yes no test first second =>
    rw [parts, List.forall_mem_cons, List.forall_mem_append, List.forall_mem_append] at nodes
    obtain ⟨_, tested, one, other⟩ := nodes
    apply rules.bind (test tested)
    intro v
    split
    · exact first one
    · exact second other
  | group inner ih => exact ih (List.forall_mem_cons.mp nodes).2
  | var name => exact rules.var (nodes _ List.mem_cons_self)
  | assign name value ih =>
    obtain ⟨node, inside⟩ := List.forall_mem_cons.mp nodes
    exact rules.bind (ih inside) fun v => rules.assign v node

end Expr

namespace Stmt

variable {all : List Expr} {known more : Set String}
  {P : Set String → Set String → ∀ {α : Type}, Run Machine α → Prop}

/-- A property that runs have if what they are made of has it. It may depend on the names that are
known where the run starts and where it ends; `all` are the expressions that may be evaluated. -/
structure Rules (all : List Expr)
    (P : Set String → Set String → ∀ {α : Type}, Run Machine α → Prop) : Prop where
  pure {known : Set String} {α : Type} (a : α) : P known known (pure a)
  bind {known between more : Set String} {α β : Type} {m : Run Machine α} {f : α → Run Machine β} :
    P known between m → (∀ a, P between more (f a)) → P known more (m >>= f)
  forget {known more fewer : Set String} {m : Run Machine Unit} :
    P known more m → fewer ⊆ more → P known fewer m
  evaluation {known : Set String} {e : Expr} :
    e.parts ⊆ all → e.Scoped known → P known known (onEnv e.eval)
  printLine {known : Set String} (text : String) : P known known (printLine text)
  define {known : Set String} (x : String) (v : Value) : P known (insert x known) (define x v)
  block {known more : Set String} {fuel : Nat} {body : List Stmt} :
    P known more (execAll fuel body) → P known known (inScope (execAll fuel body))
  unfinished {known : Set String} : P known known fun m => ((.error .unfinished : Except _ Unit), m)

namespace Rules

theorem turn (rules : Rules all P) {test : Run Machine Value} {body : Run Machine Unit}
    (tested : P known known test) (turned : P known known body) (fuel : Nat) :
    P known known (turn test body fuel) := by
  induction fuel with
  | zero => exact rules.unfinished
  | succ fuel ih =>
    rw [turn_succ]
    apply rules.bind tested
    intro v
    split
    · exact rules.bind turned fun _ => ih
    · exact rules.pure ()

/-- Later statements of a list know more names, so of each the property is given for all of them. -/
theorem execAll_of_each (rules : Rules all P) {fuel : Nat} {body : List Stmt}
    (each : ∀ s ∈ body, ∀ known, s.parts ⊆ all → s.Scoped known →
      P known (s.extend known) (s.exec fuel))
    (within : partsAll body ⊆ all) (closed : ScopedAll known body) :
    P known known (execAll fuel body) := by
  induction body generalizing known with
  | nil => exact rules.pure ()
  | cons s rest ih =>
    obtain ⟨here, behind⟩ := closed
    obtain ⟨first, others⟩ := List.append_subset.mp within
    apply rules.bind (each s List.mem_cons_self known first here)
    intro _
    have run := ih (fun t member => each t (List.mem_cons_of_mem s member)) others behind
    exact rules.forget run (s.subset_extend known)

theorem exec (rules : Rules all P) (fuel : Nat) (s : Stmt) (within : s.parts ⊆ all)
    (closed : s.Scoped known) : P known (s.extend known) (s.exec fuel) := by
  induction s generalizing known with
  | expression e => exact rules.bind (rules.evaluation within closed) fun _ => rules.pure ()
  | print e =>
    exact rules.bind (rules.evaluation within closed) fun v => rules.printLine v.text
  | declare name initializer =>
    cases initializer with
    | none => exact rules.define name.lexeme .nil
    | some e =>
      exact rules.bind (rules.evaluation within closed) fun v => rules.define name.lexeme v
  | block body ih =>
    exact rules.block (rules.execAll_of_each (fun s member _ => ih s member) within closed)
  | branch condition yes no yesIH noIH =>
    unfold Stmt.exec
    cases no with
    | none =>
      obtain ⟨test, first⟩ := closed
      obtain ⟨tested, one⟩ := List.append_subset.mp within
      apply rules.bind (rules.evaluation tested test)
      intro v
      split
      · exact rules.forget (yesIH one first) (yes.subset_extend known)
      · exact rules.pure ()
    | some no =>
      obtain ⟨test, first, second⟩ := closed
      obtain ⟨tested, branches⟩ := List.append_subset.mp within
      obtain ⟨one, other⟩ := List.append_subset.mp branches
      apply rules.bind (rules.evaluation tested test)
      intro v
      split
      · exact rules.forget (yesIH one first) (yes.subset_extend known)
      · exact rules.forget (noIH no rfl other second) (no.subset_extend known)
  | loop condition body ih =>
    obtain ⟨test, inside⟩ := closed
    obtain ⟨tested, turned⟩ := List.append_subset.mp within
    have kept := rules.forget (ih turned inside) (body.subset_extend known)
    exact rules.turn (rules.evaluation tested test) kept fuel

theorem execAll (rules : Rules all P) (fuel : Nat) {body : List Stmt}
    (within : partsAll body ⊆ all) (closed : ScopedAll known body) :
    P known known (execAll fuel body) :=
  rules.execAll_of_each (fun s _ _ => rules.exec fuel s) within closed

end Rules

end Stmt

end Scriptlet
