import Scriptlet.Proofs.Run.Rules

namespace Scriptlet

open Run Machine

theorem Expr.moves_eval_of_parts {R : Env → Env → Prop} [IsPreorder Env R] (e : Expr)
    (written : ∀ name value, .assign name value ∈ e.parts → ∀ v, Moves R (Env.write name v)) :
    Moves R e.eval := by
  have rules : Expr.Rules (· ∈ e.parts) (Moves R) :=
    { pure := .pure
      bind := .bind
      unary _ _ := .result _
      binary _ _ _ := .result _
      var _ := .result _
      assign v node := written _ _ node v }
  exact rules.eval e fun _ => id

/-- A relation between environments that no step of a run breaks. It may allow for the expressions
that are evaluated and for the names that are declared in the innermost scope. -/
structure Effect (R : List Expr → List String → Env → Env → Prop) : Prop where
  mono {parts more : List Expr} {names others : List String} {before after : Env} :
    parts ⊆ more → names ⊆ others → R parts names before after → R more others before after
  write (name : Token) (value : Expr) (v : Value) :
    Moves (R [.assign name value] []) (Env.write name v)
  define (env : Env) (x : String) (v : Value) : R [] [x] env (env.define x v)
  exit {parts : List Expr} {names : List String} {before after : Env} :
    R parts names before.enter after → R parts [] before after.exit

namespace Effect

variable {parts more : List Expr} {names others : List String}
  {R : List Expr → List String → Env → Env → Prop}

theorem widen {α : Type} {m : Run Machine α} (effect : Effect R)
    (h : Moves (OnEnv (R parts names)) m) (within : parts ⊆ more) (among : names ⊆ others) :
    Moves (OnEnv (R more others)) m :=
  h.mono fun _ _ => effect.mono within among

variable [∀ parts names, IsPreorder Env (R parts names)]

theorem eval (effect : Effect R) (e : Expr) : Moves (R e.parts []) e.eval := by
  refine e.moves_eval_of_parts fun name value part v => ?_
  have alone : [.assign name value] ⊆ e.parts := List.cons_subset.mpr ⟨part, List.nil_subset _⟩
  exact (effect.write name value v).mono fun _ _ => effect.mono alone (List.nil_subset [])

theorem evaluation (effect : Effect R) {e : Expr} (within : e.parts ⊆ more)
    (others : List String) : Moves (OnEnv (R more others)) (onEnv e.eval) :=
  effect.widen (moves_onEnv (effect.eval e)) within (List.nil_subset others)

theorem execAll_of_each (effect : Effect R) {fuel : Nat} {body : List Stmt}
    (each : ∀ s ∈ body, Moves (OnEnv (R s.parts s.declared)) (s.exec fuel)) :
    Moves (OnEnv (R (Stmt.partsAll body) (Stmt.declaredAll body))) (Stmt.execAll fuel body) := by
  induction body with
  | nil => exact Moves.pure ()
  | cons s rest ih =>
    have first := each s List.mem_cons_self
    have second := ih fun t member => each t (List.mem_cons_of_mem s member)
    apply (effect.widen first (List.subset_append_left _ _) (List.subset_append_left _ _)).bind
    intro _
    exact effect.widen second (List.subset_append_right _ _) (List.subset_append_right _ _)

theorem exec (effect : Effect R) (fuel : Nat) (s : Stmt) :
    Moves (OnEnv (R s.parts s.declared)) (s.exec fuel) := by
  induction s with
  | expression e => exact (effect.evaluation (List.Subset.refl _) []).bind fun _ => Moves.pure ()
  | print e =>
    exact (effect.evaluation (List.Subset.refl _) []).bind fun v => moves_printLine v.text
  | declare name initializer =>
    cases initializer with
    | none => exact moves_define fun env => effect.define env name.lexeme .nil
    | some e =>
      apply (effect.evaluation (List.Subset.refl _) [name.lexeme]).bind
      intro v
      apply moves_define
      intro env
      exact effect.mono (List.nil_subset _) (List.Subset.refl _) (effect.define env _ v)
  | block body ih =>
    exact moves_inScope (effect.execAll_of_each ih) fun _ _ => effect.exit
  | branch condition yes no yesIH noIH =>
    unfold Stmt.exec
    cases no with
    | none =>
      apply (effect.evaluation (List.subset_append_left _ _) _).bind
      intro v
      split
      · exact effect.widen yesIH (List.subset_append_right _ _) (List.Subset.refl _)
      · exact Moves.pure ()
    | some no =>
      apply (effect.evaluation (List.subset_append_left _ _) _).bind
      intro v
      split
      · exact effect.widen yesIH (by simp) (List.subset_append_left _ _)
      · exact effect.widen (noIH no rfl) (by simp) (List.subset_append_right _ _)
  | loop condition body ih =>
    have tested := effect.evaluation (List.subset_append_left condition.parts body.parts)
      body.declared
    have turned := effect.widen ih
      (List.subset_append_right condition.parts body.parts) (List.Subset.refl _)
    exact moves_turn tested turned fuel

end Effect

end Scriptlet
