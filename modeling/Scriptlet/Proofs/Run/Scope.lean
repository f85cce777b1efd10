import Mathlib.Data.List.Forall2
import Scriptlet.Proofs.Run.Effect

namespace Scriptlet

open Run

namespace Scope

def Binds (scope : Scope) (x : String) : Prop := (scope.get? x).isSome

theorem binds_set {scope : Scope} {x y : String} {v : Value} :
    (scope.set x v).Binds y ↔ y = x ∨ scope.Binds y := by
  unfold Binds
  by_cases same : y = x
  · simp [same, get?_set_self]
  · simp [same, get?_set_of_ne]

def SameNames (before after : Scope) : Prop := ∀ x, after.Binds x ↔ before.Binds x

instance : IsPreorder Scope SameNames where
  refl _ _ := Iff.rfl
  trans _ _ _ first second x := (second x).trans (first x)

theorem sameNames_set {scope : Scope} {x : String} (bound : scope.Binds x) (v : Value) :
    scope.SameNames (scope.set x v) := by
  intro y
  rw [binds_set]
  constructor
  · rintro (rfl | kept)
    · exact bound
    · exact kept
  · exact Or.inr

end Scope

theorem sameNames_trans {first second third : List Scope}
    (one : List.Forall₂ Scope.SameNames first second)
    (other : List.Forall₂ Scope.SameNames second third) :
    List.Forall₂ Scope.SameNames first third := by
  induction one generalizing third with
  | nil => exact other
  | cons same _ ih =>
    cases other with
    | cons again others => exact .cons (trans_of Scope.SameNames same again) (ih others)

namespace Env

/-- The chain is as deep as before. Enclosing scopes bind the same names, and the innermost one
the same or some of `names` more. -/
structure Keeps (names : List String) (before after : Env) : Prop where
  enclosing : List.Forall₂ Scope.SameNames before.enclosing after.enclosing
  bound : ∀ x, before.innermost.Binds x → after.innermost.Binds x
  fresh : ∀ x, after.innermost.Binds x → before.innermost.Binds x ∨ x ∈ names

namespace Keeps

variable {names more : List String} {before between after : Env}

instance : IsPreorder Env (Keeps names) where
  refl env := ⟨List.forall₂_refl env.enclosing, fun _ => id, fun _ => Or.inl⟩
  trans env between after first second := by
    constructor
    · exact sameNames_trans first.enclosing second.enclosing
    · intro x bound
      exact second.bound x (first.bound x bound)
    · intro x bound
      rcases second.fresh x bound with bound | new
      · exact first.fresh x bound
      · exact Or.inr new

theorem mono (h : before.Keeps names after) (subset : ∀ x ∈ names, x ∈ more) :
    before.Keeps more after :=
  ⟨h.enclosing, h.bound, fun x bound => (h.fresh x bound).imp_right (subset x)⟩

theorem depth_eq (h : before.Keeps names after) : after.depth = before.depth := by
  simp [depth, scopes, h.enclosing.length_eq]

theorem define (env : Env) (x : String) (v : Value) : env.Keeps [x] (env.define x v) := by
  constructor
  · exact List.forall₂_refl env.enclosing
  · intro y bound
    exact Scope.binds_set.mpr (Or.inr bound)
  · intro y bound
    rw [List.mem_singleton]
    exact (Scope.binds_set.mp bound).symm

theorem exit (h : before.enter.Keeps names after) : before.Keeps [] after.exit := by
  obtain ⟨innermost, enclosing⟩ := after
  have chain : List.Forall₂ Scope.SameNames (before.innermost :: before.enclosing) enclosing :=
    h.enclosing
  cases chain with
  | cons same others =>
    exact ⟨others, fun x => (same x).mpr, fun x bound => Or.inl ((same x).mp bound)⟩

end Keeps

theorem sameNames_update? {x : String} {v : Value} {scopes updated : List Scope}
    (h : update? x v scopes = some updated) : List.Forall₂ Scope.SameNames scopes updated := by
  induction scopes generalizing updated with
  | nil => cases h
  | cons scope rest ih =>
    rw [update?] at h
    split at h
    · rename_i bound
      obtain rfl := Option.some.inj h
      exact .cons (Scope.sameNames_set bound v) (List.forall₂_refl rest)
    · obtain ⟨others, found, rfl⟩ := Option.map_eq_some_iff.mp h
      exact .cons (refl_of Scope.SameNames scope) (ih found)

theorem keeps_assign? {env after : Env} {x : String} {v : Value}
    (h : env.assign? x v = some after) : env.Keeps [] after := by
  unfold assign? at h
  split at h
  · rename_i bound
    obtain rfl := Option.some.inj h
    have same := Scope.sameNames_set bound v
    exact ⟨List.forall₂_refl env.enclosing, fun y => (same y).mpr,
      fun y found => Or.inl ((same y).mp found)⟩
  · obtain ⟨scopes, found, rfl⟩ := Option.map_eq_some_iff.mp h
    exact ⟨sameNames_update? found, fun _ => id, fun _ => Or.inl⟩

theorem moves_write (name : Token) (v : Value) : Moves (Keeps []) (write name v) := by
  intro env
  unfold write
  cases assigned : env.assign? name.lexeme v with
  | none => exact refl_of (Keeps []) env
  | some after => exact keeps_assign? assigned

end Env

theorem Expr.moves_eval {R : Env → Env → Prop} [IsPreorder Env R]
    (written : ∀ name v, Moves R (Env.write name v)) (e : Expr) : Moves R e.eval :=
  e.moves_eval_of_parts fun name _ _ => written name

theorem effect_keeps : Effect fun _ => Env.Keeps where
  mono _ among kept := kept.mono among
  write name _ v := Env.moves_write name v
  define := Env.Keeps.define
  exit := Env.Keeps.exit

namespace Stmt

open Machine

theorem moves_execAll {fuel : Nat} {body : List Stmt}
    (each : ∀ s ∈ body, Moves (OnEnv (Env.Keeps s.declared)) (s.exec fuel)) :
    Moves (OnEnv (Env.Keeps (declaredAll body))) (execAll fuel body) :=
  effect_keeps.execAll_of_each each

theorem moves_exec (fuel : Nat) (s : Stmt) :
    Moves (OnEnv (Env.Keeps s.declared)) (s.exec fuel) := effect_keeps.exec fuel s

/-- However a run ends, no scope is lost or left behind, every name stays bound where it was, and
only names that are declared outside of blocks are new, in the innermost scope. -/
theorem scopes_kept (fuel : Nat) (m : Machine) :
    (∀ statements, m.env.Keeps (declaredAll statements) (execAll fuel statements m).2.env ∧
        (execAll fuel statements m).2.env.depth = m.env.depth) ∧
      (∀ s, m.env.Keeps (declared s) (exec fuel s m).2.env ∧
        (exec fuel s m).2.env.depth = m.env.depth) ∧
      (∀ body, m.env.Keeps [] (exec fuel (.block body) m).2.env) ∧
      (∀ e, m.env.Keeps [] (exec fuel (.expression e) m).2.env ∧
        m.env.Keeps [] (exec fuel (.print e) m).2.env ∧ m.env.Keeps [] (e.eval m.env).2) ∧
      ∀ statements scope,
        (execAll fuel statements { m with env := ⟨scope, []⟩ }).2.env.depth = 1 := by
  have one (s : Stmt) : m.env.Keeps (declared s) (exec fuel s m).2.env := moves_exec fuel s m
  have all (statements : List Stmt) (m : Machine) :
      m.env.Keeps (declaredAll statements) (execAll fuel statements m).2.env :=
    moves_execAll (fun s _ => moves_exec fuel s) m
  refine ⟨?_, ?_, ?_, ?_, ?_⟩
  · exact fun statements => ⟨all statements m, (all statements m).depth_eq⟩
  · exact fun s => ⟨one s, (one s).depth_eq⟩
  · exact fun body => one (.block body)
  · exact fun e => ⟨one (.expression e), one (.print e), e.moves_eval Env.moves_write m.env⟩
  · intro statements scope
    exact (all statements { m with env := ⟨scope, []⟩ }).depth_eq

example : exec 0 (.block [.declare ⟨.name, "a", none, 1⟩ none,
      .expression (.var ⟨.name, "b", none, 1⟩)]) .initial =
    (.error (.error (.undefinedVariable "b" 1)), .initial) := rfl

end Stmt

end Scriptlet
