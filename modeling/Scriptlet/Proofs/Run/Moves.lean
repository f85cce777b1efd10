import Mathlib.Order.Defs.Unbundled
import Scriptlet.Run.Statement

/-!
What a run does to the state, whatever its result. A relation between states that is a preorder
holds along a run as soon as it holds along each of its steps.
-/

namespace Scriptlet

namespace Run

variable {σ α β : Type} {R S : σ → σ → Prop}

/-- The state at the start of a run is related to the state at its end, however it ends. -/
def Moves (R : σ → σ → Prop) (m : Run σ α) : Prop := ∀ s, R s (m s).2

namespace Moves

theorem mono {m : Run σ α} (h : Moves R m) (weaken : ∀ s t, R s t → S s t) : Moves S m :=
  fun s => weaken s (m s).2 (h s)

variable [IsPreorder σ R]

theorem pure (a : α) : Moves R (pure a : Run σ α) := fun s => refl_of R s

theorem result (f : σ → Except Stop α) : Moves R fun s => (f s, s) := fun s => refl_of R s

theorem bind {m : Run σ α} {f : α → Run σ β} (first : Moves R m)
    (next : ∀ a, Moves R (f a)) : Moves R (m >>= f) := by
  intro s
  have moved := first s
  rw [bind_apply]
  rcases ran : m s with ⟨_ | a, t⟩
  · rwa [ran] at moved
  · rw [ran] at moved
    exact trans_of R moved (next a t)

end Moves

end Run

open Run

namespace Machine

variable {α : Type} {R S : Env → Env → Prop}

def OnEnv (R : Env → Env → Prop) (s t : Machine) : Prop := R s.env t.env

instance [IsPreorder Env R] : IsPreorder Machine (OnEnv R) where
  refl s := refl_of R s.env
  trans _ _ _ := trans_of R

theorem moves_onEnv {m : Run Env α} (h : Moves R m) : Moves (OnEnv R) (onEnv m) :=
  fun s => h s.env

theorem moves_printLine [IsPreorder Env R] (text : String) :
    Moves (OnEnv R) (printLine text) := fun s => refl_of R s.env

theorem moves_define {x : String} {v : Value} (defined : ∀ env : Env, R env (env.define x v)) :
    Moves (OnEnv R) (define x v) := fun s => defined s.env

theorem moves_inScope {body : Run Machine Unit} (inside : Moves (OnEnv R) body)
    (left : ∀ env after : Env, R env.enter after → S env after.exit) :
    Moves (OnEnv S) (inScope body) :=
  fun s => left s.env _ (inside { s with env := s.env.enter })

/-- A turn as steps of the run, one after the other. -/
theorem turn_succ (test : Run Machine Value) (body : Run Machine Unit) (fuel : Nat) :
    turn test body (fuel + 1) = test >>= fun v =>
      if v.truthy then body >>= fun _ => turn test body fuel else pure () := by
  funext s
  rw [turn, bind_apply]
  rcases test s with ⟨_ | v, t⟩
  · rfl
  · by_cases holds : v.truthy
    · simp only [holds, if_true, bind_apply]
      rcases body t with ⟨_ | _, u⟩ <;> rfl
    · simp only [holds, Bool.false_eq_true, if_false]
      rfl

theorem moves_turn {R : Machine → Machine → Prop} [IsPreorder Machine R]
    {test : Run Machine Value} {body : Run Machine Unit} (tested : Moves R test)
    (turned : Moves R body) (fuel : Nat) : Moves R (turn test body fuel) := by
  induction fuel with
  | zero => exact Moves.result fun _ => .error .unfinished
  | succ fuel ih =>
    rw [turn_succ]
    apply tested.bind
    intro v
    split
    · exact turned.bind fun _ => ih
    · exact Moves.pure ()

end Machine

end Scriptlet
