import Scriptlet.Proofs.Run.Moves
import Scriptlet.Proofs.Syntax.Names

namespace Scriptlet

open Run Machine

namespace Run

variable {σ α β : Type}

/-- The second run is the first one where that is not left unfinished. -/
def Prolongs (m n : Run σ α) : Prop := ∀ s, (m s).1 ≠ .error .unfinished → n s = m s

namespace Prolongs

theorem refl (m : Run σ α) : Prolongs m m := fun _ _ => rfl

theorem trans {m n o : Run σ α} (first : Prolongs m n) (second : Prolongs n o) :
    Prolongs m o := by
  intro s ended
  have same := first s ended
  rw [second s (same ▸ ended), same]

theorem bind {m n : Run σ α} {f g : α → Run σ β} (first : Prolongs m n)
    (next : ∀ a, Prolongs (f a) (g a)) : Prolongs (m >>= f) (n >>= g) := by
  intro s ended
  rw [bind_apply] at ended
  rw [bind_apply, bind_apply]
  rcases ran : m s with ⟨stop | a, t⟩
  · rw [ran] at ended
    have stopped : (m s).1 ≠ .error .unfinished := by
      rw [ran]
      exact fun same => ended (congrArg Except.error (Except.error.inj same))
    rw [first s stopped, ran]
  · rw [ran] at ended
    have same := first s (by rw [ran]; simp)
    rw [same, ran]
    exact next a t ended

end Prolongs

end Run

namespace Machine

theorem prolongs_inScope {body longer : Run Machine Unit} (inside : Prolongs body longer) :
    Prolongs (inScope body) (inScope longer) := by
  intro s ended
  have same := inside { s with env := s.env.enter } ended
  simp only [inScope, same]

theorem prolongs_turn {test : Run Machine Value} {body longer : Run Machine Unit}
    (inside : Prolongs body longer) (fuel : Nat) :
    Prolongs (turn test body fuel) (turn test longer (fuel + 1)) := by
  induction fuel with
  | zero => exact fun s ended => absurd rfl ended
  | succ fuel ih =>
    rw [turn_succ, turn_succ]
    apply (Prolongs.refl test).bind
    intro v
    split
    · exact inside.bind fun _ => ih
    · exact Prolongs.refl _

end Machine

namespace Stmt

theorem prolongs_execAll {fuel : Nat} {body : List Stmt}
    (each : ∀ s ∈ body, Prolongs (s.exec fuel) (s.exec (fuel + 1))) :
    Prolongs (execAll fuel body) (execAll (fuel + 1) body) := by
  induction body with
  | nil => exact Prolongs.refl _
  | cons s rest ih =>
    have others := ih fun t member => each t (List.mem_cons_of_mem s member)
    exact (each s List.mem_cons_self).bind fun _ => others

theorem prolongs_exec (fuel : Nat) (s : Stmt) : Prolongs (s.exec fuel) (s.exec (fuel + 1)) := by
  induction s with
  | expression | print => exact Prolongs.refl _
  | declare name initializer => cases initializer <;> exact Prolongs.refl _
  | block body ih => exact prolongs_inScope (prolongs_execAll ih)
  | branch condition yes no yesIH noIH =>
    unfold exec
    apply (Prolongs.refl (onEnv condition.eval)).bind
    intro v
    cases no with
    | none =>
      split
      · exact yesIH
      · exact Prolongs.refl _
    | some no =>
      split
      · exact yesIH
      · exact noIH no rfl
  | loop condition body ih => exact prolongs_turn ih fuel

theorem exec_of_le {fuel more : Nat} (le : fuel ≤ more) (s : Stmt) :
    Prolongs (s.exec fuel) (s.exec more) := by
  induction le with
  | refl => exact Prolongs.refl _
  | step _ ih => exact ih.trans (prolongs_exec _ s)

theorem execAll_of_le {fuel more : Nat} (le : fuel ≤ more) (statements : List Stmt) :
    Prolongs (execAll fuel statements) (execAll more statements) := by
  induction le with
  | refl => exact Prolongs.refl _
  | step _ ih => exact ih.trans (prolongs_execAll fun s _ => prolongs_exec _ s)

end Stmt

end Scriptlet
