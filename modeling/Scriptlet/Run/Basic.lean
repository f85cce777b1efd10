import Scriptlet.Token.Basic

/-!
Runs: computations on a state that may stop early. The state at the stop is kept, whatever
the reason.
-/

namespace Scriptlet

inductive RuntimeError where
  | operandNotNumber (line : Nat)
  | operandsNotNumbers (line : Nat)
  | invalidAddition (line : Nat)
  | divisionByZero (line : Nat)
  | undefinedVariable (name : String) (line : Nat)
  | sinkFull
deriving DecidableEq, Repr

namespace RuntimeError

def message : RuntimeError → String
  | operandNotNumber _ => "Operand must be a number."
  | operandsNotNumbers _ => "Operands must be numbers."
  | invalidAddition _ => "Operands must be two numbers or two strings."
  | divisionByZero _ => "Division by zero."
  | undefinedVariable name _ => "Undefined variable '" ++ name ++ "'."
  | sinkFull => "Could not write program output: sink is full"

def line? : RuntimeError → Option Nat
  | operandNotNumber line | operandsNotNumbers line | invalidAddition line
  | divisionByZero line | undefinedVariable _ line => some line
  | sinkFull => none

end RuntimeError

/-- Why a run stopped before its end: an error of the program, a node with an operator that
does not join two operands, or the bound on the turns of a loop. -/
inductive Stop where
  | error (e : RuntimeError)
  | stuck (op : Token)
  | unfinished
deriving DecidableEq, Repr

def Run (σ α : Type) : Type := σ → Except Stop α × σ

namespace Run

variable {σ α β : Type}

@[always_inline, inline]
protected def pure (a : α) : Run σ α := fun s => (.ok a, s)

@[always_inline, inline]
protected def bind (m : Run σ α) (f : α → Run σ β) : Run σ β := fun s =>
  match m s with
  | (.ok a, t) => f a t
  | (.error e, t) => (.error e, t)

instance : Monad (Run σ) where
  pure := Run.pure
  bind := Run.bind

theorem bind_apply (m : Run σ α) (f : α → Run σ β) (s : σ) :
    (m >>= f) s =
      match m s with
      | (.ok a, t) => f a t
      | (.error e, t) => (.error e, t) := rfl

end Run

end Scriptlet
