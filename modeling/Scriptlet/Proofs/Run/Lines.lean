import Scriptlet.Proofs.Run.Translation
import Scriptlet.Proofs.Syntax.Respelling

namespace Scriptlet

variable (move : Nat → Nat)

def RuntimeError.moved : RuntimeError → RuntimeError
  | operandNotNumber line => .operandNotNumber (move line)
  | operandsNotNumbers line => .operandsNotNumbers (move line)
  | invalidAddition line => .invalidAddition (move line)
  | divisionByZero line => .divisionByZero (move line)
  | undefinedVariable name line => .undefinedVariable name (move line)
  | sinkFull => .sinkFull

def Stop.moved : Stop → Stop
  | error e => .error (e.moved move)
  | stuck op => .stuck ((Respelling.lines move).apply op)
  | unfinished => .unfinished

def Run.moved {σ α : Type} (m : Run σ α) : Run σ α :=
  fun s => ((m s).1.mapError (Stop.moved move), (m s).2)

open Run

namespace Operator

theorem unary_moved (op : Token) (v : Value) :
    unary ((Respelling.lines move).apply op) v = (unary op v).mapError (Stop.moved move) := by
  simp only [unary, Respelling.kind_apply]
  split <;> rfl

theorem numeric_moved (op : Token) (x y : Float) :
    numeric ((Respelling.lines move).apply op) x y =
      (numeric op x y).mapError (Stop.moved move) := by
  simp only [numeric, Respelling.kind_apply]
  split
  case h_3 => split <;> rfl
  all_goals rfl

theorem add_moved (op : Token) (v w : Value) :
    add ((Respelling.lines move).apply op) v w = (add op v w).mapError (Stop.moved move) := by
  unfold add
  split <;> rfl

theorem binary_moved (op : Token) (v w : Value) :
    binary ((Respelling.lines move).apply op) v w =
      (binary op v w).mapError (Stop.moved move) := by
  simp only [binary, Respelling.kind_apply]
  split
  case h_4 => exact add_moved move op v w
  case h_5 =>
    split
    · exact numeric_moved move op _ _
    · rfl
  all_goals rfl

theorem decides_moved (op : Token) (v : Value) :
    decides ((Respelling.lines move).apply op) v = decides op v := by
  simp only [decides, Respelling.kind_apply]

end Operator

namespace Env

theorem read_moved (env : Env) (name : Token) :
    env.read ((Respelling.lines move).apply name) =
      (env.read name).mapError (Stop.moved move) := by
  unfold read
  simp only [Respelling.lines]
  split <;> rfl

theorem write_moved (name : Token) (v : Value) :
    write ((Respelling.lines move).apply name) v = (write name v).moved move := by
  funext env
  simp only [write, Run.moved, Respelling.lines]
  split <;> rfl

end Env

/-- Other lines of tokens, and with them other lines of errors. -/
def Translation.lines : Translation where
  op := (Respelling.lines move).apply
  name := (Respelling.lines move).apply
  env := id
  stop := Stop.moved move
  unary := Operator.unary_moved move
  binary := Operator.binary_moved move
  decides := Operator.decides_moved move
  read name env := Env.read_moved move env name
  write name v := congrFun (Env.write_moved move name v)
  define _ _ _ := rfl
  enter _ := rfl
  exit _ := rfl
  full := rfl
  unfinished := rfl

namespace Stmt

theorem execAll_respelled (fuel : Nat) (statements : List Stmt) :
    execAll fuel (statements.map (respelled (.lines move))) =
      (execAll fuel statements).moved move := by
  funext m
  exact (Translation.lines move).carries_execAll fuel statements m

theorem execAll_append (fuel : Nat) (first second : List Stmt) :
    execAll fuel (first ++ second) = execAll fuel first >>= fun _ => execAll fuel second := by
  induction first with
  | nil => rfl
  | cons s rest ih =>
    funext m
    rw [List.cons_append, execAll, execAll, ih]
    simp only [bind_apply]
    rcases s.exec fuel m with ⟨_ | _, t⟩ <;> rfl

end Stmt

end Scriptlet
