import Scriptlet.Run.Basic
import Scriptlet.Value

namespace Scriptlet.Operator

/-- A minus negates numbers; any other operator negates truth. -/
def unary (op : Token) (v : Value) : Except Stop Value :=
  match op.kind, v with
  | .minus, .number x => .ok (.number (-x))
  | .minus, _ => .error (.error (.operandNotNumber op.line))
  | _, v => .ok (.bool !v.truthy)

/-- Arithmetic and comparison. Dividing by either zero is an error. -/
def numeric (op : Token) (x y : Float) : Except Stop Value :=
  match op.kind with
  | .minus => .ok (.number (x - y))
  | .star => .ok (.number (x * y))
  | .slash => if y == 0 then .error (.error (.divisionByZero op.line)) else .ok (.number (x / y))
  | .greater => .ok (.bool (x > y))
  | .greaterEqual => .ok (.bool (x ≥ y))
  | .less => .ok (.bool (x < y))
  | .lessEqual => .ok (.bool (x ≤ y))
  | _ => .error (.stuck op)

def add (op : Token) : Value → Value → Except Stop Value
  | .number x, .number y => .ok (.number (x + y))
  | .string s, .string t => .ok (.string (s ++ t))
  | _, _ => .error (.error (.invalidAddition op.line))

/-- Both operands have been evaluated; a comma keeps the right one. -/
def binary (op : Token) (left right : Value) : Except Stop Value :=
  match op.kind with
  | .comma => .ok right
  | .equalEqual => .ok (.bool (left.same right))
  | .bangEqual => .ok (.bool !left.same right)
  | .plus => add op left right
  | _ =>
    match left, right with
    | .number x, .number y => numeric op x y
    | _, _ => .error (.error (.operandsNotNumbers op.line))

/-- Whether the left operand decides the value alone: a true one under `or`, a false one
otherwise. -/
def decides (op : Token) (left : Value) : Bool :=
  if op.kind = .kwOr then left.truthy else !left.truthy

end Scriptlet.Operator
