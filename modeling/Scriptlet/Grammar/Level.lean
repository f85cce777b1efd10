import Scriptlet.Syntax.Basic

namespace Scriptlet

inductive Level where
  | comma | assignment | conditional | or | and | equality | comparison | term | factor
  | unary | primary
deriving DecidableEq, Repr

namespace Level

def next : Level → Level
  | comma => assignment
  | assignment => conditional
  | conditional => or
  | or => and
  | and => equality
  | equality => comparison
  | comparison => term
  | term => factor
  | factor => unary
  | unary | primary => primary

/-- How many levels are tighter. -/
def rank : Level → Nat
  | comma => 10
  | assignment => 9
  | conditional => 8
  | or => 7
  | and => 6
  | equality => 5
  | comparison => 4
  | term => 3
  | factor => 2
  | unary => 1
  | primary => 0

/-- The node that an operator of the level makes of its operands. -/
def join (level : Level) (op : Token) (left right : Expr) : Expr :=
  match level with
  | or | and => .logical op left right
  | _ => .binary op left right

end Level

namespace Kind

/-- The level at which an operator joins two operands. -/
def level? : Kind → Option Level
  | comma => some .comma
  | kwOr => some .or
  | kwAnd => some .and
  | equalEqual | bangEqual => some .equality
  | greater | greaterEqual | less | lessEqual => some .comparison
  | plus | minus => some .term
  | star | slash => some .factor
  | _ => none

/-- The level of an operator that was plainly meant to join two operands when it stands where
an operand should start. -/
def orphanLevel? : Kind → Option Level
  | equalEqual | bangEqual => some .equality
  | greater | greaterEqual | less | lessEqual => some .comparison
  | plus => some .term
  | star | slash => some .factor
  | _ => none

def isUnary : Kind → Bool
  | bang | minus => true
  | _ => false

def startsStatement : Kind → Bool
  | kwClass | kwFun | kwVar | kwFor | kwIf | kwWhile | kwPrint | kwReturn => true
  | _ => false

end Kind

end Scriptlet
