import Scriptlet.Proofs.Syntax.Canonical

namespace Scriptlet

open Terminal

/-- The node stands in the tree, with these terminals before it and those behind it. -/
inductive Expr.Inside (node : Expr) : Expr → List Terminal → List Terminal → Prop where
  | here : Inside node node [] []
  | unary {op : Token} {operand : Expr} {front back : List Terminal} :
    Inside node operand front back → Inside node (.unary op operand) (.kept op :: front) back
  | binaryLeft {op : Token} {left right : Expr} {front back : List Terminal} :
    Inside node left front back →
      Inside node (.binary op left right) front (back ++ .kept op :: right.yield)
  | binaryRight {op : Token} {left right : Expr} {front back : List Terminal} :
    Inside node right front back →
      Inside node (.binary op left right) (left.yield ++ .kept op :: front) back
  | logicalLeft {op : Token} {left right : Expr} {front back : List Terminal} :
    Inside node left front back →
      Inside node (.logical op left right) front (back ++ .kept op :: right.yield)
  | logicalRight {op : Token} {left right : Expr} {front back : List Terminal} :
    Inside node right front back →
      Inside node (.logical op left right) (left.yield ++ .kept op :: front) back
  | condition {condition yes no : Expr} {front back : List Terminal} :
    Inside node condition front back →
      Inside node (.conditional condition yes no) front
        (back ++ .word .question :: (yes.yield ++ .word .colon :: no.yield))
  | yes {condition yes no : Expr} {front back : List Terminal} :
    Inside node yes front back →
      Inside node (.conditional condition yes no) (condition.yield ++ .word .question :: front)
        (back ++ .word .colon :: no.yield)
  | no {condition yes no : Expr} {front back : List Terminal} :
    Inside node no front back →
      Inside node (.conditional condition yes no)
        (condition.yield ++ .word .question :: (yes.yield ++ .word .colon :: front)) back
  | group {inner : Expr} {front back : List Terminal} :
    Inside node inner front back →
      Inside node (.group inner) (.word .leftParen :: front) (back ++ [.word .rightParen])
  | assign {name : Token} {value : Expr} {front back : List Terminal} :
    Inside node value front back →
      Inside node (.assign name value) (.kept name :: .word .equal :: front) back

/-- The same of a simple statement that has an expression. -/
inductive Stmt.Holds (node : Expr) : Stmt → List Terminal → List Terminal → Prop where
  | expression {e : Expr} {front back : List Terminal} :
    node.Inside e front back → Holds node (.expression e) front (back ++ [.word .semicolon])
  | print {e : Expr} {front back : List Terminal} :
    node.Inside e front back →
      Holds node (.print e) (.word .kwPrint :: front) (back ++ [.word .semicolon])
  | declare {name : Token} {e : Expr} {front back : List Terminal} :
    node.Inside e front back →
      Holds node (.declare name (some e)) (.word .kwVar :: .kept name :: .word .equal :: front)
        (back ++ [.word .semicolon])

variable {node : Expr} {front back : List Terminal}

theorem Expr.Inside.yield_eq {e : Expr} (inside : node.Inside e front back) :
    e.yield = front ++ node.yield ++ back := by
  induction inside with
  | here => simp
  | _ _ ih => simp [yield, ih]

theorem Stmt.Holds.yield_eq {s : Stmt} (holds : s.Holds node front back) :
    s.yield = front ++ node.yield ++ back := by
  cases holds with
  | _ inside => simp [yield, inside.yield_eq]

end Scriptlet
