import Scriptlet.Grammar.Level
import Scriptlet.Grammar.Step

namespace Scriptlet

/-- The expression that a token is by itself. A number or string has to carry its value. -/
def Expr.ofToken? (t : Token) : Option Expr :=
  match t.kind, t.literal with
  | .kwFalse, _ => some (.bool false)
  | .kwTrue, _ => some (.bool true)
  | .kwNil, _ => some .nil
  | .number, some (.number x) => some (.number x)
  | .string, some (.string s) => some (.string s)
  | .name, _ => some (.var t)
  | _, _ => none

namespace Grammar

/-- Gives a target its value. What cannot be assigned to is reported at the `=` and stays as
it is, without the value. -/
def assign (target value : Expr) (equal rest : List Token) : Step false rest Expr :=
  match target with
  | .var name => .done (.assign name value) rest
  | _ => { Step.done target rest with reports := [⟨.invalidTarget, equal⟩] }

mutual

def expression (level : Level) (tokens : List Token) : Step true tokens Expr :=
  match _here : level with
  | .comma | .or | .and | .equality | .comparison | .term | .factor =>
    (expression level.next tokens).andThen fun left rest _ => operations level left rest
  | .assignment =>
    (expression .conditional tokens).andThen fun target rest _ =>
      Step.continueIf (· = .equal) target rest fun t more _ =>
        (expression .assignment more).andThen fun value last _ =>
          assign target value (t :: more) last
  | .conditional =>
    (expression .or tokens).andThen fun condition rest _ =>
      Step.continueIf (· = .question) condition rest fun _ more _ =>
        (expression .comma more).andThen fun yes rest _ =>
          (Step.expect .colon .missingColon rest).andThen fun _ rest _ =>
            (expression .comma rest).map (Expr.conditional condition yes)
  | .unary =>
    match tokens with
    | [] => .fail .expectedExpression []
    | t :: rest =>
      if t.kind.isUnary then ((expression .primary rest).map (Expr.unary t)).after t
      else expression .primary (t :: rest)
  | .primary =>
    match tokens with
    | [] => .fail .expectedExpression []
    | t :: rest =>
      match Expr.ofToken? t, t.kind.orphanLevel? with
      | some e, _ => (Step.done e rest).after t
      | none, some level =>
        ((expression level rest).discard ⟨.missingLeftOperand, t :: rest⟩).after t
      | none, none =>
        if t.kind = .leftParen then
          ((expression .comma rest).andThen fun inner rest _ =>
            (Step.expect .rightParen .unclosedGroup rest).map fun _ => .group inner).after t
        else .fail .expectedExpression (t :: rest)
termination_by (tokens.length, level.rank + 1)
decreasing_by
  all_goals
    try subst _here
    simp only [Prod.lex_def, Level.rank, Level.next, List.length_cons, Bool.toNat_true,
      true_and] at *
    omega

/-- The operators of the level that follow `left`, each taking all before it as its left
operand. -/
def operations (level : Level) (left : Expr) (tokens : List Token) : Step false tokens Expr :=
  Step.continueIf (·.level? = some level) left tokens fun t more _ =>
    (expression level.next more).andThen fun right rest _ =>
      operations level (level.join t left right) rest
termination_by (tokens.length, 0)
decreasing_by
  all_goals
    simp only [Prod.lex_def, Bool.toNat_true] at *
    omega

end

end Grammar

end Scriptlet
