import Scriptlet.Grammar.Expression

/-!
Statements from tokens. A statement that fails is dropped, and reading goes on where the next
one seems to start, so that one fault costs one statement.
-/

namespace Scriptlet

namespace Grammar

/-- Where reading goes on after a failure: behind the next semicolon, or before the next word
that starts a statement, but behind the first token in any case. -/
def resume : List Token → List Token
  | [] => []
  | t :: rest =>
    if t.kind = .semicolon || rest.head?.any (·.kind.startsStatement) then rest
    else resume rest

theorem resume_suffix (tokens : List Token) : resume tokens <:+ tokens := by
  induction tokens with
  | nil => exact List.suffix_rfl
  | cons t rest ih =>
    unfold resume
    split
    · exact List.suffix_cons t rest
    · exact ih.trans (List.suffix_cons t rest)

theorem resume_length (t : Token) (rest : List Token) :
    (resume (t :: rest)).length ≤ rest.length := by
  unfold resume
  split
  · exact Nat.le_refl _
  · exact (resume_suffix rest).length_le

end Grammar

open Grammar in
/-- Makes a step succeed: if it failed, with no value and with the tokens up to the next
statement skipped. -/
def Step.recover {t : Token} {tokens : List Token} (s : Step true (t :: tokens) α) :
    Step true (t :: tokens) (Option α) :=
  ⟨⟨some s.value, s.reports, if s.value.isSome then s.rest else resume s.rest⟩, by
    split
    · exact s.suffix
    · exact (resume_suffix _).trans s.suffix, fun _ => by
    split
    · rename_i found; exact s.progress found
    · obtain ⟨read, h⟩ := s.suffix
      cases hr : s.rest with
      | nil => simp [resume]
      | cons u rest =>
        have skipped := resume_length u rest
        have kept := s.suffix.length_le
        rw [hr] at kept
        simp only [List.length_cons, Bool.toNat_true] at *
        omega⟩

namespace Grammar

def declaration (tokens : List Token) : Step true tokens Stmt :=
  (Step.expect .name .missingName tokens).andThen fun name rest _ =>
    (Step.continueIf (· = .equal) none rest fun _ more _ =>
        (expression .comma more).map some).andThen fun initializer rest _ =>
      (Step.expect .semicolon .unendedDeclaration rest).map fun _ =>
        .declare name initializer

def printed (tokens : List Token) : Step true tokens Stmt :=
  (expression .comma tokens).andThen fun e rest _ =>
    (Step.expect .semicolon .unendedPrint rest).map fun _ => .print e

def lone (tokens : List Token) : Step true tokens Stmt :=
  (expression .comma tokens).andThen fun e rest _ =>
    (Step.expect .semicolon .unendedExpression rest).map fun _ => .expression e

def condition (unopened unclosed : Fault) (tokens : List Token) : Step true tokens Expr :=
  (Step.expect .leftParen unopened tokens).andThen fun _ rest _ =>
    (expression .comma rest).andThen fun e rest _ =>
      (Step.expect .rightParen unclosed rest).map fun _ => e

mutual

def statement (tokens : List Token) : Step true tokens Stmt :=
  match tokens with
  | [] => lone []
  | t :: more =>
    match t.kind with
    | .kwVar => (declaration more).after t
    | .kwPrint => (printed more).after t
    | .leftBrace =>
      ((statements true more).andThen fun body rest _ =>
        (Step.expect .rightBrace .unclosedBlock rest).map fun _ => .block body).after t
    | .kwIf =>
      ((condition .ifWithoutParen .unclosedIfCondition more).andThen fun e rest _ =>
        (statement rest).andThen fun yes rest _ =>
          Step.continueIf (· = .kwElse) (.branch e yes none) rest fun _ more _ =>
            (statement more).map fun no => .branch e yes (some no)).after t
    | .kwWhile =>
      ((condition .whileWithoutParen .unclosedWhileCondition more).andThen fun e rest _ =>
        (statement rest).map (.loop e)).after t
    | _ => lone (t :: more)
termination_by (tokens.length, 0)
decreasing_by
  all_goals
    simp only [Prod.lex_def, List.length_cons, Bool.toNat_true] at *
    omega

/-- All statements up to the end, or in a block up to its closing brace, without those that
failed. -/
def statements (inBlock : Bool) (tokens : List Token) : Step false tokens (List Stmt) :=
  match tokens with
  | [] => .done [] []
  | t :: more =>
    if inBlock && t.kind = .rightBrace then .done [] (t :: more)
    else
      ((statement (t :: more)).recover.andThen fun found rest _ =>
        (statements inBlock rest).map (found.toList ++ ·)).weaken
termination_by (tokens.length, 1)
decreasing_by
  all_goals
    simp only [Prod.lex_def, List.length_cons, Bool.toNat_true, true_and] at *
    omega

end

end Grammar

end Scriptlet
