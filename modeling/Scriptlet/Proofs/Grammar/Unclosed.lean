import Scriptlet.Proofs.Grammar.Invariant

/-!
Blocks that stand open where the tokens end. They are counted along the statements that are read,
as what is skipped after a fault may hold braces, and each of them is reported there.
-/

namespace Scriptlet

open Outcome

variable {α β : Type}

namespace Grammar

mutual

/-- How many of the blocks that begin in a statement are not closed before the end. -/
def openIn (tokens : List Token) : Nat :=
  match tokens with
  | [] => 0
  | t :: more =>
    match t.kind with
    | .leftBrace => openAmong true more + if (readStmts true more).rest = [] then 1 else 0
    | .kwIf =>
      let test := readCondition .ifWithoutParen .unclosedIfCondition more
      have _shorter := (readCondition_suffix .ifWithoutParen .unclosedIfCondition more).length_le
      if test.value.isSome then
        let yes := readStmt test.rest
        have _kept := (readStmt_suffix test.rest).length_le
        openIn test.rest +
          if yes.value.isSome then
            if yes.rest.head?.any (·.kind = .kwElse) then openIn yes.rest.tail else 0
          else 0
      else 0
    | .kwWhile =>
      let test := readCondition .whileWithoutParen .unclosedWhileCondition more
      have _shorter :=
        (readCondition_suffix .whileWithoutParen .unclosedWhileCondition more).length_le
      if test.value.isSome then openIn test.rest else 0
    | _ => 0
termination_by (tokens.length, 0)
decreasing_by
  all_goals
    simp +zetaDelta only [Prod.lex_def, List.length_cons, List.length_tail] at *
    omega

/-- The same of all statements up to the end, or in a block up to its closing brace. -/
def openAmong (inBlock : Bool) (tokens : List Token) : Nat :=
  match tokens with
  | [] => 0
  | t :: more =>
    if inBlock && t.kind = .rightBrace then 0
    else
      have _shorter := recover_shortens t more
      openIn (t :: more) + openAmong inBlock (readStmt (t :: more)).recover.rest
termination_by (tokens.length, 1)
decreasing_by
  all_goals
    simp only [Prod.lex_def, List.length_cons, true_and] at *
    omega

end

section

variable {t : Token}

theorem openIn_simple (simple : t.kind ≠ .leftBrace ∧ t.kind ≠ .kwIf ∧ t.kind ≠ .kwWhile)
    (more : List Token) : openIn (t :: more) = 0 := by
  rw [openIn]
  split <;> simp_all

theorem openIn_block (kind : t.kind = .leftBrace) (more : List Token) :
    openIn (t :: more) =
      openAmong true more + if (readStmts true more).rest = [] then 1 else 0 := by
  rw [openIn]
  simp only [kind]

theorem openIn_if (kind : t.kind = .kwIf) (more : List Token) :
    openIn (t :: more) =
      let test := readCondition .ifWithoutParen .unclosedIfCondition more
      if test.value.isSome then
        let yes := readStmt test.rest
        openIn test.rest +
          if yes.value.isSome then
            if yes.rest.head?.any (·.kind = .kwElse) then openIn yes.rest.tail else 0
          else 0
      else 0 := by
  rw [openIn]
  simp only [kind]

theorem openIn_while (kind : t.kind = .kwWhile) (more : List Token) :
    openIn (t :: more) =
      let test := readCondition .whileWithoutParen .unclosedWhileCondition more
      if test.value.isSome then openIn test.rest else 0 := by
  rw [openIn]
  simp only [kind]

end

end Grammar

namespace Outcome

def unclosed (o : Outcome α) : Nat := o.reports.countP (·.fault = .unclosedBlock)

section

variable {o : Outcome α} {n : Nat}

theorem unclosed_of_among {faults : List Fault} {I failed : List Token → Prop}
    {found : α → List Token → Prop} (h : o.Ensures (Report.Among faults I) failed found)
    (other : .unclosedBlock ∉ faults) : o.unclosed = 0 := by
  apply List.countP_eq_zero.mpr
  intro r member
  have known := (h.reports r member).1
  grind

theorem unclosed_bind {f : α → List Token → Outcome β}
    (next : ∀ a, o.value = some a → (f a o.rest).unclosed = n) :
    (o.bind f).unclosed = o.unclosed + if o.value.isSome then n else 0 := by
  cases value : o.value with
  | none => rw [bind_of_failed value]; rfl
  | some a =>
    rw [bind_of_found value, ← next a value]
    exact List.countP_append

theorem unclosed_continueIf {wanted : Kind → Bool} {a : α} {f : Token → List Token → Outcome α}
    {tokens : List Token} (next : ∀ t more, tokens = t :: more → (f t more).unclosed = n) :
    (continueIf wanted a f tokens).unclosed =
      if tokens.head?.any (wanted ·.kind) then n else 0 := by
  cases tokens with
  | nil => rfl
  | cons t more =>
    cases asked : wanted t.kind with
    | true => simpa [continueIf, asked] using next t more rfl
    | false => simp [continueIf, asked, done, unclosed]

end

end Outcome

namespace Grammar

theorem unclosed_condition (unopened unclosed : Fault)
    (other : .unclosedBlock ∉ [unopened, unclosed]) (tokens : List Token) :
    (readCondition unopened unclosed tokens).unclosed = 0 := by
  apply unclosed_of_among (readCondition_keeps (I := fun _ => True) (fun _ _ _ => id) _ _ trivial)
  grind [Fault.ofExpr]

theorem unclosed_branches (tokens : List Token)
    (one : ∀ more, more.length ≤ tokens.length → (readStmt more).unclosed = openIn more)
    (e : Expr) :
    ((readStmt tokens).bind fun yes =>
      continueIf (· = .kwElse) (Stmt.branch e yes none) fun _ more =>
        (readStmt more).map fun no => Stmt.branch e yes (some no)).unclosed =
      openIn tokens +
        if (readStmt tokens).value.isSome then
          if (readStmt tokens).rest.head?.any (·.kind = .kwElse) then
            openIn (readStmt tokens).rest.tail
          else 0
        else 0 := by
  rw [unclosed_bind, one tokens (Nat.le_refl _)]
  intro yes _
  apply unclosed_continueIf
  intro t more cut
  have kept := (readStmt_suffix tokens).length_le
  rw [cut] at kept
  rw [cut, List.tail_cons]
  exact one more (Nat.le_of_succ_le kept)

theorem unclosed_statement (tokens : List Token)
    (one : ∀ more, more.length < tokens.length → (readStmt more).unclosed = openIn more)
    (all : ∀ inBlock more, more.length < tokens.length →
      (readStmts inBlock more).unclosed = openAmong inBlock more) :
    (readStmt tokens).unclosed = openIn tokens := by
  cases tokens with
  | nil =>
    rw [readStmt_nil, openIn]
    exact unclosed_of_among
      (readEnded_keeps (I := fun _ => True) (fun _ _ _ => id) (by decide) _ trivial) (by decide)
  | cons t more =>
    by_cases isBlock : t.kind = .leftBrace
    · obtain ⟨body, found⟩ := readStmts_found true more
      have ends := readStmts_ends true more
      rw [readStmt_block isBlock, openIn_block isBlock,
        unclosed_bind (n := if (readStmts true more).rest = [] then 1 else 0),
        all true more (Nat.lt_succ_self _), found]
      · rfl
      · intro body _
        cases left : (readStmts true more).rest with
        | nil => rfl
        | cons u rest =>
          rw [left] at ends
          rw [expect_cons (ends u rfl).2]
          rfl
    by_cases isIf : t.kind = .kwIf
    · have shorter := (readCondition_suffix .ifWithoutParen .unclosedIfCondition more).length_le
      rw [readStmt_if isIf, openIn_if isIf, unclosed_bind, unclosed_condition _ _ (by decide),
        Nat.zero_add]
      intro e _
      apply unclosed_branches
      exact fun left fewer => one left (Nat.lt_succ_of_le (Nat.le_trans fewer shorter))
    by_cases isWhile : t.kind = .kwWhile
    · have shorter :=
        (readCondition_suffix .whileWithoutParen .unclosedWhileCondition more).length_le
      rw [readStmt_while isWhile, openIn_while isWhile, unclosed_bind,
        unclosed_condition _ _ (by decide), Nat.zero_add]
      exact fun e _ => one _ (Nat.lt_succ_of_le shorter)
    · have simple : t.kind ≠ .leftBrace ∧ t.kind ≠ .kwIf ∧ t.kind ≠ .kwWhile :=
        ⟨isBlock, isIf, isWhile⟩
      rw [openIn_simple simple]
      exact unclosed_of_among (readStmt_simple_keeps (I := fun _ => True) (fun _ _ _ => id) simple
        (fun _ => id) trivial) (by decide)

theorem unclosed_statements (inBlock : Bool) (tokens : List Token)
    (one : (readStmt tokens).unclosed = openIn tokens)
    (all : ∀ more, more.length < tokens.length →
      (readStmts inBlock more).unclosed = openAmong inBlock more) :
    (readStmts inBlock tokens).unclosed = openAmong inBlock tokens := by
  cases tokens with
  | nil => rw [readStmts_nil, openAmong]; rfl
  | cons t more =>
    rw [readStmts_cons, openAmong]
    split
    · rfl
    · rw [unclosed_bind, ← one]
      · rfl
      · exact fun _ _ => all _ (recover_shortens t more)

/-- Every block that stands open at the end is reported, and no other one. -/
theorem unclosed_eq_open (inBlock : Bool) (tokens : List Token) :
    (readStmts inBlock tokens).unclosed = openAmong inBlock tokens :=
  (stmt_induction unclosed_statement unclosed_statements).2 inBlock tokens

end Grammar

end Scriptlet
