import Scriptlet.Grammar.Statement

/-!
Reading as plain functions from tokens to outcomes. The steps of the grammar carry proofs in
their types; here each rule is an equation between outcomes, so that a property of reading is
proved rule by rule, by `expr_induction` or `stmt_induction`.
-/

namespace Scriptlet

namespace Outcome

variable {α β γ : Type}

def done (a : α) (tokens : List Token) : Outcome α := ⟨some a, [], tokens⟩

def fail (fault : Fault) (tokens : List Token) : Outcome α := ⟨none, [⟨fault, tokens⟩], tokens⟩

def expect (kind : Kind) (fault : Fault) : List Token → Outcome Token
  | [] => fail fault []
  | t :: rest => if t.kind = kind then done t rest else fail fault (t :: rest)

def continueIf (wanted : Kind → Bool) (a : α) (f : Token → List Token → Outcome α) :
    List Token → Outcome α
  | [] => done a []
  | t :: more => if wanted t.kind then f t more else done a (t :: more)

theorem continueIf_of_other {wanted : Kind → Bool} {tokens : List Token}
    (other : ∀ t ∈ tokens.head?, wanted t.kind = false) (a : α)
    (f : Token → List Token → Outcome α) : continueIf wanted a f tokens = done a tokens := by
  cases tokens with
  | nil => rfl
  | cons t more => simp [continueIf, other t (by simp)]

theorem continueIf_cons {wanted : Kind → Bool} {t : Token} (asked : wanted t.kind) (a : α)
    (f : Token → List Token → Outcome α) (more : List Token) :
    continueIf wanted a f (t :: more) = f t more := by simp [continueIf, asked]

theorem expect_cons {kind : Kind} {t : Token} (same : t.kind = kind) (fault : Fault)
    (more : List Token) : expect kind fault (t :: more) = done t more := by simp [expect, same]

def discard (report : Report) (o : Outcome α) : Outcome β := ⟨none, report :: o.reports, o.rest⟩

def recover (o : Outcome α) : Outcome (Option α) :=
  ⟨some o.value, o.reports, if o.value.isSome then o.rest else Grammar.resume o.rest⟩

@[simp] theorem done_bind (a : α) (tokens : List Token) (f : α → List Token → Outcome β) :
    (done a tokens).bind f = f a tokens := by simp [done, bind]

@[simp] theorem fail_bind (fault : Fault) (tokens : List Token)
    (f : α → List Token → Outcome β) : (fail fault tokens : Outcome α).bind f = fail fault tokens :=
  rfl

@[simp] theorem map_done (f : α → β) (a : α) (tokens : List Token) :
    (done a tokens).map f = done (f a) tokens := rfl

@[simp] theorem map_fail (f : α → β) (fault : Fault) (tokens : List Token) :
    (fail fault tokens).map f = fail fault tokens := rfl

@[simp] theorem recover_done (a : α) (tokens : List Token) :
    (done a tokens).recover = done (some a) tokens := rfl

theorem bind_of_failed {o : Outcome α} (failed : o.value = none)
    (f : α → List Token → Outcome β) : o.bind f = ⟨none, o.reports, o.rest⟩ := by
  simp [bind, failed]

theorem bind_of_found {o : Outcome α} {a : α} (found : o.value = some a)
    (f : α → List Token → Outcome β) :
    o.bind f = ⟨(f a o.rest).value, o.reports ++ (f a o.rest).reports, (f a o.rest).rest⟩ := by
  simp [bind, found]

theorem bind_found_iff {o : Outcome α} {f : α → List Token → Outcome β} {b : β} :
    (o.bind f).value = some b ↔ ∃ a, o.value = some a ∧ (f a o.rest).value = some b := by
  cases found : o.value <;> simp [bind, found]

theorem map_eq_bind (f : α → β) (o : Outcome α) :
    o.map f = o.bind fun a rest => done (f a) rest := by
  obtain ⟨value, reports, rest⟩ := o
  cases value <;> simp [map, bind, done]

end Outcome

namespace Step

variable {strict : Bool} {tokens : List Token} {α β : Type}

@[simp] theorem toOutcome_done (a : α) (tokens : List Token) :
    (done a tokens).toOutcome = .done a tokens := rfl

@[simp] theorem toOutcome_fail (fault : Fault) (tokens : List Token) :
    (fail fault tokens : Step strict tokens α).toOutcome = .fail fault tokens := rfl

@[simp] theorem toOutcome_discard (report : Report) (s : Step strict tokens α) :
    (s.discard report : Step false tokens β).toOutcome = s.toOutcome.discard report := rfl

@[simp] theorem toOutcome_expect (kind : Kind) (fault : Fault) (tokens : List Token) :
    (expect kind fault tokens).toOutcome = .expect kind fault tokens := by
  cases tokens with
  | nil => rfl
  | cons t rest => by_cases fits : t.kind = kind <;> simp [expect, Outcome.expect, fits]

@[simp] theorem toOutcome_recover {t : Token} (s : Step true (t :: tokens) α) :
    s.recover.toOutcome = s.toOutcome.recover := rfl

theorem toOutcome_continueIf (wanted : Kind → Bool) (a : α) (tokens : List Token)
    (f : (t : Token) → (more : List Token) → more.length < tokens.length → Step strict more α)
    (g : Token → List Token → Outcome α)
    (same : ∀ t more short, (f t more short).toOutcome = g t more) :
    (continueIf wanted a tokens f).toOutcome = .continueIf wanted a g tokens := by
  cases tokens with
  | nil => rfl
  | cons t more =>
    by_cases goes : wanted t.kind <;> simp [continueIf, Outcome.continueIf, goes, same]

end Step

namespace Level

def joins : Level → Bool
  | comma | or | and | equality | comparison | term | factor => true
  | _ => false

theorem joins_of_level? {kind : Kind} {level : Level} (h : kind.level? = some level) :
    level.joins := by
  cases kind <;> simp only [Kind.level?, Option.some.injEq, reduceCtorEq] at h <;> subst h <;> rfl

theorem rank_next {level : Level} (loose : level ≠ .primary) :
    level.next.rank + 1 = level.rank := by
  cases level <;> first | rfl | exact absurd rfl loose

theorem rank_le (level : Level) : level.rank ≤ 10 := by cases level <;> decide

/-- A property of the tightest level that every level takes over from its operands. -/
theorem tightening {p : Level → Prop} (primary : p primary)
    (step : ∀ level, level ≠ .primary → p level.next → p level) (level : Level) : p level := by
  induction h : level.rank generalizing level with
  | zero => cases level <;> first | exact primary | simp [rank] at h
  | succ n ih =>
    have loose : level ≠ .primary := by rintro rfl; simp [rank] at h
    have tighter := rank_next loose
    exact step level loose (ih level.next (by omega))

theorem rank_injective : ∀ a b : Level, a.rank = b.rank → a = b := by
  intro a b same
  cases a <;> cases b <;> first | rfl | simp [rank] at same

end Level

namespace Grammar

def readExpr (level : Level) (tokens : List Token) : Outcome Expr :=
  (expression level tokens).toOutcome

def readOperations (level : Level) (left : Expr) (tokens : List Token) : Outcome Expr :=
  (operations level left tokens).toOutcome

def readStmt (tokens : List Token) : Outcome Stmt := (statement tokens).toOutcome

def readStmts (inBlock : Bool) (tokens : List Token) : Outcome (List Stmt) :=
  (statements inBlock tokens).toOutcome

theorem readExpr_joins {level : Level} (joins : level.joins) (tokens : List Token) :
    readExpr level tokens = (readExpr level.next tokens).bind (readOperations level) := by
  cases level <;> simp only [Level.joins, Bool.false_eq_true] at joins <;>
    (rw [readExpr, expression]; exact Step.toOutcome_andThen _ _ _ fun _ _ _ => rfl)

theorem readExpr_assignment (tokens : List Token) :
    readExpr .assignment tokens =
      (readExpr .conditional tokens).bind fun target =>
        Outcome.continueIf (· = .equal) target fun t more =>
          (readExpr .assignment more).bind fun value last =>
            (assign target value (t :: more) last).toOutcome := by
  rw [readExpr, expression]
  apply Step.toOutcome_andThen
  intro target rest _
  apply Step.toOutcome_continueIf
  intro t more _
  exact Step.toOutcome_andThen _ _ _ fun _ _ _ => rfl

theorem readExpr_conditional (tokens : List Token) :
    readExpr .conditional tokens =
      (readExpr .or tokens).bind fun condition =>
        Outcome.continueIf (· = .question) condition fun _ more =>
          (readExpr .comma more).bind fun yes rest =>
            (Outcome.expect .colon .missingColon rest).bind fun _ rest =>
              (readExpr .comma rest).map (Expr.conditional condition yes) := by
  rw [readExpr, expression]
  apply Step.toOutcome_andThen
  intro condition rest _
  apply Step.toOutcome_continueIf
  intro t more _
  apply Step.toOutcome_andThen
  intro yes rest _
  rw [← Step.toOutcome_expect]
  exact Step.toOutcome_andThen _ _ _ fun _ _ _ => rfl

theorem readExpr_unary_nil : readExpr .unary [] = .fail .expectedExpression [] := by
  rw [readExpr, expression]; rfl

theorem readExpr_unary_cons (t : Token) (rest : List Token) :
    readExpr .unary (t :: rest) =
      if t.kind.isUnary then (readExpr .primary rest).map (Expr.unary t)
      else readExpr .primary (t :: rest) := by
  rw [readExpr, expression]
  split <;> rfl

theorem readExpr_primary_nil : readExpr .primary [] = .fail .expectedExpression [] := by
  rw [readExpr, expression]; rfl

section Primary

variable {t : Token}

theorem readExpr_primary_atom {e : Expr} (known : Expr.ofToken? t = some e) (rest : List Token) :
    readExpr .primary (t :: rest) = .done e rest := by
  rw [readExpr, expression]
  simp [known]

theorem readExpr_primary_orphan {level : Level} (unknown : Expr.ofToken? t = none)
    (orphan : t.kind.orphanLevel? = some level) (rest : List Token) :
    readExpr .primary (t :: rest) =
      (readExpr level rest).discard ⟨.missingLeftOperand, t :: rest⟩ := by
  rw [readExpr, expression]
  simp [unknown, orphan, readExpr]

theorem readExpr_primary_group (opens : t.kind = .leftParen) (rest : List Token) :
    readExpr .primary (t :: rest) =
      (readExpr .comma rest).bind fun inner rest =>
        (Outcome.expect .rightParen .unclosedGroup rest).map fun _ => .group inner := by
  have unknown : Expr.ofToken? t = none := by simp [Expr.ofToken?, opens]
  have proper : t.kind.orphanLevel? = none := by rw [opens]; rfl
  rw [readExpr, expression]
  simp only [unknown, proper, if_pos opens, Step.toOutcome_after]
  exact Step.toOutcome_andThen _ _ _ fun inner rest _ => by simp

theorem readExpr_primary_stray (unknown : Expr.ofToken? t = none)
    (proper : t.kind.orphanLevel? = none) (closed : t.kind ≠ .leftParen) (rest : List Token) :
    readExpr .primary (t :: rest) = .fail .expectedExpression (t :: rest) := by
  rw [readExpr, expression]
  simp only [unknown, proper, if_neg closed]
  rfl

end Primary

theorem readOperations_eq (level : Level) (left : Expr) (tokens : List Token) :
    readOperations level left tokens =
      Outcome.continueIf (·.level? = some level) left (fun t more =>
        (readExpr level.next more).bind fun right =>
          readOperations level (level.join t left right)) tokens := by
  rw [readOperations, operations]
  apply Step.toOutcome_continueIf
  intro t more _
  exact Step.toOutcome_andThen _ _ _ fun _ _ _ => rfl

@[simp] theorem toOutcome_assign_var (name : Token) (value : Expr) (equal rest : List Token) :
    (assign (.var name) value equal rest).toOutcome = .done (.assign name value) rest := rfl

theorem toOutcome_assign_other {target : Expr} (other : ∀ name, target ≠ .var name)
    (value : Expr) (equal rest : List Token) :
    (assign target value equal rest).toOutcome =
      ⟨some target, [⟨.invalidTarget, equal⟩], rest⟩ := by
  cases target with
  | var name => exact absurd rfl (other name)
  | _ => rfl

def readEnded (fault : Fault) (node : Expr → Stmt) (tokens : List Token) : Outcome Stmt :=
  (readExpr .comma tokens).bind fun e rest =>
    (Outcome.expect .semicolon fault rest).map fun _ => node e

def readDeclaration (tokens : List Token) : Outcome Stmt :=
  (Outcome.expect .name .missingName tokens).bind fun name rest =>
    (Outcome.continueIf (· = .equal) none
      (fun _ more => (readExpr .comma more).map some) rest).bind fun initializer rest =>
        (Outcome.expect .semicolon .unendedDeclaration rest).map fun _ =>
          .declare name initializer

def readCondition (unopened unclosed : Fault) (tokens : List Token) : Outcome Expr :=
  (Outcome.expect .leftParen unopened tokens).bind fun _ rest =>
    (readExpr .comma rest).bind fun e rest =>
      (Outcome.expect .rightParen unclosed rest).map fun _ => e

theorem toOutcome_lone (tokens : List Token) :
    (lone tokens).toOutcome = readEnded .unendedExpression .expression tokens := by
  apply Step.toOutcome_andThen
  intro e rest _
  simp

theorem toOutcome_printed (tokens : List Token) :
    (printed tokens).toOutcome = readEnded .unendedPrint .print tokens := by
  apply Step.toOutcome_andThen
  intro e rest _
  simp

theorem toOutcome_declaration (tokens : List Token) :
    (declaration tokens).toOutcome = readDeclaration tokens := by
  unfold readDeclaration
  rw [← Step.toOutcome_expect]
  apply Step.toOutcome_andThen
  intro name rest _
  have initialized := Step.toOutcome_continueIf (· = .equal) none rest
    (fun _ more _ => (expression .comma more).map some)
    (fun _ more => (readExpr .comma more).map some) fun _ _ _ => rfl
  rw [← initialized]
  apply Step.toOutcome_andThen
  intro initializer rest _
  simp

theorem toOutcome_condition (unopened unclosed : Fault) (tokens : List Token) :
    (condition unopened unclosed tokens).toOutcome = readCondition unopened unclosed tokens := by
  unfold readCondition
  rw [← Step.toOutcome_expect]
  apply Step.toOutcome_andThen
  intro _ rest _
  apply Step.toOutcome_andThen
  intro e rest _
  simp

theorem readStmt_nil : readStmt [] = readEnded .unendedExpression .expression [] := by
  rw [readStmt, statement, toOutcome_lone]

section Keyword

variable {t : Token}

theorem readStmt_var (kind : t.kind = .kwVar) (more : List Token) :
    readStmt (t :: more) = readDeclaration more := by
  rw [readStmt, statement]
  simp [kind, toOutcome_declaration]

theorem readStmt_print (kind : t.kind = .kwPrint) (more : List Token) :
    readStmt (t :: more) = readEnded .unendedPrint .print more := by
  rw [readStmt, statement]
  simp [kind, toOutcome_printed]

theorem readStmt_block (kind : t.kind = .leftBrace) (more : List Token) :
    readStmt (t :: more) =
      (readStmts true more).bind fun body rest =>
        (Outcome.expect .rightBrace .unclosedBlock rest).map fun _ => .block body := by
  rw [readStmt, statement]
  simp only [kind]
  exact Step.toOutcome_andThen _ _ _ fun body rest _ => by simp

theorem readStmt_if (kind : t.kind = .kwIf) (more : List Token) :
    readStmt (t :: more) =
      (readCondition .ifWithoutParen .unclosedIfCondition more).bind fun e rest =>
        (readStmt rest).bind fun yes =>
          Outcome.continueIf (· = .kwElse) (.branch e yes none) fun _ more =>
            (readStmt more).map fun no => .branch e yes (some no) := by
  rw [readStmt, statement]
  simp only [kind, ← toOutcome_condition]
  apply Step.toOutcome_andThen
  intro e rest _
  apply Step.toOutcome_andThen
  intro yes rest _
  exact Step.toOutcome_continueIf _ _ _ _ _ fun _ _ _ => rfl

theorem readStmt_while (kind : t.kind = .kwWhile) (more : List Token) :
    readStmt (t :: more) =
      (readCondition .whileWithoutParen .unclosedWhileCondition more).bind fun e rest =>
        (readStmt rest).map (.loop e) := by
  rw [readStmt, statement]
  simp only [kind, ← toOutcome_condition]
  exact Step.toOutcome_andThen _ _ _ fun _ _ _ => rfl

theorem readStmt_lone (simple : t.kind ≠ .leftBrace ∧ t.kind ≠ .kwIf ∧ t.kind ≠ .kwWhile)
    (bare : t.kind ≠ .kwVar ∧ t.kind ≠ .kwPrint) (more : List Token) :
    readStmt (t :: more) = readEnded .unendedExpression .expression (t :: more) := by
  rw [readStmt, statement]
  simp [simple, bare, toOutcome_lone]

end Keyword

/-- Tokens by the statement that the first of them starts. -/
@[elab_as_elim]
theorem stmt_cases {P : List Token → Prop} (nil : P [])
    (declaration : ∀ t more, t.kind = .kwVar → P (t :: more))
    (printed : ∀ t more, t.kind = .kwPrint → P (t :: more))
    (block : ∀ t more, t.kind = .leftBrace → P (t :: more))
    (branch : ∀ t more, t.kind = .kwIf → P (t :: more))
    (loop : ∀ t more, t.kind = .kwWhile → P (t :: more))
    (lone : ∀ t more, (t.kind ≠ .leftBrace ∧ t.kind ≠ .kwIf ∧ t.kind ≠ .kwWhile) →
      (t.kind ≠ .kwVar ∧ t.kind ≠ .kwPrint) → P (t :: more)) (tokens : List Token) :
    P tokens := by
  cases tokens with
  | nil => exact nil
  | cons t more =>
    by_cases isVar : t.kind = .kwVar
    · exact declaration t more isVar
    by_cases isPrint : t.kind = .kwPrint
    · exact printed t more isPrint
    by_cases isBlock : t.kind = .leftBrace
    · exact block t more isBlock
    by_cases isIf : t.kind = .kwIf
    · exact branch t more isIf
    by_cases isWhile : t.kind = .kwWhile
    · exact loop t more isWhile
    · exact lone t more ⟨isBlock, isIf, isWhile⟩ ⟨isVar, isPrint⟩

theorem readStmts_nil (inBlock : Bool) : readStmts inBlock [] = .done [] [] := by
  rw [readStmts, statements]; rfl

theorem readStmts_cons (inBlock : Bool) (t : Token) (more : List Token) :
    readStmts inBlock (t :: more) =
      if inBlock && t.kind = .rightBrace then .done [] (t :: more)
      else (readStmt (t :: more)).recover.bind fun found rest =>
        (readStmts inBlock rest).map (found.toList ++ ·) := by
  rw [readStmts, statements]
  split
  · rfl
  · rw [Step.toOutcome_weaken]
    exact Step.toOutcome_andThen _ _ _ fun _ _ _ => rfl

/-! ### Induction

On the number of tokens, and for one list of tokens from the tightest level outwards. -/

theorem expr_induction {P : Level → List Token → Prop} {Q : Level → Expr → List Token → Prop}
    (joins : ∀ level tokens, level.joins → P level.next tokens →
      (∀ left rest, rest.length < tokens.length → Q level left rest) → P level tokens)
    (assignment : ∀ tokens, P .conditional tokens →
      (∀ more, more.length < tokens.length → P .assignment more) → P .assignment tokens)
    (conditional : ∀ tokens, P .or tokens →
      (∀ more, more.length < tokens.length → P .comma more) → P .conditional tokens)
    (unary : ∀ tokens, P .primary tokens →
      (∀ more, more.length < tokens.length → P .primary more) → P .unary tokens)
    (primary : ∀ tokens, (∀ level more, more.length < tokens.length → P level more) →
      P .primary tokens)
    (operations : ∀ level left tokens, level.joins →
      (∀ more, more.length < tokens.length → P level.next more) →
      (∀ left rest, rest.length < tokens.length → Q level left rest) → Q level left tokens) :
    (∀ level tokens, P level tokens) ∧
      ∀ level left tokens, level.joins → Q level left tokens := by
  have both : ∀ n tokens, tokens.length = n →
      (∀ level, P level tokens) ∧ ∀ level left, level.joins → Q level left tokens := by
    intro n
    induction n using Nat.strongRecOn with
    | ind n ih =>
      rintro tokens rfl
      have exprs : ∀ level more, more.length < tokens.length → P level more :=
        fun level more shorter => (ih _ shorter more rfl).1 level
      have chains : ∀ level, level.joins → ∀ left rest, rest.length < tokens.length →
          Q level left rest :=
        fun level goes left rest shorter => (ih _ shorter rest rfl).2 level left goes
      refine ⟨Level.tightening (primary tokens exprs) ?_, fun level left goes =>
        operations level left tokens goes (exprs level.next) (chains level goes)⟩
      intro level loose tighter
      cases level with
      | primary => exact absurd rfl loose
      | unary => exact unary tokens tighter (exprs .primary)
      | conditional => exact conditional tokens tighter (exprs .comma)
      | assignment => exact assignment tokens tighter (exprs .assignment)
      | _ => exact joins _ tokens rfl tighter (chains _ rfl)
  exact ⟨fun level tokens => (both _ tokens rfl).1 level,
    fun level left tokens => (both _ tokens rfl).2 level left⟩

theorem stmt_induction {P : List Token → Prop} {Q : Bool → List Token → Prop}
    (statement : ∀ tokens, (∀ more, more.length < tokens.length → P more) →
      (∀ inBlock more, more.length < tokens.length → Q inBlock more) → P tokens)
    (statements : ∀ inBlock tokens, P tokens →
      (∀ more, more.length < tokens.length → Q inBlock more) → Q inBlock tokens) :
    (∀ tokens, P tokens) ∧ ∀ inBlock tokens, Q inBlock tokens := by
  have both : ∀ n tokens, tokens.length = n → P tokens ∧ ∀ inBlock, Q inBlock tokens := by
    intro n
    induction n using Nat.strongRecOn with
    | ind n ih =>
      rintro tokens rfl
      have first := statement tokens (fun more shorter => (ih _ shorter more rfl).1)
        fun inBlock more shorter => (ih _ shorter more rfl).2 inBlock
      exact ⟨first, fun inBlock => statements inBlock tokens first
        fun more shorter => (ih _ shorter more rfl).2 inBlock⟩
  exact ⟨fun tokens => (both _ tokens rfl).1, fun inBlock tokens => (both _ tokens rfl).2 inBlock⟩

theorem readExpr_suffix (level : Level) (tokens : List Token) :
    (readExpr level tokens).rest <:+ tokens := (expression level tokens).suffix

theorem readExpr_shortens {level : Level} {tokens : List Token}
    (found : (readExpr level tokens).value.isSome) :
    (readExpr level tokens).rest.length < tokens.length := (expression level tokens).progress found

theorem readCondition_suffix (unopened unclosed : Fault) (tokens : List Token) :
    (readCondition unopened unclosed tokens).rest <:+ tokens :=
  toOutcome_condition unopened unclosed tokens ▸ (condition unopened unclosed tokens).suffix

theorem readStmt_suffix (tokens : List Token) : (readStmt tokens).rest <:+ tokens :=
  (statement tokens).suffix

theorem recover_shortens (t : Token) (more : List Token) :
    (readStmt (t :: more)).recover.rest.length < (t :: more).length :=
  (statement (t :: more)).recover.progress rfl

/-- A list of statements never fails: the statements that do are left out. -/
theorem readStmts_found (inBlock : Bool) (tokens : List Token) :
    ∃ parsed, (readStmts inBlock tokens).value = some parsed := by
  induction h : tokens.length using Nat.strongRecOn generalizing tokens with
  | ind n ih =>
    cases tokens with
    | nil => exact ⟨[], by rw [readStmts_nil]; rfl⟩
    | cons t more =>
      rw [readStmts_cons]
      split
      · exact ⟨[], rfl⟩
      · obtain ⟨parsed, found⟩ := ih _ (h ▸ recover_shortens t more) _ rfl
        refine ⟨(readStmt (t :: more)).value.toList ++ parsed, ?_⟩
        rw [Outcome.bind_of_found rfl]
        simp [Outcome.map, found]

/-- Statements are read up to the end, or in a block up to a closing brace. -/
theorem readStmts_ends (inBlock : Bool) (tokens : List Token) :
    ∀ t ∈ (readStmts inBlock tokens).rest.head?, inBlock ∧ t.kind = .rightBrace := by
  induction h : tokens.length using Nat.strongRecOn generalizing tokens with
  | ind n ih =>
    cases tokens with
    | nil => rw [readStmts_nil]; exact nofun
    | cons t more =>
      rw [readStmts_cons]
      split
      · rename_i closing
        rintro _ ⟨⟩
        simpa using closing
      · rw [Outcome.bind_of_found rfl]
        exact ih _ (h ▸ recover_shortens t more) _ rfl

end Grammar

end Scriptlet
