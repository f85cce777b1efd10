import Scriptlet.Proofs.Grammar.Blame
import Scriptlet.Proofs.Syntax.Respelling

namespace Scriptlet

variable (r : Respelling) {α β : Type}

def Report.respelled (p : Report) : Report := ⟨p.fault, p.ahead.map r.apply⟩

namespace Outcome

def respelled (change : α → α) (o : Outcome α) : Outcome α :=
  ⟨o.value.map change, o.reports.map (Report.respelled r), o.rest.map r.apply⟩

variable {r} {o : Outcome α} {f : α → α} {g : β → β}

theorem respelled_done (a : α) (tokens : List Token) :
    (done a tokens).respelled r f = done (f a) (tokens.map r.apply) := rfl

theorem bind_respelled {next after : α → List Token → Outcome β}
    (each : ∀ a, o.value = some a →
      after (f a) (o.rest.map r.apply) = (next a o.rest).respelled r g) :
    (o.respelled r f).bind after = (o.bind next).respelled r g := by
  cases value : o.value with
  | none =>
    have failed : (o.respelled r f).value = none := by simp [respelled, value]
    rw [bind_of_failed value, bind_of_failed failed]
    rfl
  | some a =>
    have found : (o.respelled r f).value = some (f a) := by simp [respelled, value]
    have rest : (o.respelled r f).rest = o.rest.map r.apply := rfl
    rw [bind_of_found value, bind_of_found found, rest, each a value]
    simp only [respelled, List.map_append]

theorem map_respelled {node other : α → β} (each : ∀ a, other (f a) = g (node a)) :
    (o.respelled r f).map other = (o.map node).respelled r g := by
  simp only [map_eq_bind]
  apply bind_respelled
  intro a _
  rw [respelled_done, each]

theorem discard_respelled (report : Report) :
    (o.respelled r f).discard (report.respelled r) = (o.discard report).respelled r g := rfl

theorem expect_respelled (kind : Kind) (fault : Fault) (tokens : List Token) :
    expect kind fault (tokens.map r.apply) = (expect kind fault tokens).respelled r r.apply := by
  cases tokens with
  | nil => rfl
  | cons t more =>
    simp only [List.map_cons, expect, r.kind_apply]
    split <;> rfl

theorem ended_respelled {kind : Kind} {fault : Fault} {tokens : List Token} {a b : α}
    (same : b = f a) :
    ((expect kind fault (tokens.map r.apply)).map fun _ => b) =
      ((expect kind fault tokens).map fun _ => a).respelled r f := by
  rw [expect_respelled]
  exact map_respelled fun _ => same

theorem continueIf_respelled {wanted : Kind → Bool} {a b : α} {tokens : List Token}
    {next after : Token → List Token → Outcome α} (stays : f a = b)
    (each : ∀ t more, tokens = t :: more →
      after (r.apply t) (more.map r.apply) = (next t more).respelled r f) :
    continueIf wanted b after (tokens.map r.apply) =
      (continueIf wanted a next tokens).respelled r f := by
  subst stays
  cases tokens with
  | nil => rfl
  | cons t more =>
    simp only [List.map_cons, continueIf, r.kind_apply]
    split
    · exact each t more rfl
    · rfl

theorem resume_respelled (tokens : List Token) :
    Grammar.resume (tokens.map r.apply) = (Grammar.resume tokens).map r.apply := by
  induction tokens with
  | nil => rfl
  | cons t more ih =>
    simp only [List.map_cons, Grammar.resume, r.kind_apply, List.head?_map,
      Option.any_map]
    split
    · rfl
    · exact ih

theorem recover_respelled :
    (o.respelled r f).recover = o.recover.respelled r (Option.map f) := by
  simp only [recover, respelled, Option.isSome_map, resume_respelled]
  split <;> rfl

end Outcome

open Outcome

theorem Expr.ofToken?_respelled (t : Token) :
    ofToken? (r.apply t) = (ofToken? t).map (respelled r) := by
  unfold ofToken?
  rw [r.kind_apply, r.literal_apply]
  split <;> rfl

namespace Grammar

theorem assign_respelled (target value : Expr) (equal rest : List Token) :
    (assign (target.respelled r) (value.respelled r) (equal.map r.apply)
        (rest.map r.apply)).toOutcome =
      (assign target value equal rest).toOutcome.respelled r (Expr.respelled r) := by
  cases target <;> rfl

/-- An expression is read alike whatever the spelling. -/
def ExprAlike (level : Level) (tokens : List Token) : Prop :=
  readExpr level (tokens.map r.apply) = (readExpr level tokens).respelled r (Expr.respelled r)

def ChainAlike (level : Level) (left : Expr) (tokens : List Token) : Prop :=
  readOperations level (left.respelled r) (tokens.map r.apply) =
    (readOperations level left tokens).respelled r (Expr.respelled r)

variable {r}

theorem alike_joins (level : Level) (tokens : List Token) (joins : level.joins)
    (operand : ExprAlike r level.next tokens)
    (chain : ∀ left rest, rest.length < tokens.length → ChainAlike r level left rest) :
    ExprAlike r level tokens := by
  unfold ExprAlike
  rw [readExpr_joins joins, readExpr_joins joins, operand]
  apply bind_respelled
  intro left found
  exact chain left _ (readExpr_shortens (Option.isSome_of_eq_some found))

theorem alike_assignment (tokens : List Token) (target : ExprAlike r .conditional tokens)
    (value : ∀ more, more.length < tokens.length → ExprAlike r .assignment more) :
    ExprAlike r .assignment tokens := by
  unfold ExprAlike
  rw [readExpr_assignment, readExpr_assignment, target]
  apply bind_respelled
  intro e found
  have shorter := readExpr_shortens (Option.isSome_of_eq_some found)
  apply continueIf_respelled rfl
  intro t more cut
  rw [cut] at shorter
  rw [value more (Nat.lt_of_succ_lt shorter)]
  apply bind_respelled
  intro given _
  exact assign_respelled r e given (t :: more) _

theorem alike_conditional (tokens : List Token) (condition : ExprAlike r .or tokens)
    (branch : ∀ more, more.length < tokens.length → ExprAlike r .comma more) :
    ExprAlike r .conditional tokens := by
  unfold ExprAlike
  rw [readExpr_conditional, readExpr_conditional, condition]
  apply bind_respelled
  intro e found
  have shorter := readExpr_shortens (Option.isSome_of_eq_some found)
  apply continueIf_respelled rfl
  intro t more cut
  rw [cut, List.length_cons] at shorter
  rw [branch more (Nat.lt_of_succ_lt shorter)]
  apply bind_respelled
  intro yes _
  have kept := (readExpr_suffix .comma more).length_le
  have rest := expect_length .colon .missingColon (readExpr .comma more).rest
  rw [expect_respelled]
  apply bind_respelled
  intro _ _
  rw [branch _ (by omega)]
  exact map_respelled fun no => rfl

theorem alike_unary (tokens : List Token) (same : ExprAlike r .primary tokens)
    (operand : ∀ more, more.length < tokens.length → ExprAlike r .primary more) :
    ExprAlike r .unary tokens := by
  unfold ExprAlike
  cases tokens with
  | nil =>
    rw [List.map_nil, readExpr_unary_nil]
    rfl
  | cons t more =>
    rw [List.map_cons, readExpr_unary_cons, readExpr_unary_cons, r.kind_apply]
    split
    · rw [operand more (Nat.lt_succ_self _)]
      exact map_respelled fun e => rfl
    · exact same

theorem alike_primary (tokens : List Token)
    (inner : ∀ level more, more.length < tokens.length → ExprAlike r level more) :
    ExprAlike r .primary tokens := by
  unfold ExprAlike
  cases tokens with
  | nil =>
    rw [List.map_nil, readExpr_primary_nil]
    rfl
  | cons t more =>
    have inner := fun level => inner level more (Nat.lt_succ_self _)
    have same := Expr.ofToken?_respelled r t
    have kind := r.kind_apply t
    rw [List.map_cons]
    cases known : Expr.ofToken? t with
    | some e =>
      rw [known] at same
      rw [readExpr_primary_atom known, readExpr_primary_atom same]
      rfl
    | none =>
      rw [known] at same
      cases orphan : t.kind.orphanLevel? with
      | some level =>
        rw [readExpr_primary_orphan known orphan,
          readExpr_primary_orphan same (by rw [kind, orphan]), inner level]
        exact discard_respelled ⟨.missingLeftOperand, t :: more⟩
      | none =>
        by_cases opens : t.kind = .leftParen
        · rw [readExpr_primary_group opens, readExpr_primary_group (kind.trans opens),
            inner .comma]
          apply bind_respelled
          intro e _
          exact ended_respelled (by rfl)
        · rw [readExpr_primary_stray known orphan opens,
            readExpr_primary_stray same (by rw [kind, orphan]) (by rwa [kind])]
          rfl

theorem alike_operations (level : Level) (left : Expr) (tokens : List Token) (_ : level.joins)
    (operand : ∀ more, more.length < tokens.length → ExprAlike r level.next more)
    (chain : ∀ left rest, rest.length < tokens.length → ChainAlike r level left rest) :
    ChainAlike r level left tokens := by
  unfold ChainAlike
  rw [readOperations_eq, readOperations_eq]
  apply continueIf_respelled rfl
  rintro t more rfl
  rw [operand more (Nat.lt_succ_self _)]
  apply bind_respelled
  intro right _
  rw [← Expr.join_respelled]
  exact chain _ _ (Nat.lt_succ_of_le (readExpr_suffix level.next more).length_le)

variable (r)

theorem readExpr_respelled (level : Level) (tokens : List Token) :
    readExpr level (tokens.map r.apply) =
      (readExpr level tokens).respelled r (Expr.respelled r) :=
  (expr_induction alike_joins alike_assignment alike_conditional alike_unary alike_primary
    alike_operations).1 level tokens

theorem readEnded_respelled (fault : Fault) {node : Expr → Stmt}
    (same : ∀ e, node (e.respelled r) = (node e).respelled r) (tokens : List Token) :
    readEnded fault node (tokens.map r.apply) =
      (readEnded fault node tokens).respelled r (Stmt.respelled r) := by
  unfold readEnded
  rw [readExpr_respelled]
  apply bind_respelled
  intro e _
  exact ended_respelled (same e)

theorem readDeclaration_respelled (tokens : List Token) :
    readDeclaration (tokens.map r.apply) =
      (readDeclaration tokens).respelled r (Stmt.respelled r) := by
  unfold readDeclaration
  rw [expect_respelled]
  apply bind_respelled
  intro name _
  have initializer (rest : List Token) :
      Outcome.continueIf (· = .equal) none (fun _ more => (readExpr .comma more).map some)
          (rest.map r.apply) =
        (Outcome.continueIf (· = .equal) none (fun _ more => (readExpr .comma more).map some)
          rest).respelled r (Option.map (Expr.respelled r)) := by
    refine continueIf_respelled (by rfl) fun _ more _ => ?_
    rw [readExpr_respelled]
    exact map_respelled fun _ => rfl
  rw [initializer]
  apply bind_respelled
  intro value _
  exact ended_respelled (by cases value <;> rfl)

theorem readCondition_respelled (unopened unclosed : Fault) (tokens : List Token) :
    readCondition unopened unclosed (tokens.map r.apply) =
      (readCondition unopened unclosed tokens).respelled r (Expr.respelled r) := by
  unfold readCondition
  rw [expect_respelled]
  apply bind_respelled
  intro _ _
  rw [readExpr_respelled]
  apply bind_respelled
  intro e _
  exact ended_respelled (by rfl)

def StmtAlike (tokens : List Token) : Prop :=
  readStmt (tokens.map r.apply) = (readStmt tokens).respelled r (Stmt.respelled r)

def StmtsAlike (inBlock : Bool) (tokens : List Token) : Prop :=
  readStmts inBlock (tokens.map r.apply) =
    (readStmts inBlock tokens).respelled r (List.map (Stmt.respelled r))

variable {r}

theorem alike_statement (tokens : List Token)
    (one : ∀ more, more.length < tokens.length → StmtAlike r more)
    (all : ∀ inBlock more, more.length < tokens.length → StmtsAlike r inBlock more) :
    StmtAlike r tokens := by
  unfold StmtAlike
  cases tokens using stmt_cases with
  | nil =>
    rw [List.map_nil, readStmt_nil]
    exact readEnded_respelled r _ (fun _ => rfl) []
  | declaration t more isVar =>
    rw [List.map_cons, readStmt_var isVar, readStmt_var ((r.kind_apply t).trans isVar)]
    exact readDeclaration_respelled r more
  | printed t more isPrint =>
    rw [List.map_cons, readStmt_print isPrint, readStmt_print ((r.kind_apply t).trans isPrint)]
    exact readEnded_respelled r _ (fun _ => rfl) more
  | block t more isBlock =>
    rw [List.map_cons, readStmt_block isBlock, readStmt_block ((r.kind_apply t).trans isBlock),
      all true more (Nat.lt_succ_self _)]
    apply bind_respelled
    intro body _
    apply ended_respelled
    rw [Stmt.respelled, Stmt.mapTokens, Stmt.mapTokensAll_eq_map]
  | branch t more isIf =>
    rw [List.map_cons, readStmt_if isIf, readStmt_if ((r.kind_apply t).trans isIf),
      readCondition_respelled]
    apply bind_respelled
    intro e _
    have shorter := (readCondition_suffix .ifWithoutParen .unclosedIfCondition more).length_le
    rw [one _ (Nat.lt_succ_of_le shorter)]
    apply bind_respelled
    intro yes _
    have kept := (readStmt_suffix
      (readCondition .ifWithoutParen .unclosedIfCondition more).rest).length_le
    refine continueIf_respelled (by rfl) fun u rest cut => ?_
    rw [cut, List.length_cons] at kept
    rw [one rest (by simp only [List.length_cons]; omega)]
    exact map_respelled fun _ => rfl
  | loop t more isWhile =>
    rw [List.map_cons, readStmt_while isWhile, readStmt_while ((r.kind_apply t).trans isWhile),
      readCondition_respelled]
    apply bind_respelled
    intro e _
    have shorter :=
      (readCondition_suffix .whileWithoutParen .unclosedWhileCondition more).length_le
    rw [one _ (Nat.lt_succ_of_le shorter)]
    exact map_respelled fun _ => rfl
  | lone t more simple bare =>
    rw [List.map_cons, readStmt_lone simple bare,
      readStmt_lone (by simpa using simple) (by simpa using bare)]
    exact readEnded_respelled r _ (fun _ => rfl) (t :: more)

theorem alike_statements (inBlock : Bool) (tokens : List Token) (one : StmtAlike r tokens)
    (all : ∀ more, more.length < tokens.length → StmtsAlike r inBlock more) :
    StmtsAlike r inBlock tokens := by
  unfold StmtsAlike
  cases tokens with
  | nil =>
    rw [List.map_nil, readStmts_nil]
    rfl
  | cons t more =>
    have first : readStmt (r.apply t :: more.map r.apply) =
        (readStmt (t :: more)).respelled r (Stmt.respelled r) := one
    rw [List.map_cons, readStmts_cons, readStmts_cons, r.kind_apply, first, recover_respelled]
    split
    · rfl
    · apply bind_respelled
      intro found _
      rw [all _ (recover_shortens t more)]
      apply map_respelled
      intro others
      cases found <;> simp

variable (r)

theorem readStmts_respelled (inBlock : Bool) (tokens : List Token) :
    readStmts inBlock (tokens.map r.apply) =
      (readStmts inBlock tokens).respelled r (List.map (Stmt.respelled r)) :=
  (stmt_induction alike_statement alike_statements).2 inBlock tokens

end Grammar

namespace Program

open Grammar

theorem body_respelled (tokens : List Token) :
    body (tokens.map r.apply) = (body tokens).map r.apply := by
  simp only [body, List.takeWhile_map, Function.comp_def, r.kind_apply]

/-- The token at a place. Behind the last one there is an end mark, on the same line. -/
def tokenAt (tokens : List Token) (place : Nat) : Token :=
  tokens[place]?.getD (.endAt ((tokens.getLast?.map Token.line).getD 1))

/-- A fault that is blamed on the token at a place. -/
def blamed (tokens : List Token) (found : Nat × Fault) : Diagnostic :=
  .atToken (tokenAt tokens found.1) found.2

theorem getElem?_body {tokens : List Token} {place : Nat}
    (within : place ≤ (body tokens).length) :
    tokens[place]? = (body tokens)[place]?.or (tokens.find? (·.kind = .endMark)) := by
  induction tokens generalizing place with
  | nil => rfl
  | cons t more ih =>
    by_cases ends : t.kind = .endMark
    · have none : body (t :: more) = [] := by simp [body, ends]
      rw [none] at within ⊢
      obtain rfl := Nat.le_zero.mp within
      simp [ends]
    · have inner : body (t :: more) = t :: body more := by simp [body, ends]
      rw [inner, List.length_cons] at within
      rw [inner]
      cases place with
      | zero => rfl
      | succ place => simpa [ends] using ih (Nat.le_of_succ_le_succ within)

theorem diagnostic_eq_blamed {tokens : List Token} {p : Report}
    (ahead : p.ahead <:+ body tokens) :
    p.diagnostic (closing tokens) = blamed tokens (p.place (body tokens), p.fault) := by
  have within : p.place (body tokens) ≤ (body tokens).length := Nat.sub_le _ _
  have token : tokenAt tokens (p.place (body tokens)) = p.ahead.headD (closing tokens) := by
    rw [tokenAt, getElem?_body within, Option.getD_or, ← List.head?_drop,
      Report.drop_place ahead, List.headD_eq_head?_getD]
    rfl
  rw [blamed, token, Report.diagnostic]

theorem diagnostic_respelled {tokens : List Token} {p : Report} (ahead : p.ahead <:+ body tokens) :
    (p.respelled r).diagnostic (closing (tokens.map r.apply)) =
      blamed (tokens.map r.apply) (p.place (body tokens), p.fault) := by
  have cut : (p.respelled r).ahead <:+ body (tokens.map r.apply) := by
    rw [body_respelled]
    exact ahead.map r.apply
  have place : (p.respelled r).place (body (tokens.map r.apply)) = p.place (body tokens) := by
    simp only [Report.place, Report.left, Report.respelled, body_respelled, List.length_map]
  rw [diagnostic_eq_blamed cut, place]
  rfl

/-- The statements of tokens that are spelled differently are the same but for the tokens in them,
and the same faults are found at the same places in the same order. Only the line and the lexeme
that a diagnostic shows are those of the token that is there now, or of the end mark that is added
behind the last one. -/
theorem ofTokens_respelled (tokens : List Token) :
    ∃ found : List (Nat × Fault),
      (∀ f ∈ found, f.1 ≤ (body tokens).length) ∧
      (ofTokens tokens).diagnostics = found.map (blamed tokens) ∧
      ∀ r : Respelling, ofTokens (tokens.map r.apply) =
        ⟨(ofTokens tokens).statements.map (Stmt.respelled r),
          found.map (blamed (tokens.map r.apply))⟩ := by
  let reports := (readStmts false (body tokens)).reports
  have ahead : ∀ p ∈ reports, p.ahead <:+ body tokens := (careful_all false (body tokens)).ahead
  refine ⟨reports.map fun p => (p.place (body tokens), p.fault), ?within, ?same, fun r => ?other⟩
  case within => exact List.forall_mem_map.mpr fun p _ => Nat.sub_le _ _
  case same =>
    rw [diagnostics_ofTokens, List.map_map]
    exact List.map_congr_left fun p member => diagnostic_eq_blamed (ahead p member)
  case other =>
    have read := readStmts_respelled r false (body tokens)
    rw [← body_respelled] at read
    have statements : (ofTokens (tokens.map r.apply)).statements =
        (ofTokens tokens).statements.map (Stmt.respelled r) := by
      rw [statements_ofTokens, statements_ofTokens, read]
      obtain ⟨parsed, value⟩ := readStmts_found false (body tokens)
      simp only [respelled, value, Option.map_some, Option.getD_some]
    have diagnostics : (ofTokens (tokens.map r.apply)).diagnostics =
        (reports.map fun p => (p.place (body tokens), p.fault)).map
          (blamed (tokens.map r.apply)) := by
      rw [diagnostics_ofTokens, read, respelled, List.map_map, List.map_map]
      exact List.map_congr_left fun p member => diagnostic_respelled r (ahead p member)
    rw [← statements, ← diagnostics]

example :
    let tokens : List Token := [⟨.kwPrint, "print", none, 1⟩, ⟨.kwNil, "nil", none, 2⟩]
    (ofTokens (tokens.map (Respelling.lines (10 * ·)).apply)).diagnostics =
      [⟨20, .atEnd, .unendedPrint⟩] := by
  cbv

end Program

end Scriptlet
