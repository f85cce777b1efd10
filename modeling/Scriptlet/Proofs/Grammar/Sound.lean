import Scriptlet.Proofs.Grammar.Accounts
import Scriptlet.Proofs.Grammar.Lookahead
import Scriptlet.Proofs.Grammar.Program

namespace Scriptlet

open Terminal Outcome

/-- What reading an expression of the level comes back with. -/
structure Level.Reads (level : Level) (e : Expr) (items : List Terminal) (rest : List Token) :
    Prop where
  canonical : e.Canonical
  tight : e.level.rank ≤ level.rank
  spells : items = e.yield
  stops : (e.reach level).Stops rest

theorem Level.Reads.loosen {level : Level} {e : Expr} {items : List Terminal}
    {rest : List Token} (loose : level ≠ .primary) (h : level.next.Reads e items rest)
    (other : ∀ t ∈ rest.head?, t.kind.joint? ≠ some level) : level.Reads e items rest := by
  have step := rank_next loose
  have tight := h.tight
  exact ⟨h.canonical, by omega, h.spells, Expr.stops_of_next loose h.stops other⟩

theorem Expr.fits_ofToken? {t : Token} {e : Expr} (h : ofToken? t = some e) :
    e.Canonical ∧ e.level = .primary ∧ ∃ item, e.yield = [item] ∧ item.Fits t := by
  unfold ofToken? at h
  split at h
  · cases h; rename_i kind; exact ⟨.bool _, rfl, _, rfl, kind⟩
  · cases h; rename_i kind; exact ⟨.bool _, rfl, _, rfl, kind⟩
  · cases h; rename_i kind; exact ⟨.nil, rfl, _, rfl, kind⟩
  · cases h; rename_i kind literal; exact ⟨.number _, rfl, _, rfl, kind, literal⟩
  · cases h; rename_i kind literal; exact ⟨.string _, rfl, _, rfl, kind, literal⟩
  · cases h; rename_i kind; exact ⟨.var kind, rfl, _, rfl, rfl⟩
  · cases h

namespace Grammar

def ChainAccounts (level : Level) (left : Expr) (tokens : List Token) : Prop :=
  left.Canonical → left.level.rank ≤ level.rank → (left.reach level.next).Stops tokens →
    (readOperations level left tokens).Accounts tokens fun e items =>
      level.Reads e (left.yield ++ items)

theorem accounts_operations (level : Level) (left : Expr) (tokens : List Token)
    (joins : level.joins)
    (operand : ∀ more, more.length < tokens.length →
      (readExpr level.next more).Accounts more level.next.Reads)
    (chain : ∀ left rest, rest.length < tokens.length → ChainAccounts level left rest) :
    ChainAccounts level left tokens := by
  have loose : level ≠ .primary := by rintro rfl; cases joins
  intro canonical tight stops
  rw [readOperations_eq]
  apply Accounts.continueIf
  · intro other
    rw [List.append_nil]
    refine ⟨canonical, tight, rfl, Expr.stops_of_next loose stops ?_⟩
    intro t head goes
    simpa [Kind.level?_of_joint? joins goes] using other t head
  · rintro t more rfl asked
    have operator : t.kind.level? = some level := of_decide_eq_true asked
    have closed := Expr.closed_of_joint stops (Kind.joint?_of_level? operator)
    apply Accounts.cons (.kept t) rfl
    apply (operand more (by simp)).bind
    intro right items _ shorter holds
    have admits : level.Admits left right := by
      have next := Level.rank_next loose
      have rightTight := holds.tight
      exact ⟨tight, by omega, fun _ => closed⟩
    have joined := Level.level_join operator left right
    have on := chain (level.join t left right) _ (Nat.lt_succ_of_le shorter)
      (.join operator admits canonical holds.canonical) (Nat.le_of_eq (by rw [joined]))
      (by rw [admits.reach_join operator]; exact holds.stops)
    apply on.mono
    intro e more h
    simpa [Level.yield_join, holds.spells] using h

theorem accounts_assignment (tokens : List Token)
    (target : (readExpr .conditional tokens).Accounts tokens Level.conditional.Reads)
    (value : ∀ more, more.length < tokens.length →
      (readExpr .assignment more).Accounts more Level.assignment.Reads) :
    (readExpr .assignment tokens).Accounts tokens Level.assignment.Reads := by
  rw [readExpr_assignment]
  apply target.bind
  intro target items _ shorter read
  apply Accounts.continueIf
  · intro other
    rw [List.append_nil]
    refine read.loosen (by decide) ?_
    intro t head goes
    simpa [Kind.joint?_eq_assignment.mp goes] using other t head
  · intro t more cut asked
    have equal : t.kind = .equal := of_decide_eq_true asked
    have stops := read.stops
    rw [cut] at shorter stops
    have given := value more shorter
    have closed := Expr.closed_of_joint stops (Kind.joint?_eq_assignment.mpr equal)
    by_cases isVar : ∃ name, target = .var name
    · obtain ⟨name, rfl⟩ := isVar
      apply Accounts.cons (.word .equal) equal
      apply given.bind
      intro value more _ _ holds
      rw [toOutcome_assign_var]
      apply Accounts.done
      refine ⟨?_, Nat.le_refl _, ?_, holds.stops⟩
      · cases read.canonical with
        | var named => exact .assign named holds.tight holds.canonical
      · simp [read.spells, holds.spells, Expr.yield]
    · have other : ∀ name, target ≠ .var name := fun name same => isVar ⟨name, same⟩
      -- What the assignment would have given is read and dropped. Its tokens have no terminal,
      -- which the report about the target pays for.
      have dropped : ((readExpr .assignment more).bind fun value last =>
          (assign target value (t :: more) last).toOutcome).Accounts (t :: more)
            fun e _ rest => e = target ∧ Level.assignment.Stops rest := by
        apply Accounts.cons (.word .equal) equal
        apply given.bind
        intro value more _ _ holds
        rw [toOutcome_assign_other other]
        have below := holds.stops.mono (value.rank_le_reach _)
        constructor
        · exact fun _ => List.cons_ne_nil _ _
        · rintro e ⟨⟩
          exact ⟨[], [], rfl, within_nil [], fun clean => absurd clean (List.cons_ne_nil _ _), rfl,
            below⟩
      apply dropped.forget
      · intro e found
        obtain ⟨value, given, _⟩ := bind_found_iff.mp found
        simp [bind_of_found given, toOutcome_assign_other other]
      · rintro e _ ⟨rfl, stops⟩
        have tight := Nat.le_succ_of_le read.tight
        rw [List.append_nil]
        exact ⟨read.canonical, tight, read.spells, by rwa [Expr.reach_eq closed]⟩

theorem accounts_conditional (tokens : List Token)
    (condition : (readExpr .or tokens).Accounts tokens Level.or.Reads)
    (branch : ∀ more, more.length < tokens.length →
      (readExpr .comma more).Accounts more Level.comma.Reads) :
    (readExpr .conditional tokens).Accounts tokens Level.conditional.Reads := by
  rw [readExpr_conditional]
  apply condition.bind
  intro condition items _ shorter test
  apply Accounts.continueIf
  · intro other
    rw [List.append_nil]
    refine test.loosen (by decide) ?_
    intro t head goes
    simpa [Kind.joint?_eq_conditional.mp goes] using other t head
  · intro t more cut asked
    have question : t.kind = .question := of_decide_eq_true asked
    have moreShorter : more.length < tokens.length := by rw [cut] at shorter; exact shorter
    apply Accounts.cons (.word .question) question
    apply (branch more moreShorter).bind
    intro yes _ _ yesShorter first
    apply (Accounts.expect_word _).bind
    intro colon _ _ colonShorter spelled
    apply Accounts.map
    apply (branch _ (by omega)).mono
    intro no _ second
    refine ⟨.conditional test.tight test.canonical first.canonical second.canonical,
      Nat.le_refl _, ?_, second.stops.mono ?_⟩
    · simp [test.spells, first.spells, spelled, second.spells, Expr.yield]
    · simp [Expr.reach, Expr.endsOpen]

theorem accounts_unary (tokens : List Token)
    (same : (readExpr .primary tokens).Accounts tokens Level.primary.Reads)
    (operand : ∀ more, more.length < tokens.length →
      (readExpr .primary more).Accounts more Level.primary.Reads) :
    (readExpr .unary tokens).Accounts tokens Level.unary.Reads := by
  have tight : ∀ e : Expr, e.level.rank ≤ Level.primary.rank → e.level = .primary :=
    fun e le => Level.rank_injective _ _ (Nat.le_zero.mp le)
  cases tokens with
  | nil => rw [readExpr_unary_nil]; exact .fail _
  | cons t rest =>
    rw [readExpr_unary_cons]
    split
    · rename_i operator
      apply Accounts.cons (.kept t) rfl
      apply Accounts.map
      apply (operand rest (by simp)).mono
      intro e items read
      refine ⟨.unary operator (tight e read.tight) read.canonical, Nat.le_refl _, ?_,
        Level.stops_of_tight (Nat.le_refl _) _⟩
      simp [read.spells, Expr.yield]
    · apply same.mono
      intro e items read
      exact Level.Reads.loosen (by decide) read fun t _ => t.kind.joint?_ne_unary

theorem accounts_primary (tokens : List Token)
    (inner : ∀ level more, more.length < tokens.length →
      (readExpr level more).Accounts more level.Reads) :
    (readExpr .primary tokens).Accounts tokens Level.primary.Reads := by
  cases tokens with
  | nil => rw [readExpr_primary_nil]; exact .fail _
  | cons t rest =>
    cases known : Expr.ofToken? t with
    | some e =>
      rw [readExpr_primary_atom known]
      obtain ⟨canonical, primary, item, spelled, fits⟩ := Expr.fits_ofToken? known
      apply Accounts.cons item fits
      apply Accounts.done
      refine ⟨canonical, Nat.le_of_eq (by rw [primary]), spelled.symm, ?_⟩
      rw [Expr.reach_eq (Expr.closed_of_tight (by rw [primary]; decide))]
      exact Level.stops_of_tight (by decide) _
    | none =>
      cases orphan : t.kind.orphanLevel? with
      | some level => rw [readExpr_primary_orphan known orphan]; exact .discard _ _
      | none =>
        by_cases opens : t.kind = .leftParen
        · rw [readExpr_primary_group opens]
          apply Accounts.cons (.word .leftParen) opens
          apply (inner .comma rest (by simp)).bind
          intro e _ _ _ read
          apply Accounts.map
          apply (Accounts.expect_word _).mono
          intro _ _ spelled
          refine ⟨.group read.canonical, Nat.le_refl _, ?_, Level.stops_of_tight (Nat.le_succ _) _⟩
          simp [spelled, read.spells, Expr.yield]
        · rw [readExpr_primary_stray known orphan opens]; exact .fail _

theorem accounts_joins (level : Level) (tokens : List Token) (joins : level.joins)
    (operand : (readExpr level.next tokens).Accounts tokens level.next.Reads)
    (chain : ∀ left rest, rest.length < tokens.length → ChainAccounts level left rest) :
    (readExpr level tokens).Accounts tokens level.Reads := by
  rw [readExpr_joins joins]
  have loose : level ≠ .primary := by rintro rfl; cases joins
  apply operand.bind
  intro left items found _ read
  have shorter := readExpr_shortens (Option.isSome_of_eq_some found)
  have tight := Level.rank_next loose
  have leftTight := read.tight
  apply (chain left _ shorter read.canonical (by omega) read.stops).mono
  intro e more h
  rwa [read.spells]

theorem accounts_expr (level : Level) (tokens : List Token) :
    (readExpr level tokens).Accounts tokens level.Reads :=
  (expr_induction (P := fun level tokens => (readExpr level tokens).Accounts tokens level.Reads)
    (Q := ChainAccounts) accounts_joins accounts_assignment accounts_conditional accounts_unary
    accounts_primary accounts_operations).1 level tokens

end Grammar

/-- What reading a statement comes back with. -/
structure Stmt.Reads (s : Stmt) (items : List Terminal) (rest : List Token) : Prop where
  canonical : s.Canonical
  spells : items = s.yield
  stops : s.Stops rest

/-- What reading statements comes back with; outside of a block nothing is left. -/
structure Stmt.ReadsAll (inBlock : Bool) (body : List Stmt) (items : List Terminal)
    (rest : List Token) : Prop where
  canonical : ∀ s ∈ body, s.Canonical
  spells : items = Stmt.yieldAll body
  ended : inBlock = false → rest = []

namespace Grammar

theorem accounts_ended (fault : Fault) (node : Expr → Stmt) (tokens : List Token) :
    (readEnded fault node tokens).Accounts tokens fun s items _ =>
      ∃ e : Expr, e.Canonical ∧ s = node e ∧ items = e.yield ++ [.word .semicolon] := by
  apply (accounts_expr .comma tokens).bind
  intro e _ _ _ read
  apply Accounts.map
  apply (Accounts.expect_word _).mono
  intro _ _ spelled
  exact ⟨e, read.canonical, rfl, by rw [read.spells, spelled]⟩

theorem accounts_declaration (tokens : List Token) :
    (readDeclaration tokens).Accounts tokens fun s items rest =>
      s.Reads (.word .kwVar :: items) rest := by
  apply (Accounts.expect .kept (fun _ _ => rfl) tokens).bind
  rintro name _ _ _ ⟨named, rfl⟩
  have initializer : (Outcome.continueIf (· = .equal) none
      (fun _ more => (readExpr .comma more).map some)
      (Outcome.expect .name .missingName tokens).rest).Accounts
        (Outcome.expect .name .missingName tokens).rest fun initializer items _ =>
          match initializer with
          | none => items = []
          | some e => e.Canonical ∧ items = .word .equal :: e.yield := by
    apply Accounts.continueIf fun _ => rfl
    intro t more _ asked
    apply Accounts.cons (.word .equal) (of_decide_eq_true asked)
    apply Accounts.map
    apply (accounts_expr .comma more).mono
    intro e items read
    exact ⟨read.canonical, by rw [read.spells]⟩
  apply initializer.bind
  intro initializer _ _ _ holds
  apply Accounts.map
  apply (Accounts.expect_word _).mono
  intro _ _ spelled
  cases initializer with
  | none =>
    refine ⟨.bare named, ?_, Stmt.stops_of_closed rfl _⟩
    simp [holds, spelled, Stmt.yield]
  | some e =>
    refine ⟨.declare named holds.1, ?_, Stmt.stops_of_closed rfl _⟩
    simp [holds.2, spelled, Stmt.yield]

theorem accounts_condition (unopened unclosed : Fault) (tokens : List Token) :
    (readCondition unopened unclosed tokens).Accounts tokens fun e items _ =>
      e.Canonical ∧ items = .word .leftParen :: (e.yield ++ [.word .rightParen]) := by
  apply (Accounts.expect_word tokens).bind
  intro _ _ _ _ opened
  apply (accounts_expr .comma _).bind
  intro e _ _ _ read
  apply Accounts.map
  apply (Accounts.expect_word _).mono
  intro _ _ closed
  exact ⟨read.canonical, by simp [opened, closed, read.spells]⟩

theorem accounts_statement (tokens : List Token)
    (one : ∀ more, more.length < tokens.length → (readStmt more).Accounts more Stmt.Reads)
    (all : ∀ inBlock more, more.length < tokens.length →
      (readStmts inBlock more).Accounts more (Stmt.ReadsAll inBlock)) :
    (readStmt tokens).Accounts tokens Stmt.Reads := by
  have lone : ∀ tokens, (readEnded .unendedExpression .expression tokens).Accounts tokens
      Stmt.Reads := by
    intro tokens
    apply (accounts_ended _ _ tokens).mono
    rintro _ _ ⟨e, canonical, rfl, rfl⟩
    exact ⟨.expression canonical, rfl, Stmt.stops_of_closed rfl _⟩
  cases tokens using stmt_cases with
  | nil => rw [readStmt_nil]; exact lone []
  | declaration t more isVar =>
    rw [readStmt_var isVar]
    exact Accounts.cons (.word .kwVar) isVar (accounts_declaration more)
  | printed t more isPrint =>
    rw [readStmt_print isPrint]
    apply Accounts.cons (.word .kwPrint) isPrint
    apply (accounts_ended _ _ more).mono
    rintro _ _ ⟨e, canonical, rfl, rfl⟩
    exact ⟨.print canonical, rfl, Stmt.stops_of_closed rfl _⟩
  | block t more isBlock =>
    rw [readStmt_block isBlock]
    apply Accounts.cons (.word .leftBrace) isBlock
    apply (all true more (Nat.lt_succ_self _)).bind
    intro body _ _ _ inside
    apply Accounts.map
    apply (Accounts.expect_word _).mono
    intro _ _ closed
    refine ⟨.block inside.canonical, ?_, Stmt.stops_of_closed rfl _⟩
    simp [inside.spells, closed, Stmt.yield]
  | branch t more isIf =>
    rw [readStmt_if isIf]
    apply Accounts.cons (.word .kwIf) isIf
    apply (accounts_condition _ _ more).bind
    intro e _ _ shorter test
    apply (one _ (Nat.lt_succ_of_le shorter)).bind
    intro yes _ _ yesShorter first
    apply Accounts.continueIf
    · intro other
      refine ⟨.branch test.1 first.canonical, ?_, fun _ t head => by simpa using other t head⟩
      simp [test.2, first.spells, Stmt.yield]
    · intro u rest cut asked
      have isElse : u.kind = .kwElse := of_decide_eq_true asked
      have closed : yes.endsOpen = false := by
        cases opens : yes.endsOpen with
        | false => rfl
        | true => exact absurd isElse (first.stops opens u (by simp [cut]))
      apply Accounts.cons (.word .kwElse) isElse
      apply Accounts.map
      have restShorter : rest.length < (t :: more).length := by
        rw [cut] at yesShorter
        simp only [List.length_cons] at *
        omega
      apply (one rest restShorter).mono
      intro no _ second
      refine ⟨.branches test.1 first.canonical closed second.canonical, ?_, second.stops⟩
      simp [test.2, first.spells, second.spells, Stmt.yield]
  | loop t more isWhile =>
    rw [readStmt_while isWhile]
    apply Accounts.cons (.word .kwWhile) isWhile
    apply (accounts_condition _ _ more).bind
    intro e _ _ shorter test
    apply Accounts.map
    apply (one _ (Nat.lt_succ_of_le shorter)).mono
    intro body _ inside
    refine ⟨.loop test.1 inside.canonical, ?_, inside.stops⟩
    simp [test.2, inside.spells, Stmt.yield]
  | lone t more simple bare =>
    rw [readStmt_lone simple bare]
    exact lone _

theorem accounts_statements (inBlock : Bool) (tokens : List Token)
    (one : (readStmt tokens).Accounts tokens Stmt.Reads)
    (all : ∀ more, more.length < tokens.length →
      (readStmts inBlock more).Accounts more (Stmt.ReadsAll inBlock)) :
    (readStmts inBlock tokens).Accounts tokens (Stmt.ReadsAll inBlock) := by
  cases tokens with
  | nil => rw [readStmts_nil]; exact .done ⟨nofun, rfl, fun _ => rfl⟩
  | cons t more =>
    rw [readStmts_cons]
    split
    · rename_i closing
      simp only [Bool.and_eq_true] at closing
      exact .done ⟨nofun, rfl, by simp [closing.1]⟩
    · apply (Accounts.recover (readStmt_suffix _) one).bind
      intro found items _ _ holds
      apply Accounts.map
      apply (all _ (recover_shortens t more)).mono
      rintro body _ ⟨canonical, rfl, ended⟩
      cases found with
      | none => exact ⟨by simpa using canonical, by simp [holds], ended⟩
      | some s =>
        refine ⟨?_, by simp [holds.spells, Stmt.yieldAll], ended⟩
        simpa using ⟨holds.canonical, canonical⟩

theorem accounts_stmt (tokens : List Token) : (readStmt tokens).Accounts tokens Stmt.Reads :=
  (stmt_induction accounts_statement accounts_statements).1 tokens

theorem accounts_stmts (inBlock : Bool) (tokens : List Token) :
    (readStmts inBlock tokens).Accounts tokens (Stmt.ReadsAll inBlock) :=
  (stmt_induction accounts_statement accounts_statements).2 inBlock tokens

end Grammar

namespace Program

/-- Of all that a token list may hold, the statements that come back are canonical and have
their tokens there in order; with nothing to complain of there are no other tokens. -/
theorem statements_spelled (tokens : List Token) :
    (∀ s ∈ (ofTokens tokens).statements, s.Canonical) ∧
      Within (Stmt.yieldAll (ofTokens tokens).statements) (body tokens) ∧
      ((ofTokens tokens).diagnostics = [] →
        Spell (Stmt.yieldAll (ofTokens tokens).statements) (body tokens)) := by
  have accounts := Grammar.accounts_stmts false (body tokens)
  rw [statements_ofTokens, diagnostics_ofTokens, List.map_eq_nil_iff]
  cases found : (Grammar.readStmts false (body tokens)).value with
  | none =>
    exact ⟨nofun, within_nil _, fun clean => absurd clean (accounts.failed found)⟩
  | some parsed =>
    obtain ⟨items, read, cut, within, clean, canonical, rfl, ended⟩ := accounts.found parsed found
    rw [ended rfl, List.append_nil] at cut
    exact ⟨canonical, cut ▸ within, fun none => cut ▸ clean none⟩

end Program

end Scriptlet
