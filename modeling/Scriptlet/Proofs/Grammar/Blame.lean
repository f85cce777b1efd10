import Scriptlet.Proofs.Grammar.Program
import Scriptlet.Proofs.Grammar.Unclosed
import Mathlib.Data.List.Nodup
import Mathlib.Data.List.Perm.Subperm

/-!
Where faults are reported. No token is blamed twice, and the faults that end a statement are found
from the front to the back; only the end is blamed again, once for each block that stands open.
-/

namespace Scriptlet

open Outcome

variable {α β : Type}

namespace Report

def left (r : Report) : Nat := r.ahead.length

/-- What holds of two reports in their order: they blame different tokens unless both blame the
end, and the second is no nearer to the front if both faults end their statements. -/
structure Precedes (r s : Report) : Prop where
  apart : r.left = s.left → r.left = 0
  ordered : r.fault ≠ .invalidTarget → s.fault ≠ .invalidTarget → s.left ≤ r.left

theorem precedes_of_lt {r s : Report} (nearer : s.left < r.left) : r.Precedes s :=
  ⟨fun same => by omega, fun _ _ => Nat.le_of_lt nearer⟩

theorem precedes_of_end {r s : Report} (atEnd : s.left = 0) : r.Precedes s :=
  ⟨fun same => by omega, fun _ _ => by omega⟩

end Report

namespace Outcome

def blamesEnd (o : Outcome α) : Nat := o.reports.countP (·.left = 0)

/-- The tokens that are blamed lie between the first and those that are left, which are blamed
only by an outcome that is `stuck` at them. -/
structure Spread (o : Outcome α) (tokens : List Token) (stuck : Prop) : Prop where
  suffix : o.rest <:+ tokens
  ahead : ∀ r ∈ o.reports, r.ahead <:+ tokens
  kept : ∀ r ∈ o.reports, o.rest.length ≤ r.left
  passed : ¬ stuck → ∀ r ∈ o.reports, o.rest.length < r.left
  order : o.reports.Pairwise Report.Precedes
  ended : o.blamesEnd ≤ o.unclosed + 1

abbrev Careful (o : Outcome α) (tokens : List Token) : Prop := o.Spread tokens (o.value = none)

namespace Spread

variable {o : Outcome α} {p : Outcome β} {tokens more : List Token} {stuck after : Prop}

theorem of_silent (silent : o.reports = []) (suffix : o.rest <:+ tokens) :
    o.Spread tokens stuck := by
  constructor
  · exact suffix
  all_goals simp [silent, blamesEnd]

theorem of_same (h : o.Spread tokens stuck) (reports : p.reports = o.reports)
    (rest : p.rest = o.rest) (also : stuck → after) : p.Spread tokens after := by
  obtain ⟨value, _, _⟩ := p
  subst reports rest
  exact ⟨h.suffix, h.ahead, h.kept, fun moves => h.passed fun stays => moves (also stays), h.order,
    h.ended⟩

theorem weaken (h : o.Spread tokens stuck) (cut : tokens <:+ more) : o.Spread more stuck :=
  ⟨h.suffix.trans cut, fun r member => (h.ahead r member).trans cut, h.kept, h.passed, h.order,
    h.ended⟩

theorem blamesEnd_eq_zero (h : o.Spread tokens stuck) (moves : ¬ stuck) : o.blamesEnd = 0 := by
  apply List.countP_eq_zero.mpr
  intro r member
  have ahead := h.passed moves r member
  simp only [decide_eq_true_eq]
  omega

theorem append (h : o.Spread tokens stuck) (moves : ¬ stuck) (k : p.Spread o.rest after) :
    (⟨p.value, o.reports ++ p.reports, p.rest⟩ : Outcome β).Spread tokens after := by
  have shorter := k.suffix.length_le
  have first : ∀ r ∈ o.reports, p.rest.length < r.left := by
    intro r member
    have ahead := h.passed moves r member
    omega
  have second : ∀ s ∈ p.reports, s.left ≤ o.rest.length :=
    fun s member => (k.ahead s member).length_le
  constructor
  case suffix => exact k.suffix.trans h.suffix
  case ahead =>
    intro r member
    obtain member | member := List.mem_append.mp member
    · exact h.ahead r member
    · exact (k.ahead r member).trans h.suffix
  case kept =>
    intro r member
    obtain member | member := List.mem_append.mp member
    · exact Nat.le_of_lt (first r member)
    · exact k.kept r member
  case passed =>
    intro goes r member
    obtain member | member := List.mem_append.mp member
    · exact first r member
    · exact k.passed goes r member
  case order =>
    apply List.pairwise_append.mpr
    refine ⟨h.order, k.order, fun r one s other => Report.precedes_of_lt ?_⟩
    exact Nat.lt_of_le_of_lt (second s other) (h.passed moves r one)
  case ended =>
    have none := h.blamesEnd_eq_zero moves
    have ended := k.ended
    simp only [blamesEnd, unclosed, List.countP_append] at *
    omega

end Spread

namespace Careful

variable {o : Outcome α} {tokens : List Token}

theorem done (a : α) (tokens : List Token) : (Outcome.done a tokens).Careful tokens :=
  .of_silent rfl List.suffix_rfl

theorem fail (fault : Fault) (tokens : List Token) :
    (Outcome.fail fault tokens : Outcome α).Careful tokens := by
  constructor
  case suffix => exact List.suffix_rfl
  case passed => exact fun found => absurd rfl found
  case ended => exact Nat.le_trans List.countP_le_length (Nat.le_add_left _ _)
  all_goals simp [Outcome.fail, Report.left]

theorem bind {f : α → List Token → Outcome β} (h : o.Careful tokens)
    (next : ∀ a, o.value = some a → (f a o.rest).Careful o.rest) : (o.bind f).Careful tokens := by
  cases value : o.value with
  | none =>
    rw [bind_of_failed value]
    exact h.of_same rfl rfl fun _ => rfl
  | some a =>
    rw [bind_of_found value]
    exact h.append (by simp [value]) (next a value)

theorem map {f : α → β} (h : o.Careful tokens) : (o.map f).Careful tokens := by
  rw [map_eq_bind]
  exact h.bind fun a _ => done _ _

theorem after {t : Token} (h : o.Careful tokens) : o.Careful (t :: tokens) :=
  h.weaken (List.suffix_cons t tokens)

theorem expect (kind : Kind) (fault : Fault) (tokens : List Token) :
    (Outcome.expect kind fault tokens).Careful tokens := by
  cases tokens with
  | nil => exact fail fault []
  | cons t more =>
    by_cases same : t.kind = kind
    · rw [expect_cons same]
      exact after (done t more)
    · rw [Outcome.expect, if_neg same]
      exact fail fault (t :: more)

theorem continueIf {wanted : Kind → Bool} {a : α} {f : Token → List Token → Outcome α}
    (goes : ∀ t more, tokens = t :: more → (f t more).Careful (t :: more)) :
    (Outcome.continueIf wanted a f tokens).Careful tokens := by
  cases tokens with
  | nil => exact done a []
  | cons t more =>
    cases asked : wanted t.kind with
    | true =>
      rw [continueIf_cons asked]
      exact goes t more rfl
    | false =>
      rw [continueIf_of_other (by simpa using asked)]
      exact done a _

theorem discard {t : Token} (h : o.Careful tokens) (fault : Fault) :
    (o.discard ⟨fault, t :: tokens⟩ : Outcome β).Careful (t :: tokens) := by
  have within : ∀ s ∈ o.reports, s.left < (⟨fault, t :: tokens⟩ : Report).left :=
    fun s member => Nat.lt_succ_of_le (h.ahead s member).length_le
  have shorter := h.suffix.length_le
  constructor
  case suffix => exact h.suffix.trans (List.suffix_cons t tokens)
  case ahead =>
    exact List.forall_mem_cons.mpr ⟨List.suffix_rfl, fun s member => (h.after.ahead s member)⟩
  case kept => exact List.forall_mem_cons.mpr ⟨Nat.le_succ_of_le shorter, h.kept⟩
  case passed => exact fun found => absurd rfl found
  case order =>
    exact List.pairwise_cons.mpr
      ⟨fun s member => Report.precedes_of_lt (within s member), h.order⟩
  case ended =>
    have ended := h.ended
    have before : ¬ (⟨fault, t :: tokens⟩ : Report).left = 0 := Nat.succ_ne_zero _
    simp only [blamesEnd, unclosed, Outcome.discard, List.countP_cons, decide_eq_true_eq,
      if_neg before] at *
    omega

theorem assign {o : Outcome Expr} {t : Token} (h : o.Careful tokens) (target : Expr) :
    (o.bind fun value last => (Grammar.assign target value (t :: tokens) last).toOutcome).Careful
      (t :: tokens) := by
  by_cases isVar : ∃ name, target = .var name
  · obtain ⟨name, rfl⟩ := isVar
    exact (h.bind fun value _ => done _ _).after
  have other : ∀ name, target ≠ .var name := fun name same => isVar ⟨name, same⟩
  cases value : o.value with
  | none => exact (h.bind fun a found => by rw [value] at found; cases found).after
  | some a =>
    have moves : ¬ o.value = none := by simp [value]
    have shorter := h.suffix.length_le
    have passed : ∀ r ∈ o.reports ++ [⟨.invalidTarget, t :: tokens⟩],
        o.rest.length < r.left := by
      intro r member
      obtain member | member := List.mem_append.mp member
      · exact h.passed moves r member
      · obtain rfl := List.mem_singleton.mp member
        exact Nat.lt_succ_of_le shorter
    rw [bind_of_found value, Grammar.toOutcome_assign_other other]
    constructor
    case suffix => exact h.after.suffix
    case ahead =>
      intro r member
      obtain member | member := List.mem_append.mp member
      · exact h.after.ahead r member
      · obtain rfl := List.mem_singleton.mp member
        exact List.suffix_rfl
    case kept => exact fun r member => Nat.le_of_lt (passed r member)
    case passed => exact fun _ => passed
    case order =>
      apply List.pairwise_append.mpr
      refine ⟨h.order, List.pairwise_singleton _ _, fun r one s last => ?_⟩
      obtain rfl := List.mem_singleton.mp last
      have within := (h.ahead r one).length_le
      constructor
      · intro same
        simp only [Report.left, List.length_cons] at same
        omega
      · exact fun _ hard => absurd rfl hard
    case ended =>
      have none := h.blamesEnd_eq_zero moves
      simp only [blamesEnd, List.countP_append] at none ⊢
      rw [none]
      simp [Report.left]

end Careful

end Outcome

namespace Grammar

theorem careful_joins (level : Level) (tokens : List Token) (joins : level.joins)
    (operand : (readExpr level.next tokens).Careful tokens)
    (chain : ∀ left rest, rest.length < tokens.length →
      (readOperations level left rest).Careful rest) : (readExpr level tokens).Careful tokens := by
  rw [readExpr_joins joins]
  exact operand.bind fun left found =>
    chain left _ (readExpr_shortens (Option.isSome_of_eq_some found))

theorem careful_operations (level : Level) (left : Expr) (tokens : List Token)
    (operand : ∀ more, more.length < tokens.length → (readExpr level.next more).Careful more)
    (chain : ∀ left rest, rest.length < tokens.length →
      (readOperations level left rest).Careful rest) :
    (readOperations level left tokens).Careful tokens := by
  rw [readOperations_eq]
  apply Careful.continueIf
  rintro t more rfl
  apply Careful.after
  apply (operand more (Nat.lt_succ_self _)).bind
  intro right _
  exact chain _ _ (Nat.lt_succ_of_le (readExpr_suffix level.next more).length_le)

theorem careful_assignment (tokens : List Token)
    (target : (readExpr .conditional tokens).Careful tokens)
    (value : ∀ more, more.length < tokens.length → (readExpr .assignment more).Careful more) :
    (readExpr .assignment tokens).Careful tokens := by
  rw [readExpr_assignment]
  apply target.bind
  intro e found
  have shorter := readExpr_shortens (Option.isSome_of_eq_some found)
  apply Careful.continueIf
  intro t more cut
  rw [cut] at shorter
  exact (value more (Nat.lt_of_succ_lt shorter)).assign e

theorem careful_conditional (tokens : List Token)
    (condition : (readExpr .or tokens).Careful tokens)
    (branch : ∀ more, more.length < tokens.length → (readExpr .comma more).Careful more) :
    (readExpr .conditional tokens).Careful tokens := by
  rw [readExpr_conditional]
  apply condition.bind
  intro e found
  have shorter := readExpr_shortens (Option.isSome_of_eq_some found)
  apply Careful.continueIf
  intro t more cut
  rw [cut, List.length_cons] at shorter
  apply Careful.after
  apply (branch more (Nat.lt_of_succ_lt shorter)).bind
  intro yes _
  apply (Careful.expect .colon .missingColon _).bind
  intro _ _
  have kept := (readExpr_suffix .comma more).length_le
  have rest := expect_length .colon .missingColon (readExpr .comma more).rest
  exact (branch _ (by omega)).map

theorem careful_unary (tokens : List Token) (same : (readExpr .primary tokens).Careful tokens)
    (operand : ∀ more, more.length < tokens.length → (readExpr .primary more).Careful more) :
    (readExpr .unary tokens).Careful tokens := by
  cases tokens with
  | nil =>
    rw [readExpr_unary_nil]
    exact Careful.fail _ _
  | cons t more =>
    rw [readExpr_unary_cons]
    split
    · exact (operand more (Nat.lt_succ_self _)).map.after
    · exact same

theorem careful_primary (tokens : List Token)
    (inner : ∀ level more, more.length < tokens.length → (readExpr level more).Careful more) :
    (readExpr .primary tokens).Careful tokens := by
  cases tokens with
  | nil =>
    rw [readExpr_primary_nil]
    exact Careful.fail _ _
  | cons t more =>
    have inner := fun level => inner level more (Nat.lt_succ_self _)
    cases known : Expr.ofToken? t with
    | some e =>
      rw [readExpr_primary_atom known]
      exact (Careful.done e more).after
    | none =>
      cases orphan : t.kind.orphanLevel? with
      | some level =>
        rw [readExpr_primary_orphan known orphan]
        exact (inner level).discard _
      | none =>
        by_cases opens : t.kind = .leftParen
        · rw [readExpr_primary_group opens]
          exact ((inner .comma).bind fun _ _ => (Careful.expect _ _ _).map).after
        · rw [readExpr_primary_stray known orphan opens]
          exact Careful.fail _ _

theorem careful_expr (level : Level) (tokens : List Token) :
    (readExpr level tokens).Careful tokens :=
  (expr_induction careful_joins careful_assignment careful_conditional careful_unary
    careful_primary fun level left tokens _ => careful_operations level left tokens).1 level tokens

theorem careful_ended (fault : Fault) (node : Expr → Stmt) (tokens : List Token) :
    (readEnded fault node tokens).Careful tokens :=
  (careful_expr .comma tokens).bind fun _ _ => (Careful.expect _ _ _).map

theorem careful_declaration (tokens : List Token) : (readDeclaration tokens).Careful tokens := by
  apply (Careful.expect _ _ tokens).bind
  intro name _
  refine Careful.bind ?_ fun _ _ => (Careful.expect _ _ _).map
  exact Careful.continueIf fun _ more _ => (careful_expr .comma more).map.after

theorem careful_condition (unopened unclosed : Fault) (tokens : List Token) :
    (readCondition unopened unclosed tokens).Careful tokens := by
  apply (Careful.expect _ _ tokens).bind
  intro _ _
  exact (careful_expr .comma _).bind fun _ _ => (Careful.expect _ _ _).map

/-- A list of statements is stuck at the end only. -/
def CarefulAll (inBlock : Bool) (tokens : List Token) : Prop :=
  (readStmts inBlock tokens).Spread tokens ((readStmts inBlock tokens).rest = [])

theorem careful_block (more : List Token) (all : CarefulAll true more) :
    ((readStmts true more).bind fun body rest =>
      (Outcome.expect .rightBrace .unclosedBlock rest).map fun _ => Stmt.block body).Careful
        more := by
  obtain ⟨body, found⟩ := readStmts_found true more
  rw [bind_of_found found]
  by_cases left : (readStmts true more).rest = []
  · -- The end is blamed once more, for the block.
    have ended := all.ended
    rw [left]
    constructor
    case suffix => exact List.nil_suffix
    case ahead =>
      intro r member
      obtain member | member := List.mem_append.mp member
      · exact all.ahead r member
      · obtain rfl := List.mem_singleton.mp member
        exact List.nil_suffix
    case kept => exact fun _ _ => Nat.zero_le _
    case passed => exact fun found => absurd rfl found
    case order =>
      apply List.pairwise_append.mpr
      refine ⟨all.order, List.pairwise_singleton _ _, fun r _ s last => ?_⟩
      obtain rfl := List.mem_singleton.mp last
      exact Report.precedes_of_end rfl
    case ended =>
      simp only [blamesEnd, unclosed, List.countP_append] at *
      exact Nat.add_le_add ended (Nat.le_refl 1)
  · exact all.append left (Careful.expect _ _ _).map

theorem careful_statement (tokens : List Token)
    (one : ∀ more, more.length < tokens.length → (readStmt more).Careful more)
    (all : ∀ inBlock more, more.length < tokens.length → CarefulAll inBlock more) :
    (readStmt tokens).Careful tokens := by
  cases tokens using stmt_cases with
  | nil =>
    rw [readStmt_nil]
    exact careful_ended _ _ []
  | declaration t more isVar =>
    rw [readStmt_var isVar]
    exact (careful_declaration more).after
  | printed t more isPrint =>
    rw [readStmt_print isPrint]
    exact (careful_ended _ _ more).after
  | block t more isBlock =>
    rw [readStmt_block isBlock]
    exact (careful_block more (all true more (Nat.lt_succ_self _))).after
  | branch t more isIf =>
    rw [readStmt_if isIf]
    apply Careful.after
    apply (careful_condition _ _ more).bind
    intro e _
    have shorter := (readCondition_suffix .ifWithoutParen .unclosedIfCondition more).length_le
    apply (one _ (Nat.lt_succ_of_le shorter)).bind
    intro yes _
    apply Careful.continueIf
    intro u rest cut
    have kept := (readStmt_suffix
      (readCondition .ifWithoutParen .unclosedIfCondition more).rest).length_le
    rw [cut, List.length_cons] at kept
    exact (one rest (by simp only [List.length_cons]; omega)).map.after
  | loop t more isWhile =>
    rw [readStmt_while isWhile]
    apply Careful.after
    apply (careful_condition _ _ more).bind
    intro e _
    have shorter :=
      (readCondition_suffix .whileWithoutParen .unclosedWhileCondition more).length_le
    exact (one _ (Nat.lt_succ_of_le shorter)).map
  | lone t more simple bare =>
    rw [readStmt_lone simple bare]
    exact careful_ended _ _ _

theorem spread_recover {o : Outcome α} {tokens : List Token} (h : o.Careful tokens) :
    o.recover.Spread tokens (o.recover.rest = []) := by
  cases value : o.value with
  | some a =>
    have same : o.recover.rest = o.rest := by simp [recover, value]
    exact h.of_same rfl same fun failed => by rw [value] at failed; cases failed
  | none =>
    have skipped : o.recover.rest = resume o.rest := by simp [recover, value]
    have cut := resume_suffix o.rest
    rw [← skipped] at cut
    refine ⟨cut.trans h.suffix, h.ahead, fun r member => ?_, fun goes r member => ?_, h.order,
      h.ended⟩
    · exact Nat.le_trans cut.length_le (h.kept r member)
    · have kept := h.kept r member
      cases left : o.rest with
      | nil =>
        rw [skipped, left] at goes
        exact absurd rfl goes
      | cons t rest =>
        have shorter := resume_length t rest
        rw [left, List.length_cons] at kept
        rw [skipped, left]
        omega

theorem careful_statements (inBlock : Bool) (tokens : List Token)
    (one : (readStmt tokens).Careful tokens)
    (all : ∀ more, more.length < tokens.length → CarefulAll inBlock more) :
    CarefulAll inBlock tokens := by
  unfold CarefulAll
  cases tokens with
  | nil =>
    rw [readStmts_nil]
    exact .of_silent rfl List.suffix_rfl
  | cons t more =>
    rw [readStmts_cons]
    split
    · exact .of_silent rfl List.suffix_rfl
    · have first := spread_recover one
      have behind := all _ (recover_shortens t more)
      rw [bind_of_found rfl]
      by_cases left : (readStmt (t :: more)).recover.rest = []
      · rw [left, readStmts_nil]
        exact first.of_same (List.append_nil _) left.symm fun _ => rfl
      · exact first.append left (behind.of_same rfl rfl id)

theorem careful_all (inBlock : Bool) (tokens : List Token) : CarefulAll inBlock tokens :=
  (stmt_induction careful_statement careful_statements).2 inBlock tokens

end Grammar

/-- The place in the list of the token that is blamed; the end has the place behind the last. -/
def Report.place (tokens : List Token) (r : Report) : Nat := tokens.length - r.left

section Places

variable {tokens : List Token} {r : Report}

theorem Report.drop_place (ahead : r.ahead <:+ tokens) : tokens.drop (r.place tokens) = r.ahead :=
  (List.suffix_iff_eq_drop.mp ahead).symm

theorem Report.place_eq_length (ahead : r.ahead <:+ tokens) :
    r.place tokens = tokens.length ↔ r.left = 0 := by
  have within : r.left ≤ tokens.length := ahead.length_le
  unfold place
  omega

end Places

namespace Outcome.Spread

variable {o : Outcome α} {tokens : List Token} {stuck : Prop}

theorem nodup_places (h : o.Spread tokens stuck) :
    ((o.reports.map (Report.place tokens)).filter (· < tokens.length)).Nodup := by
  rw [List.nodup_iff_pairwise_ne, List.pairwise_filter, List.pairwise_map]
  apply h.order.imp_of_mem
  intro r s one other precedes before _ same
  have first : r.left ≤ tokens.length := (h.ahead r one).length_le
  have second : s.left ≤ tokens.length := (h.ahead s other).length_le
  have apart := precedes.apart
  have before := of_decide_eq_true before
  unfold Report.place at before same
  omega

theorem increasing_places (h : o.Spread tokens stuck) :
    ((o.reports.filter (·.fault ≠ .invalidTarget)).map (Report.place tokens)).Pairwise
      fun p q => p < q ∨ p = tokens.length ∧ q = tokens.length := by
  rw [List.pairwise_map, List.pairwise_filter]
  apply h.order.imp_of_mem
  intro r s one other precedes hard also
  have first : r.left ≤ tokens.length := (h.ahead r one).length_le
  have second : s.left ≤ tokens.length := (h.ahead s other).length_le
  have apart := precedes.apart
  have ordered := precedes.ordered (of_decide_eq_true hard) (of_decide_eq_true also)
  unfold Report.place
  omega

theorem count_end (h : o.Spread tokens stuck) :
    (o.reports.map (Report.place tokens)).count tokens.length = o.blamesEnd := by
  rw [List.count, List.countP_map]
  apply List.countP_congr
  intro r member
  simpa using Report.place_eq_length (h.ahead r member)

theorem length_reports (h : o.Spread tokens stuck) :
    o.reports.length ≤ tokens.length + o.blamesEnd := by
  let places := o.reports.map (Report.place tokens)
  have inner : places.countP (· < tokens.length) ≤ tokens.length := by
    have listed : places.filter (· < tokens.length) ⊆ List.range tokens.length := by
      intro p member
      exact List.mem_range.mpr (of_decide_eq_true (List.mem_filter.mp member).2)
    have fewer := (h.nodup_places.subperm listed).length_le
    rwa [← List.countP_eq_length_filter, List.length_range] at fewer
  have last : places.countP (tokens.length ≤ ·) = o.blamesEnd := by
    rw [← h.count_end]
    apply List.countP_congr
    intro p member
    obtain ⟨r, _, rfl⟩ := List.mem_map.mp member
    have within : r.place tokens ≤ tokens.length := Nat.sub_le _ _
    simp only [decide_eq_true_eq, beq_iff_eq]
    omega
  calc o.reports.length
      = places.length := (List.length_map _).symm
    _ = places.countP (· < tokens.length) + places.countP (tokens.length ≤ ·) := by
        simpa using places.length_eq_countP_add_countP (· < tokens.length)
    _ ≤ tokens.length + o.blamesEnd := Nat.add_le_add inner (Nat.le_of_eq last)

end Outcome.Spread

namespace Program

open Grammar

/-- Each diagnostic blames the token at its place. No place before the end is blamed twice, the
faults that end their statements come in the order of their places, and the end is blamed at most
once more than there are blocks that stand open at it. -/
theorem ofTokens_blames (tokens : List Token) :
    let front := body tokens
    let reports := (readStmts false front).reports
    let places := reports.map (Report.place front)
    (ofTokens tokens).diagnostics =
        reports.map (fun r =>
          Diagnostic.atToken (front[r.place front]?.getD (closing tokens)) r.fault) ∧
      (∀ r ∈ reports, front.drop (r.place front) = r.ahead) ∧
      (∀ place < front.length, places.count place ≤ 1) ∧
      ((reports.filter (·.fault ≠ .invalidTarget)).map (Report.place front)).Pairwise
        (fun p q => p < q ∨ p = front.length ∧ q = front.length) ∧
      places.count front.length ≤ openAmong false front + 1 ∧
      (ofTokens tokens).diagnostics.length ≤ front.length + 1 + openAmong false front := by
  intro front reports places
  have spread := careful_all false front
  have ended := spread.ended
  rw [unclosed_eq_open] at ended
  have dropped : ∀ r ∈ reports, front.drop (r.place front) = r.ahead :=
    fun r member => Report.drop_place (spread.ahead r member)
  refine ⟨?diagnostics, dropped, ?once, spread.increasing_places, ?ending, ?length⟩
  case diagnostics =>
    rw [diagnostics_ofTokens]
    apply List.map_congr_left
    intro r member
    rw [← List.head?_drop, dropped r member, ← List.headD_eq_head?_getD]
    rfl
  case once =>
    intro place before
    have single := List.nodup_iff_count_le_one.mp spread.nodup_places place
    rwa [List.count_filter (by simpa using before)] at single
  case ending =>
    show List.count _ _ ≤ _
    rwa [spread.count_end]
  case length =>
    rw [diagnostics_ofTokens, List.length_map]
    calc reports.length
        ≤ front.length + (readStmts false front).blamesEnd := spread.length_reports
      _ ≤ front.length + (openAmong false front + 1) := Nat.add_le_add_left ended _
      _ = front.length + 1 + openAmong false front := by omega

example :
    let tokens : List Token := [⟨.leftBrace, "\x7b", none, 1⟩, ⟨.leftBrace, "\x7b", none, 1⟩,
      ⟨.kwPrint, "print", none, 1⟩]
    openAmong false tokens = 2 ∧
      (readStmts false tokens).reports.map (Report.place tokens) = [3, 3, 3] := by
  constructor <;> cbv

end Program

end Scriptlet
