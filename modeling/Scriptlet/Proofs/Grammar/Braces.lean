import Scriptlet.Proofs.Grammar.Fragment

/-!
Blocks and recovery. What is skipped after a failure may hold the brace that closes a block. It
does not where every block ends with a semicolon: then a block is only left at its own brace.
-/

namespace Scriptlet

open Outcome

/-- Braces match, if `depth` blocks are open before the tokens. -/
def Matched : (depth : Nat) → List Token → Prop
  | depth, [] => depth = 0
  | depth, t :: rest =>
    match t.kind with
    | .leftBrace => Matched (depth + 1) rest
    | .rightBrace => 0 < depth ∧ Matched (depth - 1) rest
    | _ => Matched depth rest

/-- In each block the last token that is no brace is a semicolon, if there is one. Of the blocks
that are open before the tokens the outer ones are `busy`: they hold such a token last that is
none. The others are `idle`. -/
def Ended : (busy idle : Nat) → List Token → Prop
  | _, _, [] => True
  | busy, idle, t :: rest =>
    match t.kind with
    | .leftBrace => Ended busy (idle + 1) rest
    | .rightBrace => 0 < idle ∧ Ended busy (idle - 1) rest
    | .semicolon => Ended 0 (busy + idle) rest
    | _ => Ended (busy + idle) 0 rest

structure Enclosed (busy idle : Nat) (tokens : List Token) : Prop where
  matched : Matched (busy + idle) tokens
  ended : Ended busy idle tokens

namespace Enclosed

variable {busy idle : Nat} {t : Token} {rest : List Token}

theorem leftBrace (h : Enclosed busy idle (t :: rest)) (kind : t.kind = .leftBrace) :
    Enclosed busy (idle + 1) rest := by
  obtain ⟨matched, ended⟩ := h
  simp only [Matched, Ended, kind] at matched ended
  exact ⟨matched, ended⟩

theorem rightBrace (h : Enclosed busy idle (t :: rest)) (kind : t.kind = .rightBrace) :
    ∃ inner, idle = inner + 1 ∧ Enclosed busy inner rest := by
  obtain ⟨matched, ended⟩ := h
  simp only [Matched, Ended, kind] at matched ended
  obtain ⟨inner, rfl⟩ := Nat.exists_eq_add_one.mpr ended.1
  exact ⟨inner, rfl, matched.2, ended.2⟩

theorem semicolon (h : Enclosed busy idle (t :: rest)) (kind : t.kind = .semicolon) :
    Enclosed 0 (busy + idle) rest := by
  obtain ⟨matched, ended⟩ := h
  simp only [Matched, Ended, kind] at matched ended
  exact ⟨by rwa [Nat.zero_add], ended⟩

theorem plain (h : Enclosed busy idle (t :: rest))
    (kind : t.kind ∉ [.semicolon, .leftBrace, .rightBrace]) :
    Enclosed (busy + idle) 0 rest := by
  obtain ⟨matched, ended⟩ := h
  have one : Matched (busy + idle) rest := by
    cases same : t.kind <;> simp_all [Matched]
  have two : Ended (busy + idle) 0 rest := by
    cases same : t.kind <;> simp_all [Ended]
  exact ⟨one, two⟩

end Enclosed

def Open (depth : Nat) (tokens : List Token) : Prop :=
  ∃ busy idle, depth ≤ busy + idle ∧ Enclosed busy idle tokens

/-- At least so many blocks are open and in the middle of a statement. -/
def Busy (depth : Nat) (tokens : List Token) : Prop :=
  ∃ busy idle, depth ≤ busy ∧ Enclosed busy idle tokens

/-- A brace comes next only in the middle of a statement. -/
def Ready (depth : Nat) (tokens : List Token) : Prop :=
  Open depth tokens ∧ ∀ t ∈ tokens.head?, t.kind = .leftBrace ∨ t.kind = .rightBrace →
    Busy depth tokens

variable {depth : Nat} {t : Token} {tokens rest : List Token}

namespace Open

theorem ne_nil (h : Open (depth + 1) tokens) : tokens ≠ [] := by
  rintro rfl
  obtain ⟨busy, idle, le, matched, _⟩ := h
  have none : busy + idle = 0 := matched
  omega

theorem busy_zero (h : Open 0 tokens) : Busy 0 tokens := by
  obtain ⟨busy, idle, _, enclosed⟩ := h
  exact ⟨busy, idle, Nat.zero_le _, enclosed⟩

theorem leftBrace (h : Open depth (t :: rest)) (kind : t.kind = .leftBrace) :
    Open (depth + 1) rest := by
  obtain ⟨busy, idle, le, enclosed⟩ := h
  exact ⟨busy, idle + 1, by omega, enclosed.leftBrace kind⟩

theorem rightBrace (h : Open (depth + 1) (t :: rest)) (kind : t.kind = .rightBrace) :
    Open depth rest := by
  obtain ⟨busy, idle, le, enclosed⟩ := h
  obtain ⟨inner, rfl, outside⟩ := enclosed.rightBrace kind
  exact ⟨busy, inner, by omega, outside⟩

theorem semicolon (h : Open depth (t :: rest)) (kind : t.kind = .semicolon) :
    Open depth rest := by
  obtain ⟨busy, idle, le, enclosed⟩ := h
  exact ⟨0, busy + idle, by omega, enclosed.semicolon kind⟩

theorem plain (h : Open depth (t :: rest))
    (kind : t.kind ∉ [.semicolon, .leftBrace, .rightBrace]) : Busy depth rest := by
  obtain ⟨busy, idle, le, enclosed⟩ := h
  exact ⟨busy + idle, 0, le, enclosed.plain kind⟩

end Open

namespace Busy

theorem opened (h : Busy depth tokens) : Open depth tokens := by
  obtain ⟨busy, idle, le, enclosed⟩ := h
  exact ⟨busy, idle, by omega, enclosed⟩

theorem ready (h : Busy depth tokens) : Ready depth tokens := ⟨h.opened, fun _ _ _ => h⟩

theorem tail (h : Busy depth (t :: rest)) (goes : t.kind ≠ .semicolon) : Busy depth rest := by
  by_cases kind : t.kind ∉ [.semicolon, .leftBrace, .rightBrace]
  · exact h.opened.plain kind
  obtain ⟨busy, idle, le, enclosed⟩ := h
  simp only [List.mem_cons, goes, List.not_mem_nil, or_false, false_or, not_not] at kind
  obtain opens | closes := kind
  · exact ⟨busy, idle + 1, le, enclosed.leftBrace opens⟩
  · obtain ⟨inner, _, enclosed⟩ := enclosed.rightBrace closes
    exact ⟨busy, inner, le, enclosed⟩

theorem resume (h : Busy depth tokens) : Open depth (Grammar.resume tokens) := by
  induction tokens with
  | nil => exact h.opened
  | cons t rest ih =>
    rw [Grammar.resume]
    by_cases ends : t.kind = .semicolon
    · rw [if_pos (by simp [ends])]
      exact h.opened.semicolon ends
    · have inside := h.tail ends
      split
      · exact inside.opened
      · exact ih inside

end Busy

namespace Ready

theorem native (inside : t.kind.foreign = false) (h : Ready depth (t :: rest)) :
    Ready depth rest := by
  apply (h.1.plain _).ready
  generalize t.kind = kind at inside
  cases kind <;> simp_all [Kind.foreign]

theorem resume (h : Ready depth tokens) : Open depth (Grammar.resume tokens) := by
  obtain ⟨opened, brace⟩ := h
  cases tokens with
  | nil => exact opened
  | cons t rest =>
    by_cases ends : t.kind = .semicolon
    · rw [Grammar.resume, if_pos (by simp [ends])]
      exact opened.semicolon ends
    by_cases isBrace : t.kind = .leftBrace ∨ t.kind = .rightBrace
    · exact (brace t rfl isBrace).resume
    have inside : Busy depth rest := opened.plain (by simp_all)
    rw [Grammar.resume]
    split
    · exact inside.opened
    · exact inside.resume

end Ready

namespace Grammar

/-- Reading a statement never finds a block unclosed, and keeps the blocks around it open. -/
def ClosesStmt (tokens : List Token) : Prop :=
  ∀ depth, Open depth tokens → (∀ t ∈ tokens.head?, t.kind = .rightBrace → Busy depth tokens) →
    (readStmt tokens).Ensures (·.fault ≠ .unclosedBlock)
      (fun rest => Open depth (resume rest)) fun _ => Open depth

def ClosesStmts (inBlock : Bool) (tokens : List Token) : Prop :=
  ∀ depth, Open depth tokens → (if inBlock then 0 < depth else depth = 0) →
    (readStmts inBlock tokens).Ensures (·.fault ≠ .unclosedBlock) (fun _ => False)
      fun _ rest => Open depth rest ∧ (inBlock → ∃ t more, rest = t :: more ∧ t.kind = .rightBrace)

theorem closes_of_kept {o : Outcome Stmt}
    (kept : o.Ensures (Report.Among Fault.ofSimple (Ready depth)) (Ready depth)
      fun _ => Behind (Ready depth)) :
    o.Ensures (·.fault ≠ .unclosedBlock) (fun rest => Open depth (resume rest))
      fun _ => Open depth := by
  apply kept.mono
  · rintro r ⟨member, _⟩ unclosed
    rw [unclosed] at member
    revert member
    decide
  · exact fun _ => Ready.resume
  · rintro _ rest ⟨u, ends, ready⟩
    exact ready.1.semicolon ends

theorem closes_simple {t : Token}
    (simple : t.kind ≠ .leftBrace ∧ t.kind ≠ .kwIf ∧ t.kind ≠ .kwWhile) {more : List Token}
    (opened : Open depth (t :: more)) (closing : t.kind = .rightBrace → Busy depth (t :: more)) :
    (readStmt (t :: more)).Ensures (·.fault ≠ .unclosedBlock)
      (fun rest => Open depth (resume rest)) fun _ => Open depth := by
  have ready : Ready depth (t :: more) := by
    refine ⟨opened, ?_⟩
    rintro _ ⟨⟩ (opens | closes)
    · exact absurd opens simple.1
    · exact closing closes
  apply closes_of_kept
  apply readStmt_simple_keeps (fun _ _ => Ready.native) simple _ ready
  intro word _
  exact (opened.plain (by rcases word with word | word <;> simp [word])).ready

theorem closes_condition {unopened unclosed : Fault}
    (other : .unclosedBlock ∉ unopened :: unclosed :: Fault.ofExpr) (busy : Busy depth tokens) :
    (readCondition unopened unclosed tokens).Ensures (·.fault ≠ .unclosedBlock)
      (fun rest => Open depth (resume rest)) fun _ => Ready depth := by
  apply (readCondition_keeps (fun _ _ => Ready.native) _ _ busy.ready).mono
  · rintro r ⟨member, _⟩ same
    exact other (same ▸ member)
  · exact fun _ => Ready.resume
  · exact fun _ _ => id

theorem closes_statement (tokens : List Token)
    (one : ∀ more, more.length < tokens.length → ClosesStmt more)
    (all : ∀ inBlock more, more.length < tokens.length → ClosesStmts inBlock more) :
    ClosesStmt tokens := by
  intro depth opened closing
  cases tokens with
  | nil =>
    rw [readStmt_nil]
    exact closes_of_kept
      (readEnded_keeps (fun _ _ => Ready.native) (by decide) _ ⟨opened, nofun⟩)
  | cons t more =>
    have closing : t.kind = .rightBrace → Busy depth (t :: more) := closing t rfl
    by_cases isBlock : t.kind = .leftBrace
    · rw [readStmt_block isBlock]
      apply ((all true more (Nat.lt_succ_self _) (depth + 1) (opened.leftBrace isBlock)
        (Nat.succ_pos _)).mono (fun _ => id) (fun _ => False.elim) fun _ _ => id).bind
      rintro body _ ⟨inside, closed⟩
      obtain ⟨u, rest, left, closes⟩ := closed rfl
      rw [left] at inside ⊢
      rw [expect_cons closes]
      exact Ensures.done (inside.rightBrace closes)
    by_cases isIf : t.kind = .kwIf
    · rw [readStmt_if isIf]
      have busy : Busy depth more := opened.plain (by simp [isIf])
      apply (closes_condition (by decide) busy).bind
      intro e _ ready
      have shorter := (readCondition_suffix .ifWithoutParen .unclosedIfCondition more).length_le
      generalize (readCondition .ifWithoutParen .unclosedIfCondition more).rest = behind
        at ready shorter
      -- A branch starts in the middle of a statement, so a closing brace may fail there.
      apply (one behind (Nat.lt_succ_of_le shorter) depth ready.1
        fun u head kind => ready.2 u head (.inr kind)).bind
      intro yes _ opened
      have yesShorter := (readStmt_suffix behind).length_le
      apply Ensures.continueIf
      · exact opened
      intro u rest cut asked
      have orElse : u.kind = .kwElse := of_decide_eq_true asked
      rw [cut] at opened yesShorter
      have busy : Busy depth rest := opened.plain (by simp [orElse])
      apply Ensures.map
      apply one rest _ depth busy.opened fun _ _ _ => busy
      simp only [List.length_cons] at *
      omega
    by_cases isWhile : t.kind = .kwWhile
    · rw [readStmt_while isWhile]
      have busy : Busy depth more := opened.plain (by simp [isWhile])
      apply (closes_condition (by decide) busy).bind
      intro e _ ready
      have shorter :=
        (readCondition_suffix .whileWithoutParen .unclosedWhileCondition more).length_le
      apply Ensures.map
      exact one _ (Nat.lt_succ_of_le shorter) depth ready.1
        fun u head kind => ready.2 u head (.inr kind)
    · exact closes_simple ⟨isBlock, isIf, isWhile⟩ opened closing

theorem closes_statements (inBlock : Bool) (tokens : List Token) (one : ClosesStmt tokens)
    (all : ∀ more, more.length < tokens.length → ClosesStmts inBlock more) :
    ClosesStmts inBlock tokens := by
  intro depth opened deep
  cases tokens with
  | nil =>
    rw [readStmts_nil]
    refine Ensures.done ⟨opened, fun inside => ?_⟩
    obtain ⟨outer, rfl⟩ := Nat.exists_eq_add_one.mpr (show 0 < depth by simpa [inside] using deep)
    exact absurd rfl opened.ne_nil
  | cons t more =>
    rw [readStmts_cons]
    split
    case isTrue closes =>
      simp only [Bool.and_eq_true, decide_eq_true_eq] at closes
      exact Ensures.done ⟨opened, fun _ => ⟨t, more, rfl, closes.2⟩⟩
    case isFalse goes =>
      have closing : ∀ u ∈ (t :: more).head?, u.kind = .rightBrace → Busy depth (t :: more) := by
        rintro _ ⟨⟩ kind
        have outside : inBlock = false := by simpa [kind] using goes
        obtain rfl : depth = 0 := by simpa [outside] using deep
        exact opened.busy_zero
      apply (Ensures.recover (one depth opened closing)).bind
      intro found _ opened
      exact (all _ (recover_shortens t more) depth opened deep).map

theorem resume_fragment (M : Fragment) {closing : Token} (shuts : closing.kind = .rightBrace) :
    resume (M.left closing) = [] := by
  obtain ⟨front, cut, inside⟩ := left_fragment M (n := closing) (by rw [shuts]; rfl)
    (by rw [shuts]; nofun)
  have other : closing.kind.startsStatement = false := by rw [shuts]; rfl
  rw [cut, resume_append]
  · simp [resume, shuts]
  · exact fun t member => M.no_semicolon t (inside.mem member)
  · exact fun t member => M.single t (mem_tail_of_suffix inside member)
  · exact fun _ => by simpa using other

theorem readStmt_unended (M : Fragment) {opening closing : Token}
    (opens : opening.kind = .leftBrace) (shuts : closing.kind = .rightBrace) :
    ∃ reports, readStmt (opening :: (M.tokens ++ [closing])) =
      ⟨none, reports ++ [⟨.unclosedBlock, []⟩], []⟩ := by
  have foreign : closing.kind.foreign := by rw [shuts]; rfl
  have other : closing.kind ≠ .semicolon := by rw [shuts]; nofun
  have body := readStmts_fragment M foreign other true []
  rw [List.append_nil, resume_fragment M shuts, readStmts_nil] at body
  rw [readStmt_block opens, body]
  exact ⟨_, rfl⟩

end Grammar

namespace Program

open Grammar

/-- No block is found unclosed where braces match and what is in a block ends with a semicolon.
The braces alone are not enough: a block whose only statement lacks its semicolon is skipped
with its closing brace. -/
theorem ofTokens_braces (tokens : List Token) (matched : Matched 0 (body tokens)) :
    (Ended 0 0 (body tokens) →
      ∀ d ∈ (ofTokens tokens).diagnostics, d.fault ≠ .unclosedBlock) ∧
    ∀ (M : Fragment) opening closing, body tokens = opening :: (M.tokens ++ [closing]) →
      opening.kind = .leftBrace → closing.kind = .rightBrace →
        (ofTokens tokens).statements = [] ∧
          ∃ d ∈ (ofTokens tokens).diagnostics, d.fault = .unclosedBlock := by
  constructor
  · intro ended d member
    have opened : Open 0 (body tokens) := ⟨0, 0, Nat.le_refl 0, matched, ended⟩
    have closes := (stmt_induction closes_statement closes_statements).2 false (body tokens) 0
      opened rfl
    rw [diagnostics_ofTokens] at member
    obtain ⟨r, reported, rfl⟩ := List.mem_map.mp member
    exact closes.reports r reported
  · intro M opening closing cut opens shuts
    obtain ⟨reports, failed⟩ := readStmt_unended M opens shuts
    have read : readStmts false (body tokens) =
        ⟨some [], reports ++ [⟨.unclosedBlock, []⟩], []⟩ := by
      rw [cut, readStmts_cons, if_neg (by simp), failed]
      simp [recover, Outcome.bind, Outcome.map, resume, readStmts_nil, done]
    rw [statements_ofTokens, diagnostics_ofTokens, read]
    exact ⟨rfl, Report.diagnostic (Program.closing tokens) ⟨.unclosedBlock, []⟩, by simp, rfl⟩

def leftBraceMark : Token := ⟨.leftBrace, "\x7b", none, 1⟩

def rightBraceMark : Token := ⟨.rightBrace, "\x7d", none, 1⟩

def brokenBlock : List Token :=
  leftBraceMark :: ⟨.name, "x", none, 1⟩ :: ⟨.equal, "=", none, 1⟩ :: ⟨.semicolon, ";", none, 1⟩ ::
    leftBraceMark :: printWord :: (endOfPrint ++ [rightBraceMark, rightBraceMark])

theorem ofTokens_braces_kept :
    Matched 0 (body brokenBlock) ∧ Ended 0 0 (body brokenBlock) ∧
      ofTokens brokenBlock =
        ⟨[.block [.block [.print (.var ⟨.name, "c", none, 1⟩)]]],
          [⟨1, .atLexeme ";", .expectedExpression⟩]⟩ ∧
      ∀ d ∈ (ofTokens brokenBlock).diagnostics, d.fault ≠ .unclosedBlock := by
  have all : body brokenBlock = brokenBlock := by cbv
  have matched : Matched 0 (body brokenBlock) := by
    rw [all]
    simp [Matched, brokenBlock, leftBraceMark, rightBraceMark, printWord, endOfPrint]
  have ended : Ended 0 0 (body brokenBlock) := by
    rw [all]
    simp [Ended, brokenBlock, leftBraceMark, rightBraceMark, printWord, endOfPrint]
  exact ⟨matched, ended, by cbv, (ofTokens_braces brokenBlock matched).1 ended⟩

/-- The braces of a block around `print a` match, and yet the block is found unclosed. -/
theorem ofTokens_unended_block :
    Matched 0 (body (leftBraceMark :: (printOne.tokens ++ [rightBraceMark]))) ∧
      ofTokens (leftBraceMark :: (printOne.tokens ++ [rightBraceMark])) =
        ⟨[], [⟨1, .atLexeme "\x7d", .unendedPrint⟩, ⟨1, .atEnd, .unclosedBlock⟩]⟩ := by
  have all : body (leftBraceMark :: (printOne.tokens ++ [rightBraceMark])) =
      leftBraceMark :: (printOne.tokens ++ [rightBraceMark]) := by cbv
  constructor
  · rw [all]
    simp [Matched, printOne, leftBraceMark, rightBraceMark, printWord]
  · cbv

end Program

end Scriptlet
