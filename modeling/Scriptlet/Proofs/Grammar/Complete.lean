import Scriptlet.Proofs.Grammar.Lookahead
import Scriptlet.Proofs.Grammar.Program

/-!
Completeness of reading. The tokens that a canonical tree spells are read as that tree, whatever
comes behind them as long as it does not go on with the tree.
-/

namespace Scriptlet

open Terminal Outcome

namespace Grammar

theorem continueIf_of_stops {α : Type} {level : Level} {wanted : Kind → Bool}
    {rest : List Token} (stops : level.Stops rest)
    (joint : ∀ kind, wanted kind → kind.joint? = some level) (a : α)
    (f : Token → List Token → Outcome α) : Outcome.continueIf wanted a f rest = .done a rest := by
  apply continueIf_of_other
  intro t head
  cases asked : wanted t.kind with
  | false => rfl
  | true => exact absurd (joint t.kind asked) (stops.ne_joint t head)

theorem readOperations_of_stops {level : Level} {left : Expr} {rest : List Token}
    (stops : level.Stops rest) : readOperations level left rest = .done left rest := by
  rw [readOperations_eq]
  apply continueIf_of_stops stops
  intro kind asked
  exact Kind.joint?_of_level? (of_decide_eq_true asked)

theorem readExpr_of_next {level : Level} (loose : level ≠ .primary) {e : Expr}
    {tokens rest : List Token} (found : readExpr level.next tokens = .done e rest)
    (stops : level.Stops rest) : readExpr level tokens = .done e rest := by
  cases level with
  | primary => exact absurd rfl loose
  | unary =>
    cases tokens with
    | nil => rw [Level.next, readExpr_primary_nil] at found; cases found
    | cons t more =>
      have plain : t.kind.isUnary = false := by
        by_contra sign
        rw [Level.next, readExpr_primary_of_bar (.inr (by simpa using sign))] at found
        cases found
      rw [readExpr_unary_cons, plain]
      exact found
  | conditional =>
    rw [readExpr_conditional]
    simp only [Level.next] at found
    rw [found, done_bind]
    apply continueIf_of_stops stops
    intro kind asked
    exact Kind.joint?_eq_conditional.mpr (of_decide_eq_true asked)
  | assignment =>
    rw [readExpr_assignment]
    simp only [Level.next] at found
    rw [found, done_bind]
    apply continueIf_of_stops stops
    intro kind asked
    exact Kind.joint?_eq_assignment.mpr (of_decide_eq_true asked)
  | _ => rw [readExpr_joins rfl, found, done_bind, readOperations_of_stops stops]

theorem readExpr_climb {level looser : Level} {e : Expr} {tokens rest : List Token}
    (found : readExpr level tokens = .done e rest) (le : level.rank ≤ looser.rank)
    (stops : looser.Stops rest) : readExpr looser tokens = .done e rest := by
  induction looser using Level.tightening with
  | primary => rwa [← Level.rank_injective _ _ (Nat.le_antisymm le (Nat.zero_le _))]
  | step looser loose ih =>
    have next := Level.rank_next loose
    by_cases same : level.rank = looser.rank
    · rwa [← Level.rank_injective _ _ same]
    · have read := ih (by omega) (stops.mono (by omega))
      exact readExpr_of_next loose read stops

/-- The tokens are read as the tree, and in front of an operator as its left operand. -/
structure Readable (e : Expr) (tokens : List Token) : Prop where
  whole : ∀ level rest, e.level.rank ≤ level.rank → (e.reach level).Stops rest →
    readExpr level (tokens ++ rest) = .done e rest
  operand : ∀ level rest, level.joins → e.level.rank ≤ level.rank →
    (e.reach level.next).Stops rest → readExpr level (tokens ++ rest) = readOperations level e rest

theorem Readable.before {e : Expr} {tokens : List Token} (h : Readable e tokens) {t : Token}
    (alone : t.kind.joint? = none) (more : List Token) :
    readExpr .comma (tokens ++ t :: more) = .done e (t :: more) :=
  h.whole .comma _ (Level.rank_le_comma _) (Level.stops_of_unjoined alone _ more)

theorem readable_of_own {e : Expr} {tokens : List Token}
    (own : ∀ rest, (e.reach e.level).Stops rest → readExpr e.level (tokens ++ rest) = .done e rest)
    (chained : e.level.joins → ∀ rest, (e.reach e.level.next).Stops rest →
      readExpr e.level (tokens ++ rest) = readOperations e.level e rest) : Readable e tokens := by
  have whole : ∀ level rest, e.level.rank ≤ level.rank → (e.reach level).Stops rest →
      readExpr level (tokens ++ rest) = .done e rest := by
    intro level rest le stops
    have read := own rest (stops.mono (e.reach_mono le))
    exact readExpr_climb read le (stops.mono (e.rank_le_reach level))
  refine ⟨whole, ?_⟩
  intro level rest joins le stops
  by_cases same : e.level = level
  · subst same
    exact chained joins rest stops
  · have loose : level ≠ .primary := by rintro rfl; cases joins
    have next := Level.rank_next loose
    have differs : e.level.rank ≠ level.rank := fun h => same (Level.rank_injective _ _ h)
    rw [readExpr_joins joins, whole level.next rest (by omega) stops, done_bind]

theorem readable_of_single {e : Expr} {tokens : List Token} (single : e.level.joins = false)
    (own : ∀ rest, (e.reach e.level).Stops rest →
      readExpr e.level (tokens ++ rest) = .done e rest) : Readable e tokens :=
  readable_of_own own fun joins => by rw [single] at joins; cases joins

theorem readable_of_join {level : Level} {op : Token} {left right : Expr}
    {front back : List Token} (operator : op.kind.level? = some level)
    (admits : level.Admits left right) (first : Readable left front)
    (second : Readable right back) :
    Readable (level.join op left right) (front ++ op :: back) := by
  have joins := Level.joins_of_level? operator
  have joined := Level.level_join operator left right
  have reaches := admits.reach_join operator
  have chained : ∀ rest, (right.reach level.next).Stops rest →
      readExpr level (front ++ op :: back ++ rest) =
        readOperations level (level.join op left right) rest := by
    intro rest stops
    rw [List.append_assoc, List.cons_append,
      first.operand level _ joins admits.loose (admits.stops_left operator _),
      readOperations_eq, continueIf_cons (by simpa using operator),
      second.whole level.next rest (admits.tight_next operator) stops, done_bind]
  apply readable_of_own <;> rw [joined]
  · intro rest stops
    rw [reaches] at stops
    have tighter := stops.mono (right.reach_mono level.rank_next_le)
    rw [chained rest tighter]
    exact readOperations_of_stops (stops.mono (Expr.rank_le_reach _ _))
  · intro _ rest stops
    exact chained rest (reaches level.next ▸ stops)

theorem readable_of_token {t : Token} {e : Expr} (known : Expr.ofToken? t = some e)
    (atom : e.level = .primary) : Readable e [t] := by
  apply readable_of_single (by rw [atom]; rfl)
  intro rest _
  rw [atom, List.cons_append, readExpr_primary_atom known]
  rfl

theorem Readable.question {condition : Expr} {tokens : List Token} (h : Readable condition tokens)
    (tight : condition.level.rank ≤ Level.or.rank) {question : Token}
    (asks : question.kind = .question) (more : List Token) :
    readExpr .conditional (tokens ++ question :: more) =
      (readExpr .comma more).bind fun yes rest =>
        (Outcome.expect .colon .missingColon rest).bind fun _ rest =>
          (readExpr .comma rest).map (Expr.conditional condition yes) := by
  have closed := Expr.closed_of_tight (Nat.lt_of_le_of_lt tight (by decide))
  have asked : (condition.reach .or).Stops (question :: more) := by
    rw [Expr.reach_eq closed, Level.stops_cons, asks]
    rintro _ ⟨⟩
    decide
  rw [readExpr_conditional, h.whole .or _ tight asked, done_bind,
    continueIf_cons (decide_eq_true asks)]

theorem readExpr_given {name equal : Token} (named : name.kind = .name)
    (gives : equal.kind = .equal) (more : List Token) :
    readExpr .assignment (name :: equal :: more) =
      (readExpr .assignment more).bind fun value last => .done (.assign name value) last := by
  have target : Readable (.var name) [name] :=
    readable_of_token (by simp [Expr.ofToken?, named]) rfl
  have given : ((Expr.var name).reach .conditional).Stops (equal :: more) := by
    rw [Expr.reach_eq rfl, Level.stops_cons, gives]
    rintro _ ⟨⟩
    decide
  have read := target.whole .conditional _ (by simp [Expr.level, Level.rank]) given
  rw [List.singleton_append] at read
  rw [readExpr_assignment, read, done_bind, continueIf_cons (decide_eq_true gives)]
  rfl

theorem readable_of_canonical {e : Expr} (canonical : e.Canonical) {tokens : List Token}
    (spelled : Spell e.yield tokens) : Readable e tokens := by
  induction canonical generalizing tokens with
  | string s | number x =>
    obtain ⟨t, rfl, fits⟩ := spell_singleton_iff.mp spelled
    exact readable_of_token (by simp [Expr.ofToken?, fits.1, fits.2]) rfl
  | bool b =>
    obtain ⟨t, rfl, fits⟩ := spell_singleton_iff.mp spelled
    cases b <;> exact readable_of_token (by simp_all [Expr.ofToken?, Fits]) rfl
  | nil =>
    obtain ⟨t, rfl, fits⟩ := spell_singleton_iff.mp spelled
    exact readable_of_token (by simp_all [Expr.ofToken?, Fits]) rfl
  | var named =>
    obtain ⟨t, rfl, rfl⟩ := spell_singleton_iff.mp spelled
    exact readable_of_token (by simp [Expr.ofToken?, named]) rfl
  | @unary op operand operator tight _ ih =>
    obtain ⟨t, back, rfl, rfl, inside⟩ := spell_cons_iff.mp spelled
    have inner := ih inside
    apply readable_of_single rfl
    intro rest _
    have read := inner.whole .primary rest (Nat.le_of_eq (by rw [tight])) (by
      rw [Expr.reach_eq (Expr.closed_of_tight (by rw [tight]; decide))]
      exact Level.stops_of_tight (by decide) rest)
    simp only [Expr.level, List.cons_append, readExpr_unary_cons, operator, if_true, read, map_done]
  | binary operator plain admits _ _ first second =>
    obtain ⟨front, _, rfl, before, after⟩ := spell_append_iff.mp spelled
    obtain ⟨t, back, rfl, rfl, behind⟩ := spell_cons_iff.mp after
    rw [← Level.join_of_plain plain]
    exact readable_of_join operator admits (first before) (second behind)
  | logical operator decides admits _ _ first second =>
    obtain ⟨front, _, rfl, before, after⟩ := spell_append_iff.mp spelled
    obtain ⟨t, back, rfl, rfl, behind⟩ := spell_cons_iff.mp after
    rw [← Level.join_of_logical decides]
    exact readable_of_join operator admits (first before) (second behind)
  | @conditional condition yes no tight _ _ _ test first second =>
    obtain ⟨front, after, rfl, tested, afterTest⟩ := spell_append_iff.mp spelled
    obtain ⟨question, more, rfl, asks, branches⟩ := spell_cons_iff.mp afterTest
    obtain ⟨middle, last, rfl, chosen, afterYes⟩ := spell_append_iff.mp branches
    obtain ⟨colon, back, rfl, separates, other⟩ := spell_cons_iff.mp afterYes
    apply readable_of_single rfl
    intro rest stops
    have ended : (no.reach .comma).Stops rest :=
      stops.mono (by simp [Expr.reach, Expr.endsOpen])
    have yesRead := (first chosen).before (by rw [separates]; rfl) (back ++ rest)
    have noRead := (second other).whole .comma rest (Level.rank_le_comma _) ended
    simp only [List.append_assoc, List.cons_append] at yesRead noRead ⊢
    rw [Expr.level, (test tested).question tight asks, yesRead, done_bind, expect_cons separates,
      done_bind, noRead, map_done]
  | @group inner _ ih =>
    obtain ⟨opening, more, rfl, opens, inside⟩ := spell_cons_iff.mp spelled
    obtain ⟨middle, _, rfl, enclosed, after⟩ := spell_append_iff.mp inside
    obtain ⟨closing, rfl, closes⟩ := spell_singleton_iff.mp after
    apply readable_of_single rfl
    intro rest _
    have read := (ih enclosed).before (by rw [closes]; rfl) rest
    have opens : opening.kind = .leftParen := opens
    simp only [Expr.level, List.cons_append, List.append_assoc, List.nil_append,
      readExpr_primary_group opens]
    rw [read, done_bind, expect_cons closes, map_done]
  | @assign name value named tight _ ih =>
    obtain ⟨t, after, rfl, rfl, afterName⟩ := spell_cons_iff.mp spelled
    obtain ⟨equal, back, rfl, gives, given⟩ := spell_cons_iff.mp afterName
    apply readable_of_single rfl
    intro rest stops
    have valueRead := (ih given).whole .assignment rest tight stops
    rw [Expr.level, List.cons_append, List.cons_append, readExpr_given named gives, valueRead,
      done_bind]

theorem readEnded_spelled {e : Expr} (canonical : e.Canonical) (fault : Fault)
    (node : Expr → Stmt) {tokens : List Token}
    (spelled : Spell (e.yield ++ [.word .semicolon]) tokens) (rest : List Token) :
    readEnded fault node (tokens ++ rest) = .done (node e) rest := by
  obtain ⟨front, _, rfl, inside, after⟩ := spell_append_iff.mp spelled
  obtain ⟨semicolon, rfl, ends⟩ := spell_singleton_iff.mp after
  have read := (readable_of_canonical canonical inside).before (by rw [ends]; rfl) rest
  simp only [List.append_assoc, List.cons_append, List.nil_append]
  rw [readEnded, read, done_bind, expect_cons ends, map_done]

/-- A word and the condition behind it, which is read whatever follows. -/
theorem exists_condition {e : Expr} (canonical : e.Canonical) {kind : Kind}
    {behind : List Terminal} {tokens : List Token}
    (spelled : Spell (.word kind :: .word .leftParen ::
      (e.yield ++ .word .rightParen :: behind)) tokens) :
    ∃ t front back, tokens = t :: (front ++ back) ∧ t.kind = kind ∧ Spell behind back ∧
      ∀ unopened unclosed rest, readCondition unopened unclosed (front ++ rest) = .done e rest := by
  obtain ⟨t, _, rfl, same, enclosed⟩ := spell_cons_iff.mp spelled
  obtain ⟨opening, _, rfl, opens, tested⟩ := spell_cons_iff.mp enclosed
  obtain ⟨middle, _, rfl, inside, after⟩ := spell_append_iff.mp tested
  obtain ⟨closing, back, rfl, closes, others⟩ := spell_cons_iff.mp after
  refine ⟨t, opening :: (middle ++ [closing]), back, by simp, same, others, ?_⟩
  intro unopened unclosed rest
  have read := (readable_of_canonical canonical inside).before (by rw [closes]; rfl) rest
  simp only [List.cons_append, List.append_assoc, List.nil_append]
  rw [readCondition, expect_cons opens, done_bind, read, done_bind, expect_cons closes, map_done]

/-- The tokens are read as the statement, whatever comes next that it does not take in. -/
def ReadableStmt (s : Stmt) (tokens : List Token) : Prop :=
  ∀ rest, s.Stops rest → readStmt (tokens ++ rest) = .done s rest

theorem readStmts_before {inBlock : Bool} {body : List Stmt}
    (canonical : ∀ s ∈ body, s.Canonical)
    (each : ∀ s ∈ body, ∀ tokens, Spell s.yield tokens → ReadableStmt s tokens)
    {rest : List Token} (bare : ∀ t ∈ rest.head?, t.kind ≠ .kwElse)
    {tokens : List Token} (spelled : Spell (Stmt.yieldAll body) tokens) :
    readStmts inBlock (tokens ++ rest) = (readStmts inBlock rest).map (body ++ ·) ∧
      ∀ t ∈ (tokens ++ rest).head?, t.kind ≠ .kwElse := by
  induction body generalizing tokens with
  | nil =>
    obtain rfl := spell_nil_iff.mp spelled
    exact ⟨by simp [Outcome.map], bare⟩
  | cons s body ih =>
    obtain ⟨front, back, rfl, one, others⟩ := spell_append_iff.mp spelled
    have tail := ih (fun s member => canonical s (List.mem_cons_of_mem _ member))
      (fun s member => each s (List.mem_cons_of_mem _ member)) others
    have read := each s List.mem_cons_self front one (back ++ rest) fun _ => tail.2
    obtain ⟨item, items, cut, brace, orElse⟩ := (canonical s List.mem_cons_self).head
    rw [cut] at one
    obtain ⟨t, more, rfl, fits, _⟩ := spell_cons_iff.mp one
    rw [← fits.kind_eq] at brace orElse
    simp only [List.cons_append, List.append_assoc] at read ⊢
    constructor
    · rw [readStmts_cons, if_neg (by simp [brace]), read, recover_done, done_bind, tail.1]
      simp [Outcome.map, Function.comp_def]
    · simpa using orElse

theorem readStmts_spelled {inBlock : Bool} {body : List Stmt}
    (canonical : ∀ s ∈ body, s.Canonical)
    (each : ∀ s ∈ body, ∀ tokens, Spell s.yield tokens → ReadableStmt s tokens)
    {rest : List Token}
    (ended : readStmts inBlock rest = .done [] rest ∧ ∀ t ∈ rest.head?, t.kind ≠ .kwElse)
    {tokens : List Token} (spelled : Spell (Stmt.yieldAll body) tokens) :
    readStmts inBlock (tokens ++ rest) = .done body rest := by
  rw [(readStmts_before canonical each ended.2 spelled).1, ended.1, map_done, List.append_nil]

theorem readableStmt_of_canonical {s : Stmt} (canonical : s.Canonical) {tokens : List Token}
    (spelled : Spell s.yield tokens) : ReadableStmt s tokens := by
  induction canonical generalizing tokens with
  | @expression e inner =>
    intro rest _
    obtain ⟨item, items, cut⟩ := List.exists_cons_of_ne_nil e.yield_ne_nil
    have native := inner.native item (by simp [cut])
    have read := readEnded_spelled inner .unendedExpression .expression spelled rest
    rw [Stmt.yield, cut] at spelled
    obtain ⟨t, more, rfl, fits, _⟩ := spell_cons_iff.mp spelled
    rw [← fits.kind_eq] at native
    rw [List.cons_append, readStmt_of_native native]
    exact read
  | print inner =>
    intro rest _
    obtain ⟨t, more, rfl, kind, ended⟩ := spell_cons_iff.mp spelled
    have kind : t.kind = .kwPrint := kind
    simp only [List.cons_append, readStmt_print kind]
    exact readEnded_spelled inner _ _ ended rest
  | @bare name named =>
    intro rest _
    obtain ⟨t, _, rfl, kind, declared⟩ := spell_cons_iff.mp spelled
    obtain ⟨name, _, rfl, rfl, ended⟩ := spell_cons_iff.mp declared
    obtain ⟨semicolon, rfl, ends⟩ := spell_singleton_iff.mp ended
    have kind : t.kind = .kwVar := kind
    have ends : semicolon.kind = .semicolon := ends
    simp only [List.cons_append, List.nil_append, readStmt_var kind]
    rw [readDeclaration, expect_cons named, done_bind,
      continueIf_of_other (by simp [ends]), done_bind, expect_cons ends, map_done]
  | @declare name e named inner =>
    intro rest _
    obtain ⟨t, _, rfl, kind, declared⟩ := spell_cons_iff.mp spelled
    obtain ⟨name, _, rfl, rfl, initialized⟩ := spell_cons_iff.mp declared
    obtain ⟨equal, _, rfl, gives, ended⟩ := spell_cons_iff.mp initialized
    obtain ⟨front, _, rfl, inside, after⟩ := spell_append_iff.mp ended
    obtain ⟨semicolon, rfl, ends⟩ := spell_singleton_iff.mp after
    have kind : t.kind = .kwVar := kind
    have read := (readable_of_canonical inner inside).before (by rw [ends]; rfl) rest
    simp only [List.cons_append, List.nil_append, List.append_assoc, readStmt_var kind]
    rw [readDeclaration, expect_cons named, done_bind, continueIf_cons (decide_eq_true gives),
      read, map_done, done_bind, expect_cons ends, map_done]
  | block inside ih =>
    intro rest _
    obtain ⟨t, _, rfl, opens, enclosed⟩ := spell_cons_iff.mp spelled
    obtain ⟨middle, _, rfl, body, after⟩ := spell_append_iff.mp enclosed
    obtain ⟨closing, rfl, closes⟩ := spell_singleton_iff.mp after
    have opens : t.kind = .leftBrace := opens
    have closes : closing.kind = .rightBrace := closes
    have ended : readStmts true (closing :: rest) = .done [] (closing :: rest) := by
      rw [readStmts_cons, if_pos (by simp [closes])]
    have read := readStmts_spelled inside (fun s member _ one => ih s member one)
      ⟨ended, by simp [closes]⟩ body
    simp only [List.cons_append, List.nil_append, List.append_assoc, readStmt_block opens]
    rw [read, done_bind, expect_cons closes, map_done]
  | branch test _ ih =>
    intro rest stops
    obtain ⟨t, front, back, rfl, kind, chosen, tested⟩ := exists_condition test spelled
    have bare : ∀ t ∈ rest.head?, t.kind ≠ .kwElse := stops rfl
    simp only [List.cons_append, List.append_assoc, readStmt_if kind]
    rw [tested, done_bind, ih chosen rest fun _ => bare, done_bind,
      continueIf_of_other (by simpa using bare)]
  | branches test _ closed _ first second =>
    intro rest stops
    obtain ⟨t, front, _, rfl, kind, branches, tested⟩ := exists_condition test spelled
    obtain ⟨middle, _, rfl, chosen, afterYes⟩ := spell_append_iff.mp branches
    obtain ⟨orElse, back, rfl, separates, other⟩ := spell_cons_iff.mp afterYes
    simp only [List.cons_append, List.append_assoc, readStmt_if kind]
    rw [tested, done_bind, first chosen _ (Stmt.stops_of_closed closed _), done_bind,
      continueIf_cons (decide_eq_true separates), second other rest stops, map_done]
  | loop test _ ih =>
    intro rest stops
    obtain ⟨t, front, back, rfl, kind, turned, tested⟩ := exists_condition test spelled
    simp only [List.cons_append, List.append_assoc, readStmt_while kind]
    rw [tested, done_bind, ih turned rest stops, map_done]

end Grammar

namespace Program

theorem readStmts_of_canonical {statements : List Stmt}
    (canonical : ∀ s ∈ statements, s.Canonical) {tokens : List Token}
    (spelled : Spell (Stmt.yieldAll statements) tokens) :
    Grammar.readStmts false tokens = .done statements [] := by
  have ended : Grammar.readStmts false [] = .done [] [] := Grammar.readStmts_nil false
  have each : ∀ s ∈ statements, ∀ tokens, Spell s.yield tokens → Grammar.ReadableStmt s tokens :=
    fun s member _ one => Grammar.readableStmt_of_canonical (canonical s member) one
  simpa using Grammar.readStmts_spelled canonical each ⟨ended, nofun⟩ spelled

/-- Tokens that canonical statements spell are read as these statements and nothing else,
whatever lexemes and lines the tokens have where the trees do not keep them. -/
theorem ofTokens_of_spelled (statements : List Stmt) (canonical : ∀ s ∈ statements, s.Canonical)
    (tokens : List Token) (spelled : Spell (Stmt.yieldAll statements) tokens) :
    ofTokens tokens = ⟨statements, []⟩ ∧
      ∀ mark more, mark.kind = .endMark → ofTokens (tokens ++ mark :: more) = ⟨statements, []⟩ := by
  have unended : ∀ t ∈ tokens, t.kind ≠ .endMark := by
    intro t member
    obtain ⟨item, inside, same⟩ := spelled.kind_mem t member
    obtain ⟨s, among, inside⟩ := Stmt.mem_yieldAll.mp inside
    rw [same]
    exact (canonical s among).unended item inside
  have read := readStmts_of_canonical canonical spelled
  refine ⟨ofTokens_of_done ?_, fun mark more ends => ofTokens_of_done ?_⟩
  · rwa [body_of_unended unended]
  · rwa [body_append_mark unended ends]

def nestedTokens : List Token :=
  [⟨.kwIf, "if", none, 1⟩, ⟨.leftParen, "(", none, 1⟩, ⟨.name, "a", none, 1⟩,
    ⟨.rightParen, ")", none, 1⟩, ⟨.kwWhile, "while", none, 1⟩, ⟨.leftParen, "(", none, 1⟩,
    ⟨.name, "b", none, 1⟩, ⟨.rightParen, ")", none, 1⟩, ⟨.name, "c", none, 1⟩,
    ⟨.semicolon, ";", none, 1⟩, ⟨.kwElse, "else", none, 2⟩, ⟨.name, "x", none, 2⟩,
    ⟨.equal, "=", none, 2⟩, ⟨.name, "d", none, 2⟩, ⟨.question, "?", none, 2⟩,
    ⟨.name, "e", none, 2⟩, ⟨.colon, ":", none, 2⟩, ⟨.name, "f", none, 2⟩,
    ⟨.comma, ",", none, 2⟩, ⟨.name, "g", none, 2⟩, ⟨.semicolon, ";", none, 2⟩]

def nested : Stmt :=
  .branch (.var ⟨.name, "a", none, 1⟩)
    (.loop (.var ⟨.name, "b", none, 1⟩) (.expression (.var ⟨.name, "c", none, 1⟩)))
    (some (.expression (.assign ⟨.name, "x", none, 2⟩
      (.conditional (.var ⟨.name, "d", none, 2⟩) (.var ⟨.name, "e", none, 2⟩)
        (.binary ⟨.comma, ",", none, 2⟩ (.var ⟨.name, "f", none, 2⟩)
          (.var ⟨.name, "g", none, 2⟩))))))

theorem ofTokens_nested :
    (∀ s ∈ [nested], s.Canonical) ∧ Spell (Stmt.yieldAll [nested]) nestedTokens ∧
      ofTokens nestedTokens = ⟨[nested], []⟩ ∧
        ofTokens (nestedTokens ++ [Token.endAt 2]) = ⟨[nested], []⟩ := by
  have comma : Level.comma.Admits (.var ⟨.name, "f", none, 2⟩) (.var ⟨.name, "g", none, 2⟩) :=
    ⟨by decide, by decide, fun _ => rfl⟩
  have canonical : ∀ s ∈ [nested], s.Canonical := by
    intro s member
    obtain rfl := List.mem_singleton.mp member
    exact .branches (.var rfl) (.loop (.var rfl) (.expression (.var rfl))) rfl
      (.expression (.assign rfl (by decide)
        (.conditional (by decide) (.var rfl) (.var rfl)
          (.binary rfl rfl comma (.var rfl) (.var rfl)))))
  have spelled : Spell (Stmt.yieldAll [nested]) nestedTokens := by
    repeat first | exact List.Forall₂.nil | refine List.Forall₂.cons rfl ?_
  have read := ofTokens_of_spelled [nested] canonical nestedTokens spelled
  exact ⟨canonical, spelled, read.1, read.2 (Token.endAt 2) [] rfl⟩

end Program

end Scriptlet
