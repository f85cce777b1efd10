import Scriptlet.Proofs.Grammar.Accepted
import Scriptlet.Proofs.Grammar.Segment
import Scriptlet.Proofs.Syntax.Place

/-!
Operators that lost their left operand. Wherever in a simple statement the operator stands, what is
read before it leads to it as the start of an operand, what is behind it up to its level is read
without a fault, and the statement is given up with the one report about the operator.
-/

namespace Scriptlet

open Outcome Terminal

variable {α β : Type}

structure Outcome.Blames (o : Outcome α) (r : Report) : Prop where
  failed : o.value = none
  reports : o.reports = [r]

namespace Outcome.Blames

variable {o : Outcome α} {r : Report}

theorem bind (h : o.Blames r) (f : α → List Token → Outcome β) : (o.bind f).Blames r := by
  rw [bind_of_failed h.failed]
  exact ⟨rfl, h.reports⟩

theorem map (h : o.Blames r) (f : α → β) : (o.map f).Blames r :=
  ⟨by rw [Outcome.map, h.failed]; rfl, h.reports⟩

theorem not_fail {fault : Fault} {tokens : List Token} (other : r.fault ≠ fault) :
    ¬ (.fail fault tokens : Outcome α).Blames r := by
  intro h
  have same : [⟨fault, tokens⟩] = [r] := h.reports
  cases same
  exact other rfl

end Outcome.Blames

namespace Kind

/-- The operators that are known for such when their left operand is missing. -/
def orphans : List Kind :=
  [equalEqual, bangEqual, greater, greaterEqual, less, lessEqual, plus, star, slash]

theorem orphanLevel?_of_mem {kind : Kind} (orphan : kind ∈ orphans) :
    ∃ level, kind.orphanLevel? = some level ∧ kind.level? = some level := by
  have all : ∀ kind ∈ orphans,
      kind.orphanLevel?.isSome ∧ kind.level? = kind.orphanLevel? := by decide
  obtain ⟨some, same⟩ := all kind orphan
  obtain ⟨level, found⟩ := Option.isSome_iff_exists.mp some
  exact ⟨level, found, same.trans found⟩

end Kind

namespace Grammar

theorem blames_of_next {level : Level} (loose : level ≠ .primary) {tokens : List Token}
    {r : Report} (orphan : r.fault = .missingLeftOperand)
    (h : (readExpr level.next tokens).Blames r) : (readExpr level tokens).Blames r := by
  have other : r.fault ≠ .expectedExpression := by rw [orphan]; nofun
  cases level with
  | primary => exact absurd rfl loose
  | unary =>
    rw [Level.next] at h
    cases tokens with
    | nil => exact absurd (readExpr_primary_nil ▸ h) (Blames.not_fail other)
    | cons t more =>
      rw [readExpr_unary_cons]
      split
      case isTrue sign =>
        rw [readExpr_primary_of_bar (.inr sign)] at h
        exact absurd h (Blames.not_fail other)
      case isFalse => exact h
  | conditional => rw [readExpr_conditional]; exact h.bind _
  | assignment => rw [readExpr_assignment]; exact h.bind _
  | _ => rw [readExpr_joins rfl]; exact h.bind _

theorem blames_climb {level looser : Level} {tokens : List Token} {r : Report}
    (orphan : r.fault = .missingLeftOperand) (h : (readExpr level tokens).Blames r)
    (le : level.rank ≤ looser.rank) : (readExpr looser tokens).Blames r := by
  induction looser using Level.tightening with
  | primary => rwa [← Level.rank_injective _ _ (Nat.le_antisymm le (Nat.zero_le _))]
  | step looser loose ih =>
    have next := Level.rank_next loose
    by_cases same : level.rank = looser.rank
    · rwa [← Level.rank_injective _ _ same]
    · exact blames_of_next loose orphan (ih (by omega))

def orphaned (op : Token) (behind : List Token) : Report := ⟨.missingLeftOperand, op :: behind⟩

theorem readExpr_orphan {op : Token} {level : Level}
    (orphan : op.kind.orphanLevel? = some level) {behind : List Token}
    (clean : (readExpr level behind).reports = []) (looser : Level) :
    (readExpr looser (op :: behind)).Blames (orphaned op behind) := by
  have unknown : Expr.ofToken? op = none := by
    obtain ⟨kind, _, _, _⟩ := op
    cases kind <;> simp_all [Expr.ofToken?, Kind.orphanLevel?]
  have here : (readExpr .primary (op :: behind)).Blames (orphaned op behind) := by
    rw [readExpr_primary_orphan unknown orphan]
    exact ⟨rfl, congrArg (orphaned op behind :: ·) clean⟩
  exact blames_climb rfl here (Nat.zero_le _)

/-- The tokens of a tree without those of one left operand: with only `front` before `op`, the
operator is blamed, in front of what would end the tree as well as in front of an operator. -/
structure Orphaned (e : Expr) (front : List Token) (op : Token) (back : List Token) : Prop where
  whole : ∀ level rest, e.level.rank ≤ level.rank → (e.reach level).Stops rest →
    (readExpr level (front ++ op :: (back ++ rest))).Blames (orphaned op (back ++ rest))
  operand : ∀ level rest, level.joins → e.level.rank ≤ level.rank →
    (e.reach level.next).Stops rest → (∀ left, (readOperations level left rest).reports = []) →
      (readExpr level (front ++ op :: (back ++ rest))).Blames (orphaned op (back ++ rest))

section

variable {e : Expr} {front back : List Token} {op : Token}

theorem orphaned_of_own
    (own : ∀ rest, (e.reach e.level).Stops rest →
      (readExpr e.level (front ++ op :: (back ++ rest))).Blames (orphaned op (back ++ rest)))
    (chained : e.level.joins → ∀ rest, (e.reach e.level.next).Stops rest →
      (∀ left, (readOperations e.level left rest).reports = []) →
        (readExpr e.level (front ++ op :: (back ++ rest))).Blames (orphaned op (back ++ rest))) :
    Orphaned e front op back := by
  constructor
  · intro level rest le stops
    exact blames_climb rfl (own rest (stops.mono (e.reach_mono le))) le
  · intro level rest joins le stops clean
    by_cases same : e.level = level
    · subst same
      exact chained joins rest stops clean
    · have loose : level ≠ .primary := by rintro rfl; cases joins
      have next := Level.rank_next loose
      have differs : e.level.rank ≠ level.rank := fun h => same (Level.rank_injective _ _ h)
      have tighter : e.level.rank ≤ level.next.rank := by omega
      exact blames_climb rfl (own rest (stops.mono (e.reach_mono tighter))) le

theorem orphaned_of_single (single : e.level.joins = false)
    (own : ∀ rest, (e.reach e.level).Stops rest →
      (readExpr e.level (front ++ op :: (back ++ rest))).Blames (orphaned op (back ++ rest))) :
    Orphaned e front op back :=
  orphaned_of_own own fun joins => by rw [single] at joins; cases joins

theorem orphaned_of_chain
    (chained : ∀ rest, (e.reach e.level.next).Stops rest →
      (∀ left, (readOperations e.level left rest).reports = []) →
        (readExpr e.level (front ++ op :: (back ++ rest))).Blames (orphaned op (back ++ rest))) :
    Orphaned e front op back := by
  apply orphaned_of_own _ fun _ => chained
  intro rest stops
  apply chained rest (stops.mono (e.reach_mono e.level.rank_next_le))
  intro left
  rw [readOperations_of_stops (stops.mono (e.rank_le_reach _))]
  rfl

theorem orphaned_of_join {level : Level} {other : Token} {left right : Expr}
    (operator : other.kind.level? = some level) (admits : level.Admits left right)
    (chained : ∀ rest, (right.reach level.next).Stops rest →
      (∀ e, (readOperations level e rest).reports = []) →
        (readExpr level (front ++ op :: (back ++ rest))).Blames (orphaned op (back ++ rest))) :
    Orphaned (level.join other left right) front op back := by
  have joined := Level.level_join operator left right
  apply orphaned_of_chain
  rwa [joined, admits.reach_join operator]

end

theorem Orphaned.before {e : Expr} {front back : List Token} {op t : Token}
    (h : Orphaned e front op back) (alone : t.kind.joint? = none) (more : List Token) :
    (readExpr .comma (front ++ op :: (back ++ t :: more))).Blames
      (orphaned op (back ++ t :: more)) :=
  h.whole .comma _ (Level.rank_le_comma _) (Level.stops_of_unjoined alone _ more)

/-- The operator is blamed in whatever spells the tree, with the terminals before the place of its
left operand and those behind the operator. -/
def Loses (e : Expr) (op : Token) (before after : List Terminal) : Prop :=
  ∀ front back, Spell before front → Spell after back → Orphaned e front op back

namespace Loses

variable {op : Token} {before after : List Terminal}

theorem here {level : Level} {left right : Expr} (orphan : op.kind.orphanLevel? = some level)
    (operator : op.kind.level? = some level) (admits : level.Admits left right)
    (second : right.Canonical) : Loses (level.join op left right) op [] right.yield := by
  intro front back ahead behind
  obtain rfl := spell_nil_iff.mp ahead
  apply orphaned_of_join operator admits
  intro rest stops clean
  apply readExpr_orphan orphan
  rw [(readable_of_canonical second behind).operand level rest (Level.joins_of_level? operator)
    (Nat.le_of_lt admits.tight) stops]
  exact clean right

theorem unary {sign : Token} {operand : Expr} (operator : sign.kind.isUnary)
    (tight : operand.level = .primary) (h : Loses operand op before after) :
    Loses (.unary sign operand) op (.kept sign :: before) after := by
  intro front back ahead behind
  obtain ⟨t, front, rfl, rfl, within⟩ := spell_cons_iff.mp ahead
  apply orphaned_of_single rfl
  intro rest _
  have stops : (operand.reach .primary).Stops rest := by
    rw [Expr.reach_eq (Expr.closed_of_tight (by rw [tight]; decide))]
    exact Level.stops_of_tight (by decide) rest
  have blamed := (h _ _ within behind).whole .primary rest (Nat.le_of_eq (by rw [tight])) stops
  rw [Expr.level, List.cons_append, readExpr_unary_cons, if_pos operator]
  exact blamed.map _

theorem left {level : Level} {other : Token} {e right : Expr}
    (operator : other.kind.level? = some level) (admits : level.Admits e right)
    (second : right.Canonical) (h : Loses e op before after) :
    Loses (level.join other e right) op before (after ++ .kept other :: right.yield) := by
  intro front back ahead behind
  obtain ⟨back, _, rfl, within, dropped⟩ := spell_append_iff.mp behind
  obtain ⟨t, last, rfl, rfl, others⟩ := spell_cons_iff.mp dropped
  apply orphaned_of_join operator admits
  intro rest stops clean
  -- The operators of the level that follow are read with the right side that is dropped.
  have goes : ∀ left, (readOperations level left (t :: (last ++ rest))).reports = [] := by
    intro left
    rw [readOperations_eq, continueIf_cons (by simpa using operator),
      (readable_of_canonical second others).whole level.next rest (admits.tight_next operator)
        stops, done_bind]
    exact clean _
  have blamed := (h _ _ ahead within).operand level _ (Level.joins_of_level? operator) admits.loose
    (admits.stops_left operator _) goes
  simpa using blamed

theorem right {level : Level} {other : Token} {left e : Expr}
    (operator : other.kind.level? = some level) (admits : level.Admits left e)
    (first : left.Canonical) (h : Loses e op before after) :
    Loses (level.join other left e) op (left.yield ++ .kept other :: before) after := by
  intro front back ahead behind
  obtain ⟨init, _, rfl, others, start⟩ := spell_append_iff.mp ahead
  obtain ⟨t, front, rfl, rfl, within⟩ := spell_cons_iff.mp start
  apply orphaned_of_join operator admits
  intro rest stops _
  rw [List.append_assoc, List.cons_append,
    (readable_of_canonical first others).operand level _ (Level.joins_of_level? operator)
      admits.loose (admits.stops_left operator _),
    readOperations_eq, continueIf_cons (by simpa using operator)]
  exact ((h _ _ within behind).whole level.next rest (admits.tight_next operator) stops).bind _

theorem condition {condition yes no : Expr} (tight : condition.level.rank ≤ Level.or.rank)
    (h : Loses condition op before after) :
    Loses (.conditional condition yes no) op before
      (after ++ .word .question :: (yes.yield ++ .word .colon :: no.yield)) := by
  intro front back ahead behind
  obtain ⟨back, _, rfl, within, branches⟩ := spell_append_iff.mp behind
  obtain ⟨question, last, rfl, asks, _⟩ := spell_cons_iff.mp branches
  apply orphaned_of_single rfl
  intro rest _
  have closed := Expr.closed_of_tight (Nat.lt_of_le_of_lt tight (by decide))
  have asked : (condition.reach .or).Stops (question :: (last ++ rest)) := by
    rw [Expr.reach_eq closed, Level.stops_cons, asks]
    rintro _ ⟨⟩
    decide
  have blamed := (h _ _ ahead within).whole .or _ tight asked
  rw [Expr.level, readExpr_conditional]
  simp only [List.append_assoc, List.cons_append] at blamed ⊢
  exact blamed.bind _

theorem yes {condition yes no : Expr} (tight : condition.level.rank ≤ Level.or.rank)
    (test : condition.Canonical) (h : Loses yes op before after) :
    Loses (.conditional condition yes no) op (condition.yield ++ .word .question :: before)
      (after ++ .word .colon :: no.yield) := by
  intro front back ahead behind
  obtain ⟨init, _, rfl, tested, start⟩ := spell_append_iff.mp ahead
  obtain ⟨question, front, rfl, asks, chosen⟩ := spell_cons_iff.mp start
  obtain ⟨back, _, rfl, within, dropped⟩ := spell_append_iff.mp behind
  obtain ⟨colon, last, rfl, separates, _⟩ := spell_cons_iff.mp dropped
  apply orphaned_of_single rfl
  intro rest _
  have blamed := (h _ _ chosen within).before (by rw [separates]; rfl) (last ++ rest)
  rw [Expr.level, List.append_assoc, List.cons_append,
    (readable_of_canonical test tested).question tight asks]
  simp only [List.append_assoc, List.cons_append] at blamed ⊢
  exact blamed.bind _

theorem no {condition yes no : Expr} (tight : condition.level.rank ≤ Level.or.rank)
    (test : condition.Canonical) (first : yes.Canonical) (h : Loses no op before after) :
    Loses (.conditional condition yes no) op
      (condition.yield ++ .word .question :: (yes.yield ++ .word .colon :: before)) after := by
  intro front back ahead behind
  obtain ⟨init, _, rfl, tested, branches⟩ := spell_append_iff.mp ahead
  obtain ⟨question, _, rfl, asks, start⟩ := spell_cons_iff.mp branches
  obtain ⟨middle, _, rfl, chosen, dropped⟩ := spell_append_iff.mp start
  obtain ⟨colon, front, rfl, separates, within⟩ := spell_cons_iff.mp dropped
  apply orphaned_of_single rfl
  intro rest stops
  have ended : (no.reach .comma).Stops rest := stops.mono (by simp [Expr.reach, Expr.endsOpen])
  have blamed := (h _ _ within behind).whole .comma rest (Level.rank_le_comma _) ended
  have readYes := (readable_of_canonical first chosen).before (by rw [separates]; rfl)
    (front ++ op :: (back ++ rest))
  rw [Expr.level, List.append_assoc, List.cons_append,
    (readable_of_canonical test tested).question tight asks, List.append_assoc,
    List.cons_append, readYes, done_bind, expect_cons separates, done_bind]
  exact blamed.map _

theorem group {inner : Expr} (h : Loses inner op before after) :
    Loses (.group inner) op (.word .leftParen :: before) (after ++ [.word .rightParen]) := by
  intro front back ahead behind
  obtain ⟨opening, front, rfl, opens, within⟩ := spell_cons_iff.mp ahead
  obtain ⟨back, _, rfl, others, dropped⟩ := spell_append_iff.mp behind
  obtain ⟨closing, rfl, closes⟩ := spell_singleton_iff.mp dropped
  apply orphaned_of_single rfl
  intro rest _
  have blamed := (h _ _ within others).before (by rw [closes]; rfl) rest
  have opens : opening.kind = .leftParen := opens
  simp only [Expr.level, List.append_assoc, List.cons_append, List.nil_append,
    readExpr_primary_group opens]
  exact blamed.bind _

theorem assign {name : Token} {value : Expr} (named : name.kind = .name)
    (tight : value.level.rank ≤ Level.assignment.rank) (h : Loses value op before after) :
    Loses (.assign name value) op (.kept name :: .word .equal :: before) after := by
  intro front back ahead behind
  obtain ⟨t, _, rfl, rfl, given⟩ := spell_cons_iff.mp ahead
  obtain ⟨equal, front, rfl, gives, within⟩ := spell_cons_iff.mp given
  apply orphaned_of_single rfl
  intro rest stops
  have blamed := (h _ _ within behind).whole .assignment rest tight stops
  rw [Expr.level, List.cons_append, List.cons_append, readExpr_given named gives]
  exact blamed.bind _

end Loses

theorem loses_of_inside {op : Token} {left right : Expr} (orphan : op.kind ∈ Kind.orphans)
    {e : Expr} {before after : List Terminal}
    (inside : (Expr.binary op left right).Inside e before after) (canonical : e.Canonical) :
    Loses e op before (right.yield ++ after) := by
  induction inside with
  | here =>
    rw [List.append_nil]
    cases canonical with
    | @binary _ _ _ level operator plain admits _ second =>
      obtain ⟨level', found, same⟩ := Kind.orphanLevel?_of_mem orphan
      obtain rfl : level' = level := Option.some.inj (same.symm.trans operator)
      rw [← Level.join_of_plain plain]
      exact .here found operator admits second
  | unary _ ih =>
    cases canonical with
    | unary operator tight inner => exact (ih inner).unary operator tight
  | binaryLeft _ ih =>
    cases canonical with
    | binary operator plain admits first second =>
      rw [← Level.join_of_plain plain, ← List.append_assoc]
      exact (ih first).left operator admits second
  | binaryRight _ ih =>
    cases canonical with
    | binary operator plain admits first second =>
      rw [← Level.join_of_plain plain]
      exact (ih second).right operator admits first
  | logicalLeft _ ih =>
    cases canonical with
    | logical operator decides admits first second =>
      rw [← Level.join_of_logical decides, ← List.append_assoc]
      exact (ih first).left operator admits second
  | logicalRight _ ih =>
    cases canonical with
    | logical operator decides admits first second =>
      rw [← Level.join_of_logical decides]
      exact (ih second).right operator admits first
  | condition _ ih =>
    cases canonical with
    | conditional tight test first second =>
      rw [← List.append_assoc]
      exact (ih test).condition tight
  | yes _ ih =>
    cases canonical with
    | conditional tight test first second =>
      rw [← List.append_assoc]
      exact (ih first).yes tight test
  | no _ ih =>
    cases canonical with
    | conditional tight test first second => exact (ih second).no tight test first
  | group _ ih =>
    cases canonical with
    | group inner =>
      rw [← List.append_assoc]
      exact (ih inner).group
  | assign _ ih =>
    cases canonical with
    | assign named tight given => exact (ih given).assign named tight

theorem readEnded_orphaned {e : Expr} {front back : List Token} {op semicolon : Token}
    (h : Orphaned e front op back) (ends : semicolon.kind = .semicolon) (fault : Fault)
    (node : Expr → Stmt) :
    (readEnded fault node (front ++ op :: (back ++ [semicolon]))).Blames
      (orphaned op (back ++ [semicolon])) :=
  (h.before (by rw [ends]; rfl) []).bind _

theorem native_around {op : Token} {left right e : Expr} {before after : List Terminal}
    (inside : (Expr.binary op left right).Inside e before after) (canonical : e.Canonical)
    {front back : List Token} (ahead : Spell before front)
    (behind : Spell (right.yield ++ after) back) :
    ∀ t ∈ front ++ op :: back, t.kind.foreign = false := by
  have kept : Spell (before ++ .kept op :: (right.yield ++ after)) (front ++ op :: back) :=
    ahead.append (.cons rfl behind)
  intro t member
  obtain ⟨item, among, same⟩ := kept.kind_mem t member
  rw [same]
  apply canonical.native
  rw [inside.yield_eq, Expr.yield]
  simp only [List.mem_append, List.mem_cons] at among ⊢
  tauto

/-- Tokens of an expression, with a word before them that starts a simple statement or none. -/
structure Worded (inner : List Token) : Prop where
  word : ∀ t ∈ inner.head?, t.kind = .kwVar ∨ t.kind = .kwPrint ∨ t.kind.foreign = false
  native : ∀ t ∈ inner.tail, t.kind.foreign = false

namespace Worded

variable {inner : List Token}

theorem plain (h : Worded inner) : ∀ t ∈ inner, t.kind ≠ .semicolon ∧ t.kind ≠ .endMark := by
  cases inner with
  | nil => simp
  | cons first rest =>
    intro t member
    obtain rfl | member := List.mem_cons.mp member
    · have kind := h.word t rfl
      grind [Kind.foreign]
    · have kind := h.native t member
      grind [Kind.foreign]

theorem simple (h : Worded inner) : ∀ t ∈ inner.head?,
    t.kind ≠ .leftBrace ∧ t.kind ≠ .kwIf ∧ t.kind ≠ .kwWhile ∧ t.kind ≠ .kwElse := by
  intro t head
  have kind := h.word t head
  grind [Kind.foreign]

theorem single (h : Worded inner) : ∀ t ∈ inner.tail, t.kind.startsStatement = false := by
  intro t member
  have kind := h.native t member
  revert kind
  cases t.kind <;> decide

theorem exists_segment (h : Worded inner) {semicolon : Token} (ends : semicolon.kind = .semicolon) :
    ∃ segment : Segment, segment.tokens = inner ++ [semicolon] ∧
      ∀ t ∈ segment.tokens.head?, t.kind ≠ .kwElse := by
  refine ⟨⟨inner, semicolon, ends, h.plain, fun t head => ?_, h.single⟩, rfl, ?_⟩
  · obtain ⟨brace, branch, loop, _⟩ := h.simple t head
    exact ⟨brace, branch, loop⟩
  · cases inner with
    | nil => simp [Segment.tokens, ends]
    | cons first rest => exact fun t head => (h.simple t head).2.2.2

end Worded

theorem spell_ended_iff {first second : List Terminal} {tokens : List Token} :
    Spell (first ++ (second ++ [.word .semicolon])) tokens ↔
      ∃ inner semicolon, tokens = inner ++ [semicolon] ∧ Spell (first ++ second) inner ∧
        semicolon.kind = .semicolon := by
  rw [← List.append_assoc, spell_append_iff]
  simp only [spell_singleton_iff]
  constructor
  · rintro ⟨inner, _, rfl, within, semicolon, rfl, ends⟩
    exact ⟨inner, semicolon, rfl, within, ends⟩
  · rintro ⟨inner, semicolon, rfl, within, ends⟩
    exact ⟨inner, _, rfl, within, semicolon, rfl, ends⟩

theorem segment_orphaned {op : Token} {left right : Expr} (orphan : op.kind ∈ Kind.orphans)
    {s : Stmt} {before after : List Terminal}
    (holds : s.Holds (.binary op left right) before after) (canonical : s.Canonical)
    {front back : List Token} (ahead : Spell before front)
    (behind : Spell (right.yield ++ after) back) :
    (∃ segment : Segment, segment.tokens = front ++ op :: back ∧
      ∀ t ∈ segment.tokens.head?, t.kind ≠ .kwElse) ∧
      (readStmt (front ++ op :: back)).Blames (orphaned op back) := by
  cases holds with
  | expression inside =>
    obtain ⟨back, semicolon, rfl, within, ends⟩ := spell_ended_iff.mp behind
    cases canonical with
    | expression inner =>
      have native := native_around inside inner ahead within
      have lost := loses_of_inside orphan inside inner _ _ ahead within
      have worded : Worded (front ++ op :: back) :=
        ⟨fun t head => .inr (.inr (native t (List.mem_of_mem_head? head))),
          fun t member => native t (List.mem_of_mem_tail member)⟩
      refine ⟨by simpa using worded.exists_segment ends, ?_⟩
      rw [readStmt_of_native_head]
      · exact readEnded_orphaned lost ends _ _
      · cases front <;> simp_all
  | print inside =>
    obtain ⟨word, front, rfl, prints, start⟩ := spell_cons_iff.mp ahead
    obtain ⟨back, semicolon, rfl, within, ends⟩ := spell_ended_iff.mp behind
    cases canonical with
    | print inner =>
      have native := native_around inside inner start within
      have lost := loses_of_inside orphan inside inner _ _ start within
      have prints : word.kind = .kwPrint := prints
      have worded : Worded (word :: (front ++ op :: back)) := ⟨by simp [prints], native⟩
      refine ⟨by simpa using worded.exists_segment ends, ?_⟩
      rw [List.cons_append, readStmt_print prints]
      exact readEnded_orphaned lost ends _ _
  | declare inside =>
    obtain ⟨word, _, rfl, declares, declared⟩ := spell_cons_iff.mp ahead
    obtain ⟨name, _, rfl, rfl, initialized⟩ := spell_cons_iff.mp declared
    obtain ⟨equal, front, rfl, gives, start⟩ := spell_cons_iff.mp initialized
    obtain ⟨back, semicolon, rfl, within, ends⟩ := spell_ended_iff.mp behind
    cases canonical with
    | declare named inner =>
      have native := native_around inside inner start within
      have lost := loses_of_inside orphan inside inner _ _ start within
      have declares : word.kind = .kwVar := declares
      have gives : equal.kind = .equal := gives
      have others : ∀ t ∈ name :: equal :: (front ++ op :: back), t.kind.foreign = false := by
        simp only [List.forall_mem_cons, named, gives]
        exact ⟨rfl, rfl, native⟩
      have worded : Worded (word :: name :: equal :: (front ++ op :: back)) :=
        ⟨by simp [declares], others⟩
      refine ⟨by simpa using worded.exists_segment ends, ?_⟩
      have blamed := lost.before (by rw [ends]; rfl : semicolon.kind.joint? = none) []
      simp only [List.cons_append, readStmt_var declares]
      rw [readDeclaration, expect_cons named, done_bind, continueIf_cons (decide_eq_true gives)]
      exact (blamed.map _).bind _

theorem readStmts_orphaned {op : Token} {front back : List Token}
    {segment : Segment} (cut : segment.tokens = front ++ op :: back)
    (bare : ∀ t ∈ segment.tokens.head?, t.kind ≠ .kwElse)
    (blamed : (readStmt (front ++ op :: back)).Blames (orphaned op back))
    {first : List Token} {statements : List Stmt}
    (accepted : readStmts false first = .done statements []) (more : List Token) :
    readStmts false (first ++ (front ++ op :: back) ++ more) =
      ⟨(readStmts false more).value.map (statements ++ ·),
        orphaned op (back ++ more) :: (readStmts false more).reports,
        (readStmts false more).rest⟩ := by
  obtain ⟨canonical, spelled⟩ := readStmts_eq_done_iff.mp accepted
  have outside : false = true → ∀ t ∈ segment.inner, t.kind ≠ .rightBrace := nofun
  have own := readStmts_segment segment outside more
  rw [cut, blamed.failed] at own
  have head : ∀ t ∈ (front ++ op :: back ++ more).head?, t.kind ≠ .kwElse := by
    rw [cut] at bare
    rwa [List.head?_append_of_ne_nil _ (by simp)]
  have before : readStmts false _ = _ := (readStmts_before canonical
    (fun s member _ one => readableStmt_of_canonical (canonical s member) one) head spelled).1
  rw [List.append_assoc, before, own]
  simp [Outcome.map, extend, blamed.reports, orphaned]

end Grammar

namespace Program

open Grammar

/-- An accepted simple statement without the tokens of one left operand costs itself and one
diagnostic, about the operator behind the gap; accepted statements around it stay. -/
theorem ofTokens_orphaned {tokens : List Token} {s : Stmt} (accepted : ofTokens tokens = ⟨[s], []⟩)
    {op : Token} (orphan : op.kind ∈ Kind.orphans) {left right : Expr}
    {before after : List Terminal} (holds : s.Holds (.binary op left right) before after) :
    ∃ front operand back, body tokens = front ++ operand ++ op :: back ∧
      Spell before front ∧ Spell left.yield operand ∧ Spell (right.yield ++ after) back ∧
      ofTokens (front ++ op :: back) = ⟨[], [.atToken op .missingLeftOperand]⟩ ∧
      ∀ first last, (ofTokens first).diagnostics = [] → (ofTokens last).diagnostics = [] →
        ofTokens (body first ++ (front ++ op :: back) ++ last) =
            ⟨(ofTokens first).statements ++ (ofTokens last).statements,
              [.atToken op .missingLeftOperand]⟩ ∧
          (readStmts false (body (body first ++ (front ++ op :: back) ++ last))).reports =
            [⟨.missingLeftOperand, op :: (back ++ body last)⟩] := by
  have read := read_of_clean (congrArg diagnostics accepted)
  rw [accepted] at read
  obtain ⟨canonical, spelled⟩ := readStmts_eq_done_iff.mp read
  rw [Stmt.yieldAll, Stmt.yieldAll, List.append_nil, holds.yield_eq, Expr.yield,
    List.append_assoc, List.append_assoc, List.cons_append] at spelled
  obtain ⟨front, _, cut, ahead, around⟩ := spell_append_iff.mp spelled
  obtain ⟨operand, _, rfl, lost, rest⟩ := spell_append_iff.mp around
  obtain ⟨op, back, rfl, rfl, behind⟩ := spell_cons_iff.mp rest
  obtain ⟨⟨segment, whole, bare⟩, blamed⟩ :=
    segment_orphaned orphan holds (canonical s List.mem_cons_self) ahead behind
  have unended : ∀ t ∈ front ++ op :: back, t.kind ≠ .endMark := whole ▸ segment.unended
  have costs : ∀ first last, (ofTokens first).diagnostics = [] →
      (ofTokens last).diagnostics = [] →
        readStmts false (body (body first ++ (front ++ op :: back) ++ last)) =
          ⟨some ((ofTokens first).statements ++ (ofTokens last).statements),
            [orphaned op (back ++ body last)], []⟩ := by
    intro first last clean also
    rw [List.append_assoc, body_append (body_inner first), body_append unended,
      ← List.append_assoc, readStmts_orphaned whole bare blamed (read_of_clean clean),
      read_of_clean also]
    rfl
  have programs : ∀ first last, (ofTokens first).diagnostics = [] →
      (ofTokens last).diagnostics = [] →
        ofTokens (body first ++ (front ++ op :: back) ++ last) =
          ⟨(ofTokens first).statements ++ (ofTokens last).statements,
            [.atToken op .missingLeftOperand]⟩ := by
    intro first last clean also
    apply ofTokens_of_read rfl <;> rw [costs first last clean also]
    rfl
  have nothing : ofTokens [] = ⟨[], []⟩ := ofTokens_of_done (readStmts_nil false)
  have alone := programs [] [] (by rw [nothing]) (by rw [nothing])
  rw [nothing, List.append_nil] at alone
  refine ⟨front, operand, back, by rw [cut, List.append_assoc], ahead, lost, behind, alone, ?_⟩
  intro first last clean also
  exact ⟨programs first last clean also, by rw [costs first last clean also]; rfl⟩

def sum : Expr :=
  .binary ⟨.plus, "+", none, 2⟩ (.var ⟨.name, "a", none, 2⟩) (.var ⟨.name, "b", none, 2⟩)

def scaled : Stmt :=
  .expression (.assign ⟨.name, "x", none, 2⟩
    (.binary ⟨.slash, "/", none, 2⟩ (.group sum) (.var ⟨.name, "c", none, 2⟩)))

def gap : List Token :=
  [⟨.name, "x", none, 2⟩, ⟨.equal, "=", none, 2⟩, ⟨.leftParen, "(", none, 2⟩,
    ⟨.plus, "+", none, 2⟩, ⟨.name, "b", none, 2⟩, ⟨.rightParen, ")", none, 2⟩,
    ⟨.slash, "/", none, 2⟩, ⟨.name, "c", none, 2⟩, ⟨.semicolon, ";", none, 2⟩]

theorem ofTokens_orphaned_plus :
    let filled := gap.take 3 ++ ⟨.name, "a", none, 2⟩ :: gap.drop 3
    let first : List Token := [⟨.name, "y", none, 1⟩, ⟨.semicolon, ";", none, 1⟩]
    let last : List Token :=
      [⟨.kwPrint, "print", none, 3⟩, ⟨.kwNil, "nil", none, 3⟩, ⟨.semicolon, ";", none, 3⟩, .endAt 3]
    (ofTokens filled = ⟨[scaled], []⟩ ∧ Kind.plus ∈ Kind.orphans ∧
      scaled.Holds sum [.kept ⟨.name, "x", none, 2⟩, .word .equal, .word .leftParen]
        [.word .rightParen, .kept ⟨.slash, "/", none, 2⟩, .kept ⟨.name, "c", none, 2⟩,
          .word .semicolon] ∧
      (ofTokens first).diagnostics = [] ∧ (ofTokens last).diagnostics = []) ∧
      ofTokens gap = ⟨[], [⟨2, .atLexeme "+", .missingLeftOperand⟩]⟩ ∧
      ofTokens (first ++ gap ++ last) =
        ⟨[.expression (.var ⟨.name, "y", none, 1⟩), .print .nil],
          [⟨2, .atLexeme "+", .missingLeftOperand⟩]⟩ := by
  intro filled first last
  have accepted : ofTokens filled = ⟨[scaled], []⟩ := by cbv
  have one : ofTokens first = ⟨[.expression (.var ⟨.name, "y", none, 1⟩)], []⟩ := by cbv
  have two : ofTokens last = ⟨[.print .nil], []⟩ := by cbv
  have orphan : Kind.plus ∈ Kind.orphans := by decide
  have holds : scaled.Holds sum [.kept ⟨.name, "x", none, 2⟩, .word .equal, .word .leftParen]
      [.word .rightParen, .kept ⟨.slash, "/", none, 2⟩, .kept ⟨.name, "c", none, 2⟩,
        .word .semicolon] := .expression (.assign (.binaryLeft (.group .here)))
  obtain ⟨front, operand, back, cut, ahead, lost, _, alone, around⟩ :=
    ofTokens_orphaned accepted orphan holds
  have whole : gap.take 3 ++ ([⟨.name, "a", none, 2⟩] ++ gap.drop 3) =
      front ++ (operand ++ ⟨.plus, "+", none, 2⟩ :: back) := by
    rw [← List.append_assoc front, ← cut]
    rfl
  obtain ⟨rfl, filling⟩ := List.append_inj whole ahead.length_eq
  obtain ⟨_, behind⟩ := List.append_inj filling lost.length_eq
  have left : gap.take 3 ++ ⟨.plus, "+", none, 2⟩ :: back = gap := by rw [← behind]; rfl
  rw [left] at alone around
  have costs := (around first last (by rw [one]) (by rw [two])).1
  rw [one, two] at costs
  exact ⟨⟨accepted, orphan, holds, by rw [one], by rw [two]⟩, alone, costs⟩

end Program

end Scriptlet
