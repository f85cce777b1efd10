import Scriptlet.Proofs.Grammar.Cursor

namespace Scriptlet

namespace Cursor

namespace Read

variable {α β : Type}

theorem pure_apply (a : α) (c : Cursor) : (pure a : Read α) c = some (some a, c) := rfl

theorem modify_apply (f : Cursor → Cursor) (c : Cursor) :
    (modify f : Read Unit) c = some (some (), f c) := rfl

section Bind

variable {walk : Read α} {c d : Cursor}

theorem bind_of_failed (failed : walk c = some (none, d)) (f : α → Read β) :
    (walk >>= f) c = some (none, d) := by
  show Option.bind (walk c) _ = _
  rw [failed]
  rfl

theorem bind_of_found {a : α} (found : walk c = some (some a, d)) (f : α → Read β) :
    (walk >>= f) c = f a d := by
  show Option.bind (walk c) _ = _
  rw [found]
  rfl

end Bind

end Read

def ahead (front rest : List Token) (reported : List Diagnostic) : Cursor :=
  ⟨front.length - rest.length, reported⟩

/-- What is read by place from the tokens `rest` of `front` on is what is read of them as a list. -/
structure Follows {α : Type} (front : List Token) (mark : Token) (walk : Read α)
    (rest : List Token) (o : Outcome α) : Prop where
  suffix : o.rest <:+ rest
  answer (reported : List Diagnostic) : walk (ahead front rest reported) =
    some (o.value, ahead front o.rest (reported ++ o.reports.map (Report.diagnostic mark)))

/-- The first end mark of the tokens comes behind `front`. -/
structure Marked (tokens front : List Token) (mark : Token) : Prop where
  whole : ∃ junk, tokens = front ++ mark :: junk
  unended : ∀ t ∈ front, t.kind ≠ .endMark
  ends : mark.kind = .endMark

variable {tokens front rest more : List Token} {mark t : Token} {α β : Type}

namespace Marked

theorem peek_ahead (marked : Marked tokens front mark) (cut : rest <:+ front)
    (reported : List Diagnostic) :
    peek tokens (ahead front rest reported) =
      some (some (rest.headD mark), ahead front rest reported) := by
  have here : tokens[front.length - rest.length]? = some (rest.headD mark) := by
    obtain ⟨junk, rfl⟩ := marked.whole
    obtain ⟨read, rfl⟩ := cut
    have place : (read ++ rest).length - rest.length = read.length := by
      rw [List.length_append]
      omega
    rw [place, List.append_assoc, List.getElem?_append_right (Nat.le_refl _), Nat.sub_self]
    cases rest <;> rfl
  simp [peek, ahead, here]

theorem advance_mark (marked : Marked tokens front mark) (reported : List Diagnostic) :
    advance tokens (ahead front [] reported) = some (some mark, ahead front [] reported) := by
  have here := marked.peek_ahead (List.nil_suffix) reported
  rw [advance, Read.bind_of_found here, List.headD_nil, if_pos marked.ends]
  rfl

theorem advance_token (marked : Marked tokens front mark) (cut : t :: more <:+ front)
    (reported : List Diagnostic) :
    advance tokens (ahead front (t :: more) reported) =
      some (some t, ahead front more reported) := by
  have here := marked.peek_ahead cut reported
  have inner := marked.unended t (cut.subset List.mem_cons_self)
  have place := cut.length_le
  have next : front.length - (more.length + 1) + 1 = front.length - more.length := by
    rw [List.length_cons] at place
    omega
  rw [advance, Read.bind_of_found here, List.headD_cons, if_neg inner]
  show some (some t, Cursor.mk (front.length - (more.length + 1) + 1) reported) = _
  rw [next]
  rfl

end Marked

namespace Follows

variable {walk : Read α} {o : Outcome α} {k : Token → Read α}

theorem pure (a : α) (rest : List Token) : Follows front mark (pure a) rest (.done a rest) :=
  ⟨List.suffix_rfl, fun reported => by simp [Outcome.done, Read.pure_apply]⟩

theorem bind {next : α → Read β} {g : α → List Token → Outcome β}
    (first : Follows front mark walk rest o)
    (second : ∀ a, o.value = some a → Follows front mark (next a) o.rest (g a o.rest)) :
    Follows front mark (walk >>= next) rest (o.bind g) := by
  cases found : o.value with
  | none =>
    rw [Outcome.bind_of_failed found]
    refine ⟨first.suffix, fun reported => Read.bind_of_failed ?_ next⟩
    rw [first.answer, found]
  | some a =>
    have then_ := second a found
    rw [Outcome.bind_of_found found]
    refine ⟨then_.suffix.trans first.suffix, fun reported => ?_⟩
    have answer := first.answer reported
    rw [found] at answer
    rw [Read.bind_of_found answer, then_.answer, List.map_append, List.append_assoc]

theorem map (first : Follows front mark walk rest o) (f : α → β) :
    Follows front mark (walk >>= fun a => Pure.pure (f a)) rest (o.map f) := by
  rw [Outcome.map_eq_bind]
  exact first.bind fun a _ => pure (f a) o.rest

theorem abandon (h : Follows front mark walk rest o) :
    Follows front mark (walk >>= fun _ => (failure : Read β)) rest ⟨none, o.reports, o.rest⟩ := by
  refine ⟨h.suffix, fun reported => ?_⟩
  have answer := h.answer reported
  cases found : o.value with
  | none => exact Read.bind_of_failed (by rw [answer, found]) _
  | some a => exact Read.bind_of_found (by rw [answer, found]) _

section Marked

variable (marked : Marked tokens front mark)

include marked

theorem peek (cut : rest <:+ front) (h : Follows front mark (k (rest.headD mark)) rest o) :
    Follows front mark (Cursor.peek tokens >>= k) rest o := by
  refine ⟨h.suffix, fun reported => ?_⟩
  rw [Read.bind_of_found (marked.peek_ahead cut reported)]
  exact h.answer reported

theorem advance (cut : t :: more <:+ front) (h : Follows front mark (k t) more o) :
    Follows front mark (Cursor.advance tokens >>= k) (t :: more) o := by
  refine ⟨h.suffix.trans (List.suffix_cons t more), fun reported => ?_⟩
  rw [Read.bind_of_found (marked.advance_token cut reported)]
  exact h.answer reported

omit marked in
theorem report {next : Read α} (fault : Fault) (tokens : List Token)
    (h : Follows front mark next rest o) :
    Follows front mark (Cursor.report (tokens.headD mark) fault >>= fun _ => next) rest
      { o with reports := ⟨fault, tokens⟩ :: o.reports } := by
  refine ⟨h.suffix, fun reported => ?_⟩
  have answer := h.answer (reported ++ [.atToken (tokens.headD mark) fault])
  rw [Cursor.report, Read.bind_of_found (Read.modify_apply _ _)]
  simpa [ahead, Report.diagnostic] using answer

omit marked in
theorem refuse (fault : Fault) (rest : List Token) :
    Follows front mark (Cursor.refuse (rest.headD mark) fault : Read α) rest
      (.fail fault rest) := by
  have gives : Follows front mark (failure : Read α) rest ⟨none, [], rest⟩ :=
    ⟨List.suffix_rfl, fun reported => by simp; rfl⟩
  exact report fault rest gives

theorem expect (kind : Kind) (fault : Fault) (cut : rest <:+ front) (inner : kind ≠ .endMark) :
    Follows front mark (Cursor.expect tokens kind fault) rest (.expect kind fault rest) := by
  apply peek marked cut
  cases rest with
  | nil =>
    have other : mark.kind ≠ kind := by rw [marked.ends]; exact inner.symm
    rw [List.headD_nil, if_neg other]
    exact refuse fault []
  | cons t more =>
    rw [List.headD_cons]
    by_cases same : t.kind = kind
    · rw [if_pos same, Outcome.expect_cons same, ← bind_pure (Cursor.advance tokens)]
      exact advance marked cut (pure t more)
    · rw [if_neg same, Outcome.expect, if_neg same]
      exact refuse fault (t :: more)

theorem accept_none {k : Option Token → Read α} {wanted : Kind → Bool} (cut : rest <:+ front)
    (inner : wanted .endMark = false) (other : ∀ t ∈ rest.head?, wanted t.kind = false)
    (h : Follows front mark (k none) rest o) :
    Follows front mark (Cursor.accept tokens wanted >>= k) rest o := by
  have refused : wanted (rest.headD mark).kind = false := by
    cases rest with
    | nil => rwa [List.headD_nil, marked.ends]
    | cons t more => exact other t rfl
  rw [Cursor.accept, bind_assoc]
  apply peek marked cut
  simp only [refused, Bool.false_eq_true, if_false, pure_bind]
  exact h

theorem accept_some {k : Option Token → Read α} {wanted : Kind → Bool} (cut : t :: more <:+ front)
    (asked : wanted t.kind) (h : Follows front mark (k (some t)) more o) :
    Follows front mark (Cursor.accept tokens wanted >>= k) (t :: more) o := by
  rw [Cursor.accept, bind_assoc]
  apply peek marked cut
  simp only [List.headD_cons, asked, if_true, bind_assoc, pure_bind]
  exact advance marked cut h

theorem accept {k : Option Token → Read α} {wanted : Kind → Bool} {a : α}
    {f : Token → List Token → Outcome α} (cut : rest <:+ front) (inner : wanted .endMark = false)
    (stop : Follows front mark (k none) rest (.done a rest))
    (go : ∀ t more, rest = t :: more → wanted t.kind →
      Follows front mark (k (some t)) more (f t more)) :
    Follows front mark (Cursor.accept tokens wanted >>= k) rest
      (.continueIf wanted a f rest) := by
  by_cases other : ∀ t ∈ rest.head?, wanted t.kind = false
  · rw [Outcome.continueIf_of_other other]
    exact accept_none marked cut inner other stop
  · cases rest with
    | nil => exact absurd (by simp) other
    | cons t more =>
      have asked : wanted t.kind := by simpa using other
      rw [Outcome.continueIf_cons asked]
      exact accept_some marked cut asked (go t more rfl asked)

end Marked

end Follows

section Expressions

open Grammar

variable (marked : Marked tokens front mark)

/-- Of the tokens `rest` the level is read by place as it is from the list, if there is fuel for
twelve calls a token. -/
def Agrees (tokens front : List Token) (mark : Token) (level : Level) (rest : List Token) : Prop :=
  ∀ fuel, 12 * rest.length + level.rank < fuel → rest <:+ front →
    Follows front mark (expression tokens fuel level) rest (readExpr level rest)

def AgreesAfter (tokens front : List Token) (mark : Token) (level : Level) (left : Expr)
    (rest : List Token) : Prop :=
  ∀ fuel, 12 * rest.length < fuel → rest <:+ front →
    Follows front mark (operations tokens fuel level left) rest (readOperations level left rest)

theorem Agrees.shorter {level : Level} {fuel : Nat} (agrees : Agrees tokens front mark level more)
    (short : more.length < rest.length) (enough : 12 * rest.length ≤ fuel)
    (cut : more <:+ front) :
    Follows front mark (expression tokens fuel level) more (readExpr level more) := by
  have low := level.rank_le
  exact agrees fuel (by omega) cut

theorem agrees_joins (level : Level) (joins : level.joins)
    (operand : Agrees tokens front mark level.next rest)
    (chain : ∀ left more, more.length < rest.length →
      AgreesAfter tokens front mark level left more) :
    Agrees tokens front mark level rest := by
  rintro (_ | fuel) enough cut
  · omega
  have step : expression tokens (fuel + 1) level =
      expression tokens fuel level.next >>= operations tokens fuel level := by
    cases level <;> first | exact absurd joins (by decide) | rw [expression]
  have loose : level ≠ .primary := by rintro rfl; exact absurd joins (by decide)
  have tighter := Level.rank_next loose
  -- The first operand may start where the level does: it is a level tighter, not a token shorter.
  rw [step, readExpr_joins joins]
  apply (operand fuel (by omega) cut).bind
  intro left found
  have short := readExpr_shortens (Option.isSome_of_eq_some found)
  exact chain left _ short fuel (by omega) ((readExpr_suffix level.next rest).trans cut)

include marked

theorem agrees_operations (level : Level) (left : Expr)
    (operand : ∀ more, more.length < rest.length → Agrees tokens front mark level.next more)
    (chain : ∀ left more, more.length < rest.length →
      AgreesAfter tokens front mark level left more) :
    AgreesAfter tokens front mark level left rest := by
  rintro (_ | fuel) enough cut
  · omega
  rw [operations, readOperations_eq]
  apply Follows.accept marked cut
  · rfl
  · exact Follows.pure left rest
  · rintro t more rfl asked
    have short : more.length < (t :: more).length := Nat.lt_succ_self _
    have inside := (List.suffix_cons t more).trans cut
    apply ((operand more short).shorter short (by omega) inside).bind
    intro right _
    have fewer := Nat.lt_of_le_of_lt (readExpr_suffix level.next more).length_le short
    exact chain _ _ fewer fuel (by omega) ((readExpr_suffix level.next more).trans inside)

theorem agrees_assignment (target : Agrees tokens front mark .conditional rest)
    (value : ∀ more, more.length < rest.length → Agrees tokens front mark .assignment more) :
    Agrees tokens front mark .assignment rest := by
  rintro (_ | fuel) enough cut
  · omega
  rw [expression, readExpr_assignment]
  apply (target fuel (Nat.lt_of_succ_lt_succ enough) cut).bind
  intro target found
  have shorter := readExpr_shortens (Option.isSome_of_eq_some found)
  have behind := (readExpr_suffix .conditional rest).trans cut
  apply Follows.accept marked behind
  · rfl
  · exact Follows.pure target _
  intro t more here asked
  rw [here] at behind shorter
  have short := Nat.lt_of_succ_lt shorter
  apply ((value more short).shorter short (by omega) ((List.suffix_cons t more).trans behind)).bind
  intro value _
  cases target with
  | var name => exact Follows.pure (Expr.assign name value) _
  | _ => exact Follows.report .invalidTarget (t :: more) (Follows.pure _ _)

theorem agrees_conditional (condition : Agrees tokens front mark .or rest)
    (branch : ∀ more, more.length < rest.length → Agrees tokens front mark .comma more) :
    Agrees tokens front mark .conditional rest := by
  rintro (_ | fuel) enough cut
  · omega
  rw [expression, readExpr_conditional]
  apply (condition fuel (Nat.lt_of_succ_lt_succ enough) cut).bind
  intro condition found
  have shorter := readExpr_shortens (Option.isSome_of_eq_some found)
  have behind := (readExpr_suffix .or rest).trans cut
  apply Follows.accept marked behind
  · rfl
  · exact Follows.pure condition _
  intro t more here asked
  rw [here] at behind shorter
  have short := Nat.lt_of_succ_lt shorter
  have inside := (List.suffix_cons t more).trans behind
  apply ((branch more short).shorter short (by omega) inside).bind
  intro yes _
  have colon := Follows.expect marked .colon .missingColon
    ((readExpr_suffix .comma more).trans inside) (by decide)
  apply colon.bind
  intro _ _
  have left := colon.suffix.trans (readExpr_suffix .comma more)
  have fewer := Nat.lt_of_le_of_lt left.length_le short
  exact ((branch _ fewer).shorter fewer (by omega) (left.trans inside)).map _

theorem agrees_unary (same : Agrees tokens front mark .primary rest)
    (operand : ∀ more, more.length < rest.length → Agrees tokens front mark .primary more) :
    Agrees tokens front mark .unary rest := by
  rintro (_ | fuel) enough cut
  · omega
  have here := same fuel (Nat.lt_of_succ_lt_succ enough) cut
  rw [expression]
  cases rest with
  | nil =>
    rw [readExpr_unary_nil, ← readExpr_primary_nil]
    exact Follows.accept_none marked cut rfl (by simp) here
  | cons t more =>
    rw [readExpr_unary_cons]
    cases sign : t.kind.isUnary with
    | true =>
      have short : more.length < (t :: more).length := Nat.lt_succ_self _
      have inside := (List.suffix_cons t more).trans cut
      apply Follows.accept_some marked cut sign
      exact ((operand more short).shorter short (by omega) inside).map _
    | false => exact Follows.accept_none marked cut rfl (by simpa using sign) here

theorem agrees_primary
    (inner : ∀ level more, more.length < rest.length → Agrees tokens front mark level more) :
    Agrees tokens front mark .primary rest := by
  rintro (_ | fuel) enough cut
  · omega
  rw [expression]
  apply Follows.peek marked cut
  cases rest with
  | nil =>
    have unknown : Expr.ofToken? mark = none := by simp [Expr.ofToken?, marked.ends]
    have other : mark.kind.orphanLevel? = none := by rw [marked.ends]; rfl
    have closed : ¬ mark.kind = .leftParen := by rw [marked.ends]; decide
    rw [List.headD_nil, readExpr_primary_nil, unknown, other]
    simp only [if_neg closed]
    exact Follows.refuse .expectedExpression []
  | cons t more =>
    have short : more.length < (t :: more).length := Nat.lt_succ_self _
    have inside := (List.suffix_cons t more).trans cut
    have depth : 12 * (t :: more).length ≤ fuel := by omega
    have read level := (inner level more short).shorter short depth inside
    rw [List.headD_cons]
    cases known : Expr.ofToken? t with
    | some e =>
      rw [readExpr_primary_atom known]
      exact Follows.advance marked cut (Follows.pure e more)
    | none =>
      cases orphan : t.kind.orphanLevel? with
      | some level =>
        rw [readExpr_primary_orphan known orphan]
        apply Follows.advance marked cut
        exact Follows.report .missingLeftOperand (t :: more) (read level).abandon
      | none =>
        by_cases opens : t.kind = .leftParen
        · rw [readExpr_primary_group opens]
          simp only [if_pos opens]
          apply Follows.advance marked cut
          apply (read .comma).bind
          intro e _
          have behind := (readExpr_suffix .comma more).trans inside
          exact (Follows.expect marked .rightParen .unclosedGroup behind (by decide)).map _
        · rw [readExpr_primary_stray known orphan opens]
          simp only [if_neg opens]
          exact Follows.refuse .expectedExpression (t :: more)

theorem agrees (level : Level) (rest : List Token) : Agrees tokens front mark level rest :=
  (expr_induction (fun level _ => agrees_joins level) (fun _ => agrees_assignment marked)
    (fun _ => agrees_conditional marked) (fun _ => agrees_unary marked)
    (fun _ => agrees_primary marked) fun level left _ _ => agrees_operations marked level left).1
    level rest

end Expressions

section Statements

open Grammar

variable (marked : Marked tokens front mark) {fuel : Nat}

include marked

theorem follows_ended (fault : Fault) (node : Expr → Stmt) (enough : 12 * rest.length + 10 < fuel)
    (cut : rest <:+ front) :
    Follows front mark (ended tokens fuel fault node) rest (readEnded fault node rest) := by
  apply (agrees marked .comma rest fuel enough cut).bind
  intro e _
  have behind := (readExpr_suffix .comma rest).trans cut
  exact (Follows.expect marked .semicolon fault behind (by decide)).map _

theorem follows_initializer (enough : 12 * rest.length ≤ fuel) (cut : rest <:+ front) :
    Follows front mark (initializer tokens fuel) rest
      (.continueIf (· = .equal) none (fun _ more => (readExpr .comma more).map some) rest) := by
  apply Follows.accept marked cut
  · rfl
  · exact Follows.pure none rest
  · rintro t more rfl _
    have inside := (List.suffix_cons t more).trans cut
    exact ((agrees marked .comma more).shorter (Nat.lt_succ_self _) enough inside).map _

theorem follows_declaration (enough : 12 * rest.length ≤ fuel) (cut : rest <:+ front) :
    Follows front mark (declaration tokens fuel) rest (readDeclaration rest) := by
  have named := Follows.expect marked .name .missingName cut (by decide)
  apply named.bind
  intro name _
  have depth := Nat.le_trans (Nat.mul_le_mul_left 12 named.suffix.length_le) enough
  have given := follows_initializer marked depth (named.suffix.trans cut)
  apply given.bind
  intro value _
  have behind := given.suffix.trans (named.suffix.trans cut)
  exact (Follows.expect marked .semicolon .unendedDeclaration behind (by decide)).map _

theorem follows_condition (unopened unclosed : Fault) (enough : 12 * rest.length + 10 < fuel)
    (cut : rest <:+ front) :
    Follows front mark (condition tokens fuel unopened unclosed) rest
      (readCondition unopened unclosed rest) := by
  have opened := Follows.expect marked .leftParen unopened cut (by decide)
  apply opened.bind
  intro _ _
  have fewer := opened.suffix.length_le
  have inside := opened.suffix.trans cut
  have top : Level.comma.rank = 10 := rfl
  apply (agrees marked .comma _ fuel (by omega) inside).bind
  intro e _
  have behind := (readExpr_suffix .comma _).trans inside
  exact (Follows.expect marked .rightParen unclosed behind (by decide)).map _

omit marked in
theorem resume_singleton (t : Token) : Grammar.resume [t] = [] := by simp [Grammar.resume]

theorem follows_skip (enough : rest.length < fuel) (cut : rest <:+ front) (passed : Token)
    (reported : List Diagnostic) :
    skip tokens fuel passed (ahead front rest reported) =
      some (some (), ahead front (Grammar.resume (passed :: rest)) reported) := by
  induction rest generalizing fuel passed with
  | nil =>
    obtain _ | fuel := fuel
    · simp at enough
    rw [skip, Read.bind_of_found (marked.peek_ahead cut reported), resume_singleton]
    simp [marked.ends, Read.pure_apply]
  | cons t more ih =>
    obtain _ | fuel := fuel
    · simp at enough
    have inner := marked.unended t (cut.subset List.mem_cons_self)
    have inside := (List.suffix_cons t more).trans cut
    rw [skip, Read.bind_of_found (marked.peek_ahead cut reported), Grammar.resume]
    by_cases stops : passed.kind = .semicolon || t.kind.startsStatement
    · simp [inner, stops, Read.pure_apply]
    · simp only [List.headD_cons, List.head?_cons, Option.any_some, inner, stops, decide_false,
        Bool.false_or, Bool.false_eq_true, if_false]
      rw [Read.bind_of_found (marked.advance_token cut reported)]
      exact ih (Nat.lt_of_succ_lt_succ enough) inside t

theorem follows_resume (enough : rest.length < fuel) (cut : rest <:+ front)
    (reported : List Diagnostic) :
    Cursor.resume tokens fuel (ahead front rest reported) =
      some (some (), ahead front (Grammar.resume rest) reported) := by
  rw [Cursor.resume]
  cases rest with
  | nil =>
    have stays := follows_skip marked enough cut mark reported
    rw [resume_singleton] at stays
    rw [Read.bind_of_found (marked.advance_mark reported)]
    exact stays
  | cons t more =>
    rw [Read.bind_of_found (marked.advance_token cut reported)]
    exact follows_skip marked (Nat.lt_of_succ_lt enough) ((List.suffix_cons t more).trans cut) t
      reported

theorem follows_recover {walk : Read Stmt} {o : Outcome Stmt} (h : Follows front mark walk rest o)
    (enough : rest.length < fuel) (cut : rest <:+ front) :
    Follows front mark (recover tokens fuel walk) rest o.recover := by
  have behind : o.recover.rest <:+ rest := by
    unfold Outcome.recover
    split
    · exact h.suffix
    · exact (resume_suffix _).trans h.suffix
  refine ⟨behind, fun reported => ?_⟩
  rw [recover, h.answer, Option.bind_some]
  cases found : o.value with
  | some s => simp [Outcome.recover, found]
  | none =>
    have left := Nat.lt_of_le_of_lt h.suffix.length_le enough
    simp [Outcome.recover, found, follows_resume marked left (h.suffix.trans cut)]

theorem follows_statement
    (each : ∀ more, more.length < rest.length → ∀ fuel, 12 * more.length + 11 < fuel →
      more <:+ front → Follows front mark (statement tokens fuel) more (readStmt more))
    (body : ∀ inBlock more, more.length < rest.length → ∀ fuel, 12 * more.length + 12 < fuel →
      more <:+ front →
      Follows front mark (statements tokens fuel inBlock) more (readStmts inBlock more))
    (fuel : Nat) (enough : 12 * rest.length + 11 < fuel) (cut : rest <:+ front) :
    Follows front mark (statement tokens fuel) rest (readStmt rest) := by
  obtain _ | fuel := fuel
  · omega
  rw [statement]
  apply Follows.peek marked cut
  cases rest with
  | nil =>
    rw [List.headD_nil, marked.ends, readStmt_nil]
    exact follows_ended marked .unendedExpression .expression (Nat.lt_of_succ_lt_succ enough) cut
  | cons t more =>
    have short : more.length < (t :: more).length := Nat.lt_succ_self _
    have inside := (List.suffix_cons t more).trans cut
    have depth : 12 * more.length + 10 < fuel := by omega
    rw [List.headD_cons]
    split
    next kind =>
      rw [readStmt_var kind]
      exact Follows.advance marked cut (follows_declaration marked (by omega) inside)
    next kind =>
      rw [readStmt_print kind]
      exact Follows.advance marked cut (follows_ended marked .unendedPrint .print depth inside)
    next kind =>
      rw [readStmt_block kind]
      apply Follows.advance marked cut
      have held := body true more short fuel (by omega) inside
      apply held.bind
      intro body _
      have behind := held.suffix.trans inside
      exact (Follows.expect marked .rightBrace .unclosedBlock behind (by decide)).map _
    next kind =>
      rw [readStmt_if kind]
      apply Follows.advance marked cut
      have asked := follows_condition marked .ifWithoutParen .unclosedIfCondition depth inside
      apply asked.bind
      intro e _
      have behind := asked.suffix.trans inside
      have fewer := Nat.lt_of_le_of_lt asked.suffix.length_le short
      have taken := each _ fewer fuel (by omega) behind
      apply taken.bind
      intro yes _
      have left := taken.suffix.trans asked.suffix
      apply Follows.accept marked (left.trans inside)
      · rfl
      · exact Follows.pure (Stmt.branch e yes none) _
      intro u last here _
      rw [here] at left
      have fewest := Nat.lt_of_lt_of_le (Nat.lt_of_succ_le left.length_le) (Nat.le_of_lt short)
      exact (each last fewest fuel (by omega)
        ((List.suffix_cons u last).trans (left.trans inside))).map _
    next kind =>
      rw [readStmt_while kind]
      apply Follows.advance marked cut
      have asked :=
        follows_condition marked .whileWithoutParen .unclosedWhileCondition depth inside
      apply asked.bind
      intro e _
      have fewer := Nat.lt_of_le_of_lt asked.suffix.length_le short
      exact (each _ fewer fuel (by omega) (asked.suffix.trans inside)).map _
    next noVar noPrint noBrace noIf noWhile =>
      rw [readStmt_lone ⟨noBrace, noIf, noWhile⟩ ⟨noVar, noPrint⟩]
      exact follows_ended marked .unendedExpression .expression (Nat.lt_of_succ_lt_succ enough) cut

theorem follows_statements {inBlock : Bool}
    (first : ∀ fuel, 12 * rest.length + 11 < fuel → rest <:+ front →
      Follows front mark (statement tokens fuel) rest (readStmt rest))
    (others : ∀ more, more.length < rest.length → ∀ fuel, 12 * more.length + 12 < fuel →
      more <:+ front →
      Follows front mark (statements tokens fuel inBlock) more (readStmts inBlock more))
    (fuel : Nat) (enough : 12 * rest.length + 12 < fuel) (cut : rest <:+ front) :
    Follows front mark (statements tokens fuel inBlock) rest (readStmts inBlock rest) := by
  obtain _ | fuel := fuel
  · omega
  rw [statements]
  apply Follows.peek marked cut
  cases rest with
  | nil =>
    simp only [List.headD_nil, marked.ends, decide_true, Bool.true_or, if_true, readStmts_nil]
    exact Follows.pure [] []
  | cons t more =>
    have inner := marked.unended t (cut.subset List.mem_cons_self)
    rw [List.headD_cons, readStmts_cons]
    simp only [inner, decide_false, Bool.false_or]
    split
    · exact Follows.pure [] (t :: more)
    · have left : (t :: more).length < fuel := by omega
      have one := follows_recover marked (first fuel (by omega) cut) left cut
      apply one.bind
      intro found _
      have fewer := recover_shortens t more
      exact (others _ fewer fuel (by omega) (one.suffix.trans cut)).map _

/-- By induction on the number of tokens ahead, as the grammar itself goes down. -/
theorem follows_statement_and_statements :
    (∀ rest fuel, 12 * rest.length + 11 < fuel → rest <:+ front →
      Follows front mark (statement tokens fuel) rest (readStmt rest)) ∧
    ∀ inBlock rest fuel, 12 * rest.length + 12 < fuel → rest <:+ front →
      Follows front mark (statements tokens fuel inBlock) rest (readStmts inBlock rest) :=
  stmt_induction (fun _ each body => follows_statement marked each body)
    fun _ _ first others => follows_statements marked first others

end Statements

end Cursor

end Scriptlet
