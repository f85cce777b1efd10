import Scriptlet.Proofs.Grammar.Follows

/-!
Reading by place keeps in bounds. From no place up to the first end mark does it look behind the
mark or go on for ever, and from the first place on it finds the program of the tokens.
-/

namespace Scriptlet

namespace Cursor

open Grammar Program

section Marks

variable {tokens front : List Token} {mark : Token}

namespace Marked

theorem body_eq (marked : Marked tokens front mark) : body tokens = front := by
  obtain ⟨junk, rfl⟩ := marked.whole
  exact body_append_mark marked.unended marked.ends junk

theorem closing_eq (marked : Marked tokens front mark) : closing tokens = mark := by
  have first : tokens.find? (·.kind = .endMark) = some mark := by
    obtain ⟨junk, rfl⟩ := marked.whole
    rw [List.find?_eq_some_iff_append]
    exact ⟨by simpa using marked.ends, front, junk, rfl, by simpa using marked.unended⟩
  rw [closing, first, Option.getD_some]

theorem findIdx_eq (marked : Marked tokens front mark) :
    tokens.findIdx (·.kind = .endMark) = front.length := by
  obtain ⟨junk, rfl⟩ := marked.whole
  have none : front.findIdx (·.kind = .endMark) = front.length :=
    List.findIdx_eq_length.mpr (by simpa using marked.unended)
  rw [List.findIdx_append, none, if_neg (Nat.lt_irrefl _), List.findIdx_cons]
  simp [marked.ends]

theorem append (marked : Marked tokens front mark) (junk : List Token) :
    Marked (tokens ++ junk) front mark := by
  obtain ⟨behind, rfl⟩ := marked.whole
  exact ⟨⟨behind ++ junk, by simp⟩, marked.unended, marked.ends⟩

end Marked

theorem marked_of_mem (held : ∃ t ∈ tokens, t.kind = .endMark) :
    Marked tokens (body tokens) (closing tokens) := by
  have found : (tokens.find? (·.kind = .endMark)).isSome := by simpa using held
  obtain ⟨mark, first⟩ := Option.isSome_iff_exists.mp found
  obtain ⟨ends, front, junk, whole, unended⟩ := List.find?_eq_some_iff_append.mp first
  have marked : Marked tokens front mark :=
    ⟨⟨junk, whole⟩, by simpa using unended, by simpa using ends⟩
  rwa [marked.body_eq, marked.closing_eq]

theorem marked_of_unended (unended : ∀ t ∈ tokens, t.kind ≠ .endMark) :
    Marked (tokens ++ [.endAt ((tokens.getLast?.map Token.line).getD 1)]) (body tokens)
      (closing tokens) := by
  have none : tokens.find? (·.kind = .endMark) = none := by simpa using unended
  rw [body_of_unended unended, closing, none, Option.getD_none]
  exact ⟨⟨[], rfl⟩, unended, rfl⟩

theorem marked_closed (tokens : List Token) :
    Marked (closed tokens) (body tokens) (closing tokens) := by
  by_cases held : ∃ t ∈ tokens, t.kind = .endMark
  · have kept := marked_of_mem held
    unfold closed
    split
    · exact kept
    · exact kept.append _
  · have unended : ∀ t ∈ tokens, t.kind ≠ .endMark := fun t member ends => held ⟨t, member, ends⟩
    have open_ : ¬ tokens.getLast?.any (·.kind = .endMark) := by
      cases last : tokens.getLast? with
      | none => simp
      | some t => simpa using unended t (List.mem_of_getLast? last)
    rw [closed, if_neg open_]
    exact marked_of_unended unended

theorem ofTokens_of_marked {other : List Token}
    (same : Marked other (body tokens) (closing tokens)) : ofTokens other = ofTokens tokens := by
  unfold ofTokens
  rw [same.body_eq, same.closing_eq]

end Marks

section Bounds

variable {tokens front rest : List Token} {mark : Token} {α : Type} {walk : Read α}

/-- From every place up to `last` there is an answer, at a place between the two. -/
def Bounded (last : Nat) (walk : Read α) : Prop :=
  ∀ c, c.current ≤ last →
    ∃ value d, walk c = some (value, d) ∧ c.current ≤ d.current ∧ d.current ≤ last

/-- From every place before `last` there is a value, and a token was passed for it. -/
def Consumes (last : Nat) (walk : Read α) : Prop :=
  ∀ c, c.current < last →
    ∃ a d, walk c = some (some a, d) ∧ c.current < d.current ∧ d.current ≤ last

theorem ahead_drop {c : Cursor} (within : c.current ≤ front.length) :
    ahead front (front.drop c.current) c.reported = c := by
  have place : front.length - (front.length - c.current) = c.current := by omega
  rw [ahead, List.length_drop, place]

theorem bounded_of_follows {o : List Token → Outcome α}
    (follows : ∀ rest, rest <:+ front → Follows front mark walk rest (o rest)) :
    Bounded front.length walk := by
  intro c within
  have here := follows _ (List.drop_suffix c.current front)
  have answer := here.answer c.reported
  rw [ahead_drop within] at answer
  refine ⟨_, _, answer, ?_, Nat.sub_le _ _⟩
  have fewer := here.suffix.length_le
  rw [List.length_drop] at fewer
  show c.current ≤ front.length - _
  omega

theorem bounded_expression (marked : Marked tokens front mark) {fuel : Nat}
    (enough : 12 * front.length + 12 < fuel) (level : Level) :
    Bounded front.length (expression tokens fuel level) := by
  apply bounded_of_follows
  intro rest cut
  have low := level.rank_le
  have fewer := cut.length_le
  exact agrees marked level rest fuel (by omega) cut

theorem bounded_statement (marked : Marked tokens front mark) {fuel : Nat}
    (enough : 12 * front.length + 12 < fuel) : Bounded front.length (statement tokens fuel) := by
  apply bounded_of_follows
  intro rest cut
  have fewer := cut.length_le
  exact (follows_statement_and_statements marked).1 rest fuel (by omega) cut

theorem bounded_statements (marked : Marked tokens front mark) {fuel : Nat}
    (enough : 12 * front.length + 12 < fuel) (inBlock : Bool) :
    Bounded front.length (statements tokens fuel inBlock) := by
  apply bounded_of_follows
  intro rest cut
  have fewer := cut.length_le
  exact (follows_statement_and_statements marked).2 inBlock rest fuel (by omega) cut

theorem consumes_recover (marked : Marked tokens front mark) {fuel : Nat}
    (enough : 12 * front.length + 12 < fuel) :
    Consumes front.length (recover tokens fuel (statement tokens fuel)) := by
  intro c within
  have cut := List.drop_suffix c.current front
  have whole := cut.length_le
  have first := (follows_statement_and_statements marked).1 _ fuel (by omega) cut
  have left : (front.drop c.current).length < fuel := by omega
  have here := follows_recover marked first left cut
  have answer := here.answer c.reported
  rw [ahead_drop (Nat.le_of_lt within)] at answer
  refine ⟨_, _, answer, ?_, Nat.sub_le _ _⟩
  have fewer : (readStmt (front.drop c.current)).recover.rest.length <
      (front.drop c.current).length := by
    rw [List.drop_eq_getElem_cons within]
    exact recover_shortens _ _
  rw [List.length_drop] at fewer
  show c.current < front.length - _
  omega

theorem readStmts_exhausts (tokens : List Token) : (readStmts false tokens).rest = [] := by
  apply List.head?_eq_none_iff.mp
  apply Option.eq_none_iff_forall_not_mem.mpr
  intro t head
  cases (readStmts_ends false tokens t head).1

theorem statements_closed (tokens : List Token) {fuel : Nat}
    (enough : 12 * (body tokens).length + 12 < fuel) :
    statements (closed tokens) fuel false ⟨0, []⟩ =
      some (some (ofTokens tokens).statements,
        ⟨(body tokens).length, (ofTokens tokens).diagnostics⟩) := by
  have all := (follows_statement_and_statements (marked_closed tokens)).2 false
  have answer := (all _ fuel enough List.suffix_rfl).answer []
  obtain ⟨parsed, found⟩ := readStmts_found false (body tokens)
  rw [readStmts_exhausts, found] at answer
  rw [statements_ofTokens, diagnostics_ofTokens, found]
  simpa [ahead] using answer

/-- Reading ends at the first end mark for all tokens, at a depth that grows with their number.
What is behind the mark does not matter, and where there is none it is as if one stood on the line
of the last token. -/
theorem reading_ends (tokens : List Token) :
    let whole := closed tokens
    let last := whole.findIdx (·.kind = .endMark)
    last < whole.length ∧
      (∀ fuel > 12 * last + 12,
        statements whole fuel false ⟨0, []⟩ =
          some (some (ofTokens tokens).statements, ⟨last, (ofTokens tokens).diagnostics⟩) ∧
        (∀ level, Bounded last (expression whole fuel level)) ∧
        Bounded last (statement whole fuel) ∧
        (∀ inBlock, Bounded last (statements whole fuel inBlock)) ∧
        Consumes last (recover whole fuel (statement whole fuel))) ∧
      (∀ mark junk, mark.kind = .endMark →
        ofTokens (tokens ++ mark :: junk) = ofTokens (tokens ++ [mark])) ∧
      ((∀ t ∈ tokens, t.kind ≠ .endMark) →
        ofTokens tokens =
          ofTokens (tokens ++ [.endAt ((tokens.getLast?.map Token.line).getD 1)])) := by
  have marked := marked_closed tokens
  intro whole last
  have place : last = (body tokens).length := marked.findIdx_eq
  rw [place]
  refine ⟨?within, fun fuel enough => ⟨statements_closed tokens enough,
    bounded_expression marked enough, bounded_statement marked enough,
    bounded_statements marked enough, consumes_recover marked enough⟩, ?junk, ?unended⟩
  case within =>
    obtain ⟨junk, split⟩ := marked.whole
    show _ < (closed tokens).length
    rw [split, List.length_append]
    simp
  case junk =>
    intro mark junk ends
    have held : ∃ t ∈ tokens ++ [mark], t.kind = .endMark := ⟨mark, by simp, ends⟩
    have longer := (marked_of_mem held).append junk
    rw [List.append_assoc, List.singleton_append] at longer
    exact ofTokens_of_marked longer
  case unended =>
    exact fun unended => (ofTokens_of_marked (marked_of_unended unended)).symm

theorem reading_ends_unvalued :
    let tokens : List Token := [⟨.kwPrint, "print", none, 1⟩, ⟨.number, "1", none, 2⟩]
    ((∀ t ∈ tokens, t.kind ≠ .endMark) ∧ (Token.endAt 3).kind = .endMark) ∧
      ofTokens tokens = ofTokens (tokens ++ [.endAt 2]) ∧
      ofTokens (tokens ++ .endAt 3 :: tokens) = ofTokens (tokens ++ [.endAt 3]) ∧
      ∃ a d, recover (closed tokens) 40 (statement (closed tokens) 40) ⟨1, []⟩ =
        some (some a, d) ∧ 1 < d.current ∧ d.current ≤ 2 := by
  intro tokens
  obtain ⟨_, reads, junk, unended⟩ := reading_ends tokens
  have inner : ∀ t ∈ tokens, t.kind ≠ .endMark := by decide
  obtain ⟨_, _, _, _, consumes⟩ := reads 40 (by decide)
  exact ⟨⟨inner, rfl⟩, unended inner, junk (.endAt 3) tokens rfl, consumes ⟨1, []⟩ (by decide)⟩

end Bounds

end Cursor

end Scriptlet
