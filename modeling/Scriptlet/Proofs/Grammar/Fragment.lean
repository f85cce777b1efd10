import Scriptlet.Proofs.Grammar.Accepted
import Scriptlet.Proofs.Grammar.Invariant
import Scriptlet.Proofs.Grammar.Locality

/-!
Statements that lack their end. Reading them fails, either in the middle or only at the word
that starts the next statement. In the second case that word is skipped too, and the next
statement is lost.
-/

namespace Scriptlet

open Outcome Terminal

/-- The tokens of one simple statement without a semicolon, well formed or not. -/
structure Fragment where
  tokens : List Token
  nonempty : tokens ≠ []
  plain : ∀ t ∈ tokens, t.kind ∉ [.semicolon, .endMark, .leftBrace, .rightBrace]
  simple : ∀ t ∈ tokens.head?, t.kind ≠ .kwIf ∧ t.kind ≠ .kwWhile
  single : ∀ t ∈ tokens.tail, t.kind.startsStatement = false

theorem Terminal.spell_of_ended {items : List Terminal} {last : Terminal} {tokens : List Token}
    {t : Token} (spelled : Spell (items ++ [last]) (tokens ++ [t])) : Spell items tokens := by
  obtain ⟨front, back, cut, inside, one⟩ := spell_append_iff.mp spelled
  obtain ⟨u, rfl, _⟩ := spell_singleton_iff.mp one
  rwa [(List.append_inj' cut rfl).1]

namespace Fragment

variable (M : Fragment) {n : Token}

theorem unended : ∀ t ∈ M.tokens, t.kind ≠ .endMark := by
  rintro t member kind
  exact M.plain t member (by simp [kind])

theorem no_semicolon : ∀ t ∈ M.tokens, t.kind ≠ .semicolon := by
  rintro t member kind
  exact M.plain t member (by simp [kind])

theorem exists_cons : ∃ t rest, M.tokens = t :: rest ∧
    t.kind ≠ .leftBrace ∧ t.kind ≠ .kwIf ∧ t.kind ≠ .kwWhile := by
  obtain ⟨t, rest, cut⟩ := List.exists_cons_of_ne_nil M.nonempty
  refine ⟨t, rest, cut, ?_, M.simple t (by simp [cut])⟩
  intro kind
  exact M.plain t (by simp [cut]) (by simp [kind])

/-- What reading the fragment in front of `n` has left when it fails. -/
def left (n : Token) : List Token := (Grammar.readStmt (M.tokens ++ [n])).rest

/-- Reading goes wrong only at the word behind the fragment. -/
def Late (n : Token) : Prop := M.left n = [n]

end Fragment

namespace Grammar

section

variable (M : Fragment) {n : Token} (foreign : n.kind.foreign) (other : n.kind ≠ .semicolon)

include foreign other

theorem stable_fragment :
    Stable (fun more => readStmt (M.tokens ++ [n] ++ more)) fun value left =>
      value = none ∧ Guarded left := by
  obtain ⟨t, rest, cut, simple⟩ := M.exists_cons
  have guarded : Guarded (t :: (rest ++ [n])) := ⟨t :: rest, n, rfl, foreign⟩
  have stable := stable_simple simple (fun _ => by simp) guarded
  rw [cut]
  apply stable.mono
  rintro (_ | stmt) left _ _ halted
  · exact ⟨rfl, halted⟩
  · obtain ⟨u, ends, inside⟩ := halted
    have member : u ∈ M.tokens ++ [n] := by
      rw [cut]
      exact inside.subset List.mem_cons_self
    obtain member | last := List.mem_append.mp member
    · exact absurd ends (M.no_semicolon u member)
    · exact absurd (List.mem_singleton.mp last ▸ ends) other

theorem left_fragment : ∃ front, M.left n = front ++ [n] ∧ front <:+ M.tokens := by
  have guarded := (stable_fragment M foreign other).ends.2
  rw [List.append_nil] at guarded
  obtain nothing | cut := List.suffix_concat_iff.mp (readStmt_suffix (M.tokens ++ [n]))
  · exact absurd nothing guarded.ne_nil
  · exact cut

theorem recover_fragment (more : List Token) :
    (readStmt (M.tokens ++ n :: more)).recover =
      ⟨some none, ((readStmt (M.tokens ++ [n])).extend more).reports,
        resume (M.left n ++ more)⟩ := by
  have stable := stable_fragment M foreign other
  have whole := stable.extend_eq more
  have failed := stable.ends.1
  simp only [List.append_assoc, List.append_nil, List.singleton_append] at whole failed
  rw [whole]
  simp [recover, extend, failed, Fragment.left]

theorem readStmts_fragment (inBlock : Bool) (more : List Token) :
    readStmts inBlock (M.tokens ++ n :: more) =
      ⟨(readStmts inBlock (resume (M.left n ++ more))).value,
        ((readStmt (M.tokens ++ [n])).extend more).reports ++
          (readStmts inBlock (resume (M.left n ++ more))).reports,
        (readStmts inBlock (resume (M.left n ++ more))).rest⟩ := by
  have recovered := recover_fragment M foreign other more
  obtain ⟨t, rest, cut, _⟩ := M.exists_cons
  have within : t.kind ≠ .rightBrace := fun kind => M.plain t (by simp [cut]) (by simp [kind])
  rw [cut] at recovered ⊢
  rw [List.cons_append, readStmts_cons, if_neg (by simp [within]), ← List.cons_append, recovered]
  simp [Outcome.bind, Outcome.map]

theorem blamed_fragment {r : Report} (member : r ∈ (readStmt (M.tokens ++ [n])).reports) :
    ∃ t ∈ M.tokens ++ [n], ∃ rest, r.ahead = t :: rest := by
  have stable := stable_fragment M foreign other
  have kept : (readStmt (M.tokens ++ [n])).Ensures
      (Report.Among Fault.ofSimple (· <:+ M.tokens ++ [n])) (· <:+ M.tokens ++ [n])
        fun _ => Behind (· <:+ M.tokens ++ [n]) := by
    obtain ⟨t, rest, cut, simple⟩ := M.exists_cons
    rw [cut]
    apply readStmt_simple_keeps _ simple
    · exact fun _ => (List.suffix_cons t (rest ++ [n])).trans
    · exact List.suffix_rfl
    · exact fun t more _ => (List.suffix_cons t more).trans
  have left := stable.blamed r (by rwa [List.append_nil])
  obtain ⟨t, rest, ahead⟩ := List.exists_cons_of_ne_nil left
  have inside := (kept.reports r member).2
  rw [ahead] at inside
  exact ⟨t, inside.mem List.mem_cons_self, rest, ahead⟩

end

section

variable (M : Fragment) {n : Token} (starts : n.kind.startsStatement)

include starts

theorem foreign_of_starts : n.kind.foreign ∧ n.kind ≠ .semicolon := by
  obtain ⟨kind, _, _, _⟩ := n
  cases kind <;> simp_all [Kind.startsStatement, Kind.foreign]

theorem resume_early (early : ¬ M.Late n) (more : List Token) :
    resume (M.left n ++ more) = n :: more := by
  obtain ⟨foreign, other⟩ := foreign_of_starts starts
  obtain ⟨front, cut, inside⟩ := left_fragment M foreign other
  obtain rfl | ⟨init, last, rfl⟩ := List.eq_nil_or_concat' front
  · exact absurd cut early
  have single : ∀ t ∈ (init ++ [last]).tail, t.kind.startsStatement = false :=
    fun t member => M.single t (mem_tail_of_suffix inside member)
  -- A token is skipped before `n` is looked at, so `n` itself is not the one that has to go.
  have skipped : resume (init ++ last :: n :: more) = resume (last :: n :: more) := by
    apply resume_append
    · intro t member
      exact M.no_semicolon t (inside.mem (List.mem_append_left _ member))
    · intro t member
      apply single t
      cases init with
      | nil => cases member
      | cons u init => exact List.mem_append_left _ member
    · intro some
      cases init with
      | nil => exact absurd rfl some
      | cons u init => simpa using single last (by simp)
  rw [cut]
  simp only [List.append_assoc, List.cons_append, List.nil_append, skipped]
  simp [resume, starts]

theorem readExpr_before {e : Expr} (canonical : e.Canonical) {tokens : List Token}
    (spelled : Spell e.yield tokens) : readExpr .comma (tokens ++ [n]) = .done e [n] := by
  apply (readable_of_canonical canonical spelled).before
  cases joint : n.kind.joint? with
  | none => rfl
  | some level =>
    have foreign := (foreign_of_starts starts).1
    rw [native_of_joint joint] at foreign
    cases foreign

theorem left_of_ended {e : Expr} (canonical : e.Canonical) (fault : Fault) (node : Expr → Stmt)
    {tokens : List Token} (spelled : Spell e.yield tokens) :
    (readEnded fault node (tokens ++ [n])).rest = [n] := by
  rw [readEnded, readExpr_before starts canonical spelled, done_bind]
  simp [expect, (foreign_of_starts starts).2, Outcome.map, fail]

theorem late_of_canonical {s : Stmt} (canonical : s.Canonical) {semicolon : Token}
    (spelled : Spell s.yield (M.tokens ++ [semicolon])) : M.Late n := by
  obtain ⟨_, other⟩ := foreign_of_starts starts
  obtain ⟨t, rest, cut, brace, isIf, isWhile⟩ := M.exists_cons
  unfold Fragment.Late Fragment.left
  rw [cut] at spelled ⊢
  cases canonical with
  | @expression e inner =>
    have spelled : Spell e.yield (t :: rest) := spell_of_ended spelled
    obtain ⟨item, items, yields⟩ := List.exists_cons_of_ne_nil e.yield_ne_nil
    have native := inner.native item (by simp [yields])
    have fits : item.Fits t := (List.forall₂_cons.mp (yields ▸ spelled)).1
    rw [← fits.kind_eq] at native
    rw [List.cons_append, readStmt_of_native native]
    exact left_of_ended starts inner _ _ spelled
  | print inner =>
    obtain ⟨kind, spelled⟩ := List.forall₂_cons.mp spelled
    rw [List.cons_append, readStmt_print kind]
    exact left_of_ended starts inner _ _ (spell_of_ended spelled)
  | @bare name named =>
    obtain ⟨kind, spelled⟩ := List.forall₂_cons.mp spelled
    have spelled : Spell [.kept name] rest := spell_of_ended spelled
    obtain ⟨name, rfl, rfl⟩ := spell_singleton_iff.mp spelled
    have unequal : n.kind ≠ .equal := by rintro kind; rw [kind] at starts; cases starts
    rw [List.cons_append, readStmt_var kind, readDeclaration, List.singleton_append,
      expect_cons named, done_bind, continueIf_of_other (by simpa using unequal), done_bind]
    simp [expect, other, Outcome.map, fail]
  | @declare name e named inner =>
    obtain ⟨kind, spelled⟩ := List.forall₂_cons.mp spelled
    have spelled : Spell (.kept name :: .word .equal :: e.yield) rest := spell_of_ended spelled
    obtain ⟨name, _, rfl, rfl, given⟩ := spell_cons_iff.mp spelled
    obtain ⟨equal, front, rfl, gives, value⟩ := spell_cons_iff.mp given
    have gives : equal.kind = .equal := gives
    simp only [List.cons_append]
    rw [readStmt_var kind, readDeclaration, expect_cons named, done_bind,
      continueIf_cons (decide_eq_true gives), readExpr_before starts inner value, map_done,
      done_bind]
    simp [expect, other, Outcome.map, fail]
  | block => exact absurd (List.forall₂_cons.mp spelled).1 brace
  | branch | branches => exact absurd (List.forall₂_cons.mp spelled).1 isIf
  | loop => exact absurd (List.forall₂_cons.mp spelled).1 isWhile

end

end Grammar

namespace Program

open Grammar

section

variable (M : Fragment) {n : Token} (starts : n.kind.startsStatement) (more : List Token)

include starts

theorem body_word : body (n :: more) = n :: body more := by
  apply List.takeWhile_cons_of_pos
  cases kind : n.kind <;> simp_all [Kind.startsStatement]

theorem read_fragment :
    readStmts false (body (M.tokens ++ n :: more)) =
      ⟨(readStmts false (resume (M.left n ++ body more))).value,
        ((readStmt (M.tokens ++ [n])).extend (body more)).reports ++
          (readStmts false (resume (M.left n ++ body more))).reports,
        (readStmts false (resume (M.left n ++ body more))).rest⟩ := by
  obtain ⟨foreign, other⟩ := foreign_of_starts starts
  rw [body_append M.unended, body_word starts, readStmts_fragment M foreign other]

theorem diagnostics_fragment : (ofTokens (M.tokens ++ n :: more)).diagnostics ≠ [] := by
  obtain ⟨foreign, other⟩ := foreign_of_starts starts
  have failed := (stable_fragment M foreign other).ends.1
  rw [List.append_nil] at failed
  have reported := (accounts_stmt (M.tokens ++ [n])).failed failed
  rw [diagnostics_ofTokens, read_fragment M starts]
  simp [extend, reported]

variable {more} (clean : (ofTokens (n :: more)).diagnostics = [])

include clean

theorem ofTokens_early (early : ¬ M.Late n) :
    (ofTokens (M.tokens ++ n :: more)).statements = (ofTokens (n :: more)).statements ∧
      ∀ d ∈ (ofTokens (M.tokens ++ n :: more)).diagnostics,
        ∃ t ∈ M.tokens ++ [n], ∃ fault, d = .atToken t fault := by
  obtain ⟨foreign, other⟩ := foreign_of_starts starts
  have accepted := read_of_clean clean
  have read := read_fragment M starts more
  rw [body_word starts] at accepted
  rw [resume_early M starts early, accepted] at read
  constructor
  · rw [statements_ofTokens, read]
    rfl
  · intro d member
    rw [diagnostics_ofTokens, read] at member
    obtain ⟨_, extended, rfl⟩ := List.mem_map.mp member
    simp only [done, List.append_nil, extend, List.mem_map] at extended
    obtain ⟨r, reported, rfl⟩ := extended
    obtain ⟨t, inside, rest, ahead⟩ := blamed_fragment M foreign other reported
    exact ⟨t, inside, r.fault, by simp [Report.diagnostic, ahead]⟩

theorem ofTokens_late (late : M.Late n) :
    (ofTokens (M.tokens ++ n :: more)).statements =
        (ofTokens (resume (body (n :: more)))).statements ∧
      (ofTokens (M.tokens ++ n :: more)).statements ≠ (ofTokens (n :: more)).statements := by
  have behind := body_word starts more
  have whole : body (resume (n :: body more)) = resume (n :: body more) := by
    apply body_of_unended
    intro t member
    exact body_inner (n :: more) t (behind ▸ (resume_suffix _).mem member)
  have left : (ofTokens (M.tokens ++ n :: more)).statements =
      (ofTokens (resume (body (n :: more)))).statements := by
    rw [statements_ofTokens, read_fragment M starts, late, statements_ofTokens, behind, whole]
    rfl
  refine ⟨left, fun same => ?_⟩
  obtain ⟨_, spelled⟩ := readStmts_eq_done_iff.mp (read_of_clean clean)
  have all := spelled.length_eq
  have fewer := yieldAll_length_le (resume (body (n :: more)))
  rw [← same, left] at all
  rw [behind] at all fewer
  rw [whole] at fewer
  have shorter := resume_length n (body more)
  simp only [List.length_cons] at all
  omega

end

/-- Behind a fragment nothing is lost of tokens that are accepted by themselves, unless the
fragment is wrong only for want of its end: then their first word is skipped, and with it their
first statement. -/
theorem ofTokens_fragment (M : Fragment) {n : Token} (starts : n.kind.startsStatement)
    {more : List Token} (clean : (ofTokens (n :: more)).diagnostics = []) :
    (ofTokens (M.tokens ++ n :: more)).diagnostics ≠ [] ∧
      (¬ M.Late n →
        (ofTokens (M.tokens ++ n :: more)).statements = (ofTokens (n :: more)).statements ∧
        ∀ d ∈ (ofTokens (M.tokens ++ n :: more)).diagnostics,
          ∃ t ∈ M.tokens ++ [n], ∃ fault, d = .atToken t fault) ∧
      (M.Late n →
        (ofTokens (M.tokens ++ n :: more)).statements =
          (ofTokens (resume (body (n :: more)))).statements ∧
        (ofTokens (M.tokens ++ n :: more)).statements ≠ (ofTokens (n :: more)).statements) ∧
      ∀ (s : Stmt) semicolon, s.Canonical → Spell s.yield (M.tokens ++ [semicolon]) → M.Late n := by
  exact ⟨diagnostics_fragment M starts more, ofTokens_early M starts clean,
    ofTokens_late M starts clean,
    fun _ _ canonical spelled => late_of_canonical M starts canonical spelled⟩

def printWord : Token := ⟨.kwPrint, "print", none, 1⟩

def printTwo : Fragment where
  tokens := [printWord, ⟨.name, "a", none, 1⟩, ⟨.name, "b", none, 1⟩]
  nonempty := nofun
  plain := by decide
  simple := by decide
  single := by decide

def printOne : Fragment where
  tokens := [printWord, ⟨.name, "a", none, 1⟩]
  nonempty := nofun
  plain := by decide
  simple := by decide
  single := by decide

def endOfPrint : List Token := [⟨.name, "c", none, 1⟩, ⟨.semicolon, ";", none, 1⟩]

theorem ofTokens_fragment_two :
    printWord.kind.startsStatement ∧ (ofTokens (printWord :: endOfPrint)).diagnostics = [] ∧
      ¬ printTwo.Late printWord ∧
      (ofTokens (printTwo.tokens ++ printWord :: endOfPrint)).statements =
        [.print (.var ⟨.name, "c", none, 1⟩)] ∧
      ∀ d ∈ (ofTokens (printTwo.tokens ++ printWord :: endOfPrint)).diagnostics,
        ∃ t ∈ printTwo.tokens ++ [printWord], ∃ fault, d = .atToken t fault := by
  have accepted : ofTokens (printWord :: endOfPrint) =
      ⟨[.print (.var ⟨.name, "c", none, 1⟩)], []⟩ := by cbv
  have clean := congrArg diagnostics accepted
  have left : printTwo.left printWord = [⟨.name, "b", none, 1⟩, printWord] := by cbv
  have early : ¬ printTwo.Late printWord := by simp [Fragment.Late, left]
  obtain ⟨_, kept, _⟩ := ofTokens_fragment printTwo rfl clean
  obtain ⟨same, blamed⟩ := kept early
  rw [accepted] at same
  exact ⟨rfl, clean, early, same, blamed⟩

/-- The word that starts the next statement is skipped, and no statement is left. -/
theorem ofTokens_unended_print :
    ofTokens (printWord :: endOfPrint) = ⟨[.print (.var ⟨.name, "c", none, 1⟩)], []⟩ ∧
      ofTokens (printOne.tokens ++ printWord :: endOfPrint) =
        ⟨[], [⟨1, .atLexeme "print", .unendedPrint⟩]⟩ := by
  constructor <;> cbv

end Program

end Scriptlet
