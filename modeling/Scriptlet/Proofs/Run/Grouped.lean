import Scriptlet.Proofs.Grammar.Accepted
import Scriptlet.Proofs.Run.Lines
import Scriptlet.Proofs.Syntax.Hole

namespace Scriptlet

namespace Expr

theorem eval_group (e : Expr) : (group e).eval = e.eval := rfl

variable {other e : Expr}

theorem Frame.eval_fill (same : other.eval = e.eval) (f : Frame) :
    (f.fill other).eval = (f.fill e).eval := by
  cases f <;> simp only [fill, eval, same]

theorem eval_within (same : other.eval = e.eval) (frames : List Frame) :
    (within frames other).eval = (within frames e).eval := by
  induction frames generalizing other e with
  | nil => exact same
  | cons f frames ih => exact ih (f.eval_fill same)

end Expr

namespace Stmt

variable {fuel : Nat}

theorem Holder.exec_fill {other e : Expr} (same : other.eval = e.eval) (holder : Holder) :
    (holder.fill other).exec fuel = (holder.fill e).exec fuel := by
  cases holder with
  | branch yes no => cases no <;> simp only [fill, exec, same]
  | _ => simp only [fill, exec, same]

variable {other s : Stmt}

theorem execAll_around (same : other.exec fuel = s.exec fuel) (before after : List Stmt) :
    execAll fuel (before ++ other :: after) = execAll fuel (before ++ s :: after) := by
  rw [execAll_append, execAll_append, execAll, execAll, same]

theorem Frame.exec_fill (same : other.exec fuel = s.exec fuel) (f : Frame) :
    (f.fill other).exec fuel = (f.fill s).exec fuel := by
  cases f with
  | block before after => simp only [fill, exec, execAll_around same]
  | inYes condition no => cases no <;> simp only [fill, exec, same]
  | inNo condition yes => simp only [fill, exec, same]
  | loop condition => simp only [fill, exec, same]

theorem exec_within (same : other.exec fuel = s.exec fuel) (frames : List Frame) :
    (within frames other).exec fuel = (within frames s).exec fuel := by
  induction frames generalizing other s with
  | nil => exact same
  | cons f frames ih => exact ih (f.exec_fill same)

end Stmt

theorem Hole.execAll_fill {other e : Expr} (same : other.eval = e.eval) (hole : Hole)
    (fuel : Nat) : Stmt.execAll fuel (hole.fill other) = Stmt.execAll fuel (hole.fill e) := by
  have inside := Expr.eval_within same hole.inner
  have statement := Stmt.exec_within (@Stmt.Holder.exec_fill fuel _ _ inside hole.holder) hole.outer
  exact Stmt.execAll_around statement hole.before hole.after

namespace Program

open Grammar Terminal

theorem exists_uncounted (tokens : List Token) :
    ∃ uncounted, tokens = body tokens ++ uncounted ∧ body uncounted = [] := by
  refine ⟨tokens.dropWhile (·.kind ≠ .endMark), ?_, ?_⟩
  · exact List.takeWhile_append_dropWhile.symm
  · rw [body, List.takeWhile_eq_nil_iff]
    exact List.dropWhile_get_zero_not _ _

theorem spell_grouped {front inner back : List Token} {before behind : List Terminal} {e : Expr}
    (first : Spell before front) (node : Spell e.yield inner) (last : Spell behind back)
    {opening closing : Token} (opens : opening.kind = .leftParen)
    (closes : closing.kind = .rightParen) :
    Spell (before ++ ((Expr.group e).yield ++ behind))
      (front ++ opening :: inner ++ closing :: back) := by
  have group : Spell (Expr.group e).yield (opening :: (inner ++ [closing])) :=
    .cons opens (node.append (.cons closes .nil))
  have whole := first.append (group.append last)
  simpa using whole

/-- Every expression of an accepted program stands between two parts of the tokens. With a
parenthesis at either end of it the tokens are accepted as well, as the program in which a group
holds the expression, and whatever the two programs are run on, they do the same. -/
theorem ofTokens_grouped {tokens : List Token} (clean : (ofTokens tokens).diagnostics = []) :
    (∀ e ∈ Stmt.partsAll (ofTokens tokens).statements,
      ∃ hole : Hole, hole.fill e = (ofTokens tokens).statements) ∧
    ∀ (hole : Hole) e, hole.fill e = (ofTokens tokens).statements →
      ∃ front inner back, tokens = front ++ inner ++ back ∧
        Spell hole.front front ∧ Spell e.yield inner ∧
        (∀ opening closing : Token, opening.kind = .leftParen → closing.kind = .rightParen →
          ofTokens (front ++ opening :: inner ++ closing :: back) =
            ⟨hole.fill (.group e), []⟩) ∧
        ∀ fuel m, Stmt.execAll fuel (hole.fill (.group e)) m =
          Stmt.execAll fuel (hole.fill e) m := by
  refine ⟨fun e part => Hole.exists_fill part, fun hole e whole => ?_⟩
  obtain ⟨canonical, spelled⟩ := readStmts_eq_done_iff.mp (read_of_clean clean)
  rw [← whole] at canonical spelled
  rw [hole.yieldAll_fill] at spelled
  obtain ⟨front, _, cut, first, others⟩ := spell_append_iff.mp spelled
  obtain ⟨inner, back, rfl, node, last⟩ := spell_append_iff.mp others
  obtain ⟨uncounted, parted, none⟩ := exists_uncounted tokens
  refine ⟨front, inner, back ++ uncounted, ?_, first, node, fun opening closing opens closes => ?_,
    fun fuel m => congrFun (hole.execAll_fill (Expr.eval_group e) fuel) m⟩
  · rw [parted, cut]
    simp only [List.append_assoc]
  · have counted : ∀ t ∈ front ++ opening :: inner ++ closing :: back, t.kind ≠ .endMark := by
      have inside := body_inner tokens
      rw [cut] at inside
      intro t member
      simp only [List.mem_append, List.mem_cons] at member inside
      rcases member with (member | rfl | member) | rfl | member
      · exact inside t (.inl member)
      · simp [opens]
      · exact inside t (.inr (.inl member))
      · simp [closes]
      · exact inside t (.inr (.inr member))
    have tokensEq : front ++ opening :: inner ++ closing :: (back ++ uncounted) =
        (front ++ opening :: inner ++ closing :: back) ++ uncounted := by simp
    apply ofTokens_of_done
    rw [tokensEq, body_append counted, none, List.append_nil, readStmts_eq_done_iff,
      hole.yieldAll_fill]
    exact ⟨Hole.canonical_fill (.group e) canonical, spell_grouped first node last opens closes⟩

/-- The value that is assigned in `while (a) b = a ? c : d;`. -/
def choice : Expr :=
  .conditional (.var ⟨.name, "a", none, 1⟩) (.var ⟨.name, "c", none, 1⟩)
    (.var ⟨.name, "d", none, 1⟩)

def choosing : Hole where
  before := []
  outer := [.loop (.var ⟨.name, "a", none, 1⟩)]
  holder := .expression
  inner := [.assign ⟨.name, "b", none, 1⟩]
  after := []

theorem ofTokens_grouped_choice :
    let tokens := (scan "while (a) b = a ? c : d;").tokens
    ofTokens tokens = ⟨choosing.fill choice, []⟩ ∧
      ∃ front inner back, tokens = front ++ inner ++ back ∧ Spell choice.yield inner ∧
        (∀ opening closing : Token, opening.kind = .leftParen → closing.kind = .rightParen →
          ofTokens (front ++ opening :: inner ++ closing :: back) =
            ⟨choosing.fill (.group choice), []⟩) ∧
        ∀ fuel, Stmt.execAll fuel (choosing.fill (.group choice)) .initial =
          Stmt.execAll fuel (choosing.fill choice) .initial := by
  intro tokens
  have parsed : ofTokens (scan "while (a) b = a ? c : d;").tokens =
      ⟨choosing.fill choice, []⟩ := by
    have scanned : scan "while (a) b = a ? c : d;" =
        ⟨[⟨.kwWhile, "while", none, 1⟩, ⟨.leftParen, "(", none, 1⟩, ⟨.name, "a", none, 1⟩,
          ⟨.rightParen, ")", none, 1⟩, ⟨.name, "b", none, 1⟩, ⟨.equal, "=", none, 1⟩,
          ⟨.name, "a", none, 1⟩, ⟨.question, "?", none, 1⟩, ⟨.name, "c", none, 1⟩,
          ⟨.colon, ":", none, 1⟩, ⟨.name, "d", none, 1⟩, ⟨.semicolon, ";", none, 1⟩,
          .endAt 1], []⟩ := by decide +kernel
    rw [scanned]
    cbv
  obtain ⟨_, grouped⟩ := ofTokens_grouped (congrArg diagnostics parsed)
  obtain ⟨front, inner, back, cut, _, node, reads, runs⟩ :=
    grouped choosing choice (congrArg statements parsed).symm
  exact ⟨parsed, front, inner, back, cut, node, reads, fun fuel => runs fuel .initial⟩

end Program

end Scriptlet
