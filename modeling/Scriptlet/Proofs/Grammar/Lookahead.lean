import Scriptlet.Proofs.Grammar.Reading
import Scriptlet.Proofs.Syntax.Canonical

namespace Scriptlet

/-- The level at which a token goes on with the expression before it. -/
def Kind.joint? : Kind → Option Level
  | equal => some .assignment
  | question => some .conditional
  | kind => kind.level?

theorem Kind.joint?_of_level? {kind : Kind} {level : Level} (h : kind.level? = some level) :
    kind.joint? = some level := by
  cases kind <;> simp only [level?, reduceCtorEq, Option.some.injEq] at h <;> exact congrArg some h

theorem Kind.level?_of_joint? {kind : Kind} {level : Level} (joins : level.joins)
    (h : kind.joint? = some level) : kind.level? = some level := by
  cases kind <;> simp only [joint?, Option.some.injEq] at h <;>
    first | exact h | (subst h; cases joins)

theorem Kind.joint?_eq_assignment {kind : Kind} :
    kind.joint? = some .assignment ↔ kind = .equal := by
  cases kind <;> decide

theorem Kind.joint?_eq_conditional {kind : Kind} :
    kind.joint? = some .conditional ↔ kind = .question := by
  cases kind <;> decide

theorem Kind.joint?_ne_unary (kind : Kind) : kind.joint? ≠ some .unary := by
  cases kind <;> decide

/-- Nothing but tokens of looser levels goes on with an expression of the level. -/
def Level.Stops (level : Level) (rest : List Token) : Prop :=
  ∀ t ∈ rest.head?, ∀ joint, t.kind.joint? = some joint → level.rank < joint.rank

/-- The level up to which reading an expression of `level` goes on at its end. -/
def Expr.reach (e : Expr) (level : Level) : Level := if e.endsOpen then .comma else level

def Stmt.Stops (s : Stmt) (rest : List Token) : Prop :=
  s.endsOpen → ∀ t ∈ rest.head?, t.kind ≠ .kwElse

theorem Stmt.stops_of_closed {s : Stmt} (closed : s.endsOpen = false) (rest : List Token) :
    s.Stops rest := by
  intro opens
  rw [closed] at opens
  cases opens

namespace Level

theorem rank_next_le (level : Level) : level.next.rank ≤ level.rank := by cases level <;> decide

theorem rank_le_comma (level : Level) : level.rank ≤ comma.rank := by cases level <;> decide

theorem stops_cons {level : Level} {t : Token} {more : List Token} :
    level.Stops (t :: more) ↔ ∀ joint, t.kind.joint? = some joint → level.rank < joint.rank := by
  simp [Stops]

theorem stops_of_unjoined {t : Token} (alone : t.kind.joint? = none) (level : Level)
    (more : List Token) : level.Stops (t :: more) := by
  rw [stops_cons, alone]
  exact nofun

theorem Stops.ne_joint {level : Level} {rest : List Token} (h : level.Stops rest) :
    ∀ t ∈ rest.head?, t.kind.joint? ≠ some level := by
  intro t head joint
  exact Nat.lt_irrefl _ (h t head level joint)

theorem Stops.mono {level tighter : Level} {rest : List Token} (h : level.Stops rest)
    (le : tighter.rank ≤ level.rank) : tighter.Stops rest :=
  fun t ht joint hj => Nat.lt_of_le_of_lt le (h t ht joint hj)

theorem Stops.of_next {level : Level} {rest : List Token} (loose : level ≠ .primary)
    (h : level.next.Stops rest) (other : ∀ t ∈ rest.head?, t.kind.joint? ≠ some level) :
    level.Stops rest := by
  intro t ht joint hj
  have above := h t ht joint hj
  have step := rank_next loose
  have differs : joint.rank ≠ level.rank := by
    intro same
    rw [rank_injective _ _ same] at hj
    exact other t ht hj
  omega

theorem stops_of_tight {level : Level} (tight : level.rank ≤ unary.rank) (rest : List Token) :
    level.Stops rest := by
  intro t _ joint hj
  apply Nat.lt_of_le_of_lt tight
  generalize t.kind = kind at hj
  cases kind <;> simp only [Kind.joint?, Kind.level?, reduceCtorEq, Option.some.injEq] at hj <;>
    subst hj <;> decide

end Level

namespace Expr

theorem reach_eq {e : Expr} (closed : e.endsOpen = false) (level : Level) :
    e.reach level = level := by simp [reach, closed]

theorem rank_le_reach (e : Expr) (level : Level) : level.rank ≤ (e.reach level).rank := by
  unfold reach
  split
  · exact level.rank_le_comma
  · exact Nat.le_refl _

theorem reach_mono (e : Expr) {level looser : Level} (le : level.rank ≤ looser.rank) :
    (e.reach level).rank ≤ (e.reach looser).rank := by
  unfold reach
  split
  · exact Nat.le_refl _
  · exact le

theorem stops_of_next {e : Expr} {level : Level} {rest : List Token} (loose : level ≠ .primary)
    (h : (e.reach level.next).Stops rest) (other : ∀ t ∈ rest.head?, t.kind.joint? ≠ some level) :
    (e.reach level).Stops rest := by
  cases opens : e.endsOpen with
  | true => simpa [reach, opens] using h
  | false =>
    rw [reach_eq opens] at h ⊢
    exact h.of_next loose other

theorem closed_of_tight {e : Expr} (tight : e.level.rank < Level.conditional.rank) :
    e.endsOpen = false := by
  cases opens : e.endsOpen with
  | false => rfl
  | true => exact absurd (e.loose_of_endsOpen opens) (Nat.not_le_of_lt tight)

theorem closed_of_joint {e : Expr} {level joint : Level} {t : Token} {more : List Token}
    (stops : (e.reach level).Stops (t :: more)) (joins : t.kind.joint? = some joint) :
    e.endsOpen = false := by
  cases opens : e.endsOpen with
  | false => rfl
  | true =>
    have above := Level.stops_cons.mp stops joint joins
    simp only [reach, opens, if_true] at above
    exact absurd joint.rank_le_comma (Nat.not_le_of_lt above)

end Expr

namespace Level.Admits

variable {op : Token} {level : Level} {left right : Expr}

theorem tight_next (operator : op.kind.level? = some level) (admits : level.Admits left right) :
    right.level.rank ≤ level.next.rank := by
  have loose : level ≠ .primary := by rintro rfl; cases Level.joins_of_level? operator
  have next := Level.rank_next loose
  have tight := admits.tight
  omega

theorem stops_left (operator : op.kind.level? = some level) (admits : level.Admits left right)
    (more : List Token) : (left.reach level.next).Stops (op :: more) := by
  have loose : level ≠ .primary := by rintro rfl; cases Level.joins_of_level? operator
  have next := Level.rank_next loose
  rw [Expr.reach_eq (admits.left_closed operator), Level.stops_cons,
    Kind.joint?_of_level? operator]
  rintro _ ⟨⟩
  omega

theorem reach_join (operator : op.kind.level? = some level) (admits : level.Admits left right)
    (looser : Level) : (level.join op left right).reach looser = right.reach looser := by
  rw [Expr.reach, admits.endsOpen_join operator, Expr.reach]

end Level.Admits

namespace Grammar

theorem readExpr_primary_of_bar {t : Token} (bars : t.kind.foreign ∨ t.kind.isUnary)
    (rest : List Token) :
    readExpr .primary (t :: rest) = .fail .expectedExpression (t :: rest) := by
  obtain ⟨kind, lexeme, literal, line⟩ := t
  apply readExpr_primary_stray <;> cases kind <;>
    simp_all [Kind.foreign, Kind.isUnary, Expr.ofToken?, Kind.orphanLevel?]

theorem readStmt_of_native {t : Token} (native : t.kind.foreign = false) (more : List Token) :
    readStmt (t :: more) = readEnded .unendedExpression .expression (t :: more) := by
  have other : ∀ kind, kind.foreign → t.kind ≠ kind := by
    rintro kind foreign rfl
    rw [native] at foreign
    cases foreign
  apply readStmt_lone
  · exact ⟨other _ rfl, other _ rfl, other _ rfl⟩
  · exact ⟨other _ rfl, other _ rfl⟩

theorem readStmt_of_native_head {tokens : List Token}
    (native : ∀ t ∈ tokens.head?, t.kind.foreign = false) :
    readStmt tokens = readEnded .unendedExpression .expression tokens := by
  cases tokens with
  | nil => exact readStmt_nil
  | cons t more => exact readStmt_of_native (native t rfl) more

end Grammar

end Scriptlet
