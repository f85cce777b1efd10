import Scriptlet.Proofs.Syntax.Yield

/-!
The trees that the grammar writes down: each operand is as tight as its place asks for, and
nothing that could be read on stands open before a comma or an `else`.
-/

namespace Scriptlet

def Level.isLogical : Level → Bool
  | or | and => true
  | _ => false

namespace Expr

/-- The level of a tree; an operator that joins nothing counts as a comma. -/
def level : Expr → Level
  | unary _ _ => .unary
  | binary op _ _ | logical op _ _ => op.kind.level?.getD .comma
  | conditional _ _ _ => .conditional
  | assign _ _ => .assignment
  | _ => .primary

/-- Whether the last thing in a tree is the `no` branch of a conditional: it takes in whatever
operator comes next. -/
def endsOpen : Expr → Bool
  | conditional _ _ _ => true
  | assign _ value => value.endsOpen
  | binary op _ right => op.kind = .comma && right.endsOpen
  | _ => false

end Expr

/-- What the operands of an operator of the level have to be. -/
structure Level.Admits (level : Level) (left right : Expr) : Prop where
  loose : left.level.rank ≤ level.rank
  tight : right.level.rank < level.rank
  closed : level = .comma → left.endsOpen = false

inductive Expr.Canonical : Expr → Prop where
  | string (s : String) : Canonical (.string s)
  | number (x : Float) : Canonical (.number x)
  | bool (b : Bool) : Canonical (.bool b)
  | nil : Canonical .nil
  | unary {op : Token} {operand : Expr} (operator : op.kind.isUnary)
    (tight : operand.level = .primary) (inner : Canonical operand) : Canonical (.unary op operand)
  | binary {op : Token} {left right : Expr} {level : Level} (operator : op.kind.level? = some level)
    (plain : level.isLogical = false) (admits : level.Admits left right)
    (first : Canonical left) (second : Canonical right) : Canonical (.binary op left right)
  | logical {op : Token} {left right : Expr} {level : Level}
    (operator : op.kind.level? = some level) (decides : level.isLogical)
    (admits : level.Admits left right) (first : Canonical left) (second : Canonical right) :
    Canonical (.logical op left right)
  | conditional {condition yes no : Expr} (tight : condition.level.rank ≤ Level.or.rank)
    (test : Canonical condition) (first : Canonical yes) (second : Canonical no) :
    Canonical (.conditional condition yes no)
  | group {inner : Expr} (inside : Canonical inner) : Canonical (.group inner)
  | var {name : Token} (named : name.kind = .name) : Canonical (.var name)
  | assign {name : Token} {value : Expr} (named : name.kind = .name)
    (tight : value.level.rank ≤ Level.assignment.rank) (given : Canonical value) :
    Canonical (.assign name value)

/-- Whether the last thing in a statement is a branch without an `else`: it takes in an `else`
that comes next. -/
def Stmt.endsOpen : Stmt → Bool
  | .branch _ _ none => true
  | .branch _ _ (some no) => no.endsOpen
  | .loop _ body => body.endsOpen
  | _ => false

inductive Stmt.Canonical : Stmt → Prop where
  | expression {e : Expr} (inner : e.Canonical) : Canonical (.expression e)
  | print {e : Expr} (inner : e.Canonical) : Canonical (.print e)
  | bare {name : Token} (named : name.kind = .name) : Canonical (.declare name none)
  | declare {name : Token} {e : Expr} (named : name.kind = .name) (inner : e.Canonical) :
    Canonical (.declare name (some e))
  | block {body : List Stmt} (inside : ∀ s ∈ body, Canonical s) : Canonical (.block body)
  | branch {condition : Expr} {yes : Stmt} (test : condition.Canonical) (first : Canonical yes) :
    Canonical (.branch condition yes none)
  | branches {condition : Expr} {yes no : Stmt} (test : condition.Canonical)
    (first : Canonical yes) (closed : yes.endsOpen = false) (second : Canonical no) :
    Canonical (.branch condition yes (some no))
  | loop {condition : Expr} {body : Stmt} (test : condition.Canonical) (inside : Canonical body) :
    Canonical (.loop condition body)

theorem Expr.loose_of_endsOpen (e : Expr) (opens : e.endsOpen) :
    Level.conditional.rank ≤ e.level.rank := by
  cases e with
  | conditional => exact Nat.le_refl _
  | assign => simp [level, Level.rank]
  | binary op left right =>
    simp only [endsOpen, Bool.and_eq_true, decide_eq_true_eq] at opens
    simp [level, opens.1, Kind.level?, Level.rank]
  | _ => cases opens

namespace Level

theorem join_of_plain {level : Level} (plain : level.isLogical = false) (op : Token)
    (left right : Expr) : level.join op left right = .binary op left right := by
  cases level <;> first | rfl | cases plain

theorem join_of_logical {level : Level} (decides : level.isLogical) (op : Token)
    (left right : Expr) : level.join op left right = .logical op left right := by
  cases level <;> first | rfl | cases decides

theorem level_join {op : Token} {level : Level} (operator : op.kind.level? = some level)
    (left right : Expr) : (level.join op left right).level = level := by
  cases level <;> simp [join, Expr.level, operator]

theorem comma_of_loose {kind : Kind} {level : Level} (operator : kind.level? = some level)
    (loose : conditional.rank ≤ level.rank) : level = .comma := by
  cases kind <;> simp only [Kind.level?, reduceCtorEq, Option.some.injEq] at operator <;>
    subst operator <;> first | rfl | simp [rank] at loose

theorem comma_of_level? (kind : Kind) : kind.level? = some .comma ↔ kind = .comma := by
  cases kind <;> decide

theorem Admits.left_closed {kind : Kind} {level : Level} {left right : Expr}
    (operator : kind.level? = some level) (admits : level.Admits left right) :
    left.endsOpen = false := by
  cases opens : left.endsOpen with
  | false => rfl
  | true =>
    have loose := Nat.le_trans (left.loose_of_endsOpen opens) admits.loose
    rw [admits.closed (comma_of_loose operator loose)] at opens
    cases opens

theorem Admits.endsOpen_join {op : Token} {level : Level} {left right : Expr}
    (operator : op.kind.level? = some level) (admits : level.Admits left right) :
    (level.join op left right).endsOpen = right.endsOpen := by
  cases opens : right.endsOpen with
  | false => cases level <;> simp [join, Expr.endsOpen, opens]
  | true =>
    have loose := Nat.le_trans (right.loose_of_endsOpen opens) (Nat.le_of_lt admits.tight)
    have comma := comma_of_loose operator loose
    subst comma
    simp [join, Expr.endsOpen, opens, (comma_of_level? op.kind).mp operator]

end Level

namespace Expr

theorem Canonical.join {op : Token} {level : Level} {left right : Expr}
    (operator : op.kind.level? = some level) (admits : level.Admits left right)
    (first : left.Canonical) (second : right.Canonical) :
    (level.join op left right).Canonical := by
  cases decides : level.isLogical with
  | false =>
    rw [Level.join_of_plain decides]
    exact .binary operator decides admits first second
  | true =>
    rw [Level.join_of_logical decides]
    exact .logical operator decides admits first second

end Expr

/-- Kinds that no token of an expression has. -/
def Kind.foreign : Kind → Bool
  | leftBrace | rightBrace | dot | semicolon | kwClass | kwElse | kwFun | kwFor | kwIf | kwPrint
  | kwReturn | kwSuper | kwThis | kwVar | kwWhile | endMark => true
  | _ => false

theorem Kind.native_of_level? {kind : Kind} {level : Level} (h : kind.level? = some level) :
    kind.foreign = false := by
  cases kind <;> first | rfl | cases h

theorem Kind.native_of_isUnary {kind : Kind} (h : kind.isUnary) : kind.foreign = false := by
  cases kind <;> first | rfl | cases h

theorem Expr.Canonical.native {e : Expr} (canonical : e.Canonical) :
    ∀ item ∈ e.yield, item.kind.foreign = false := by
  induction canonical with
  | bool b => cases b <;> simp [yield, Terminal.kind, Kind.foreign]
  | unary operator _ _ ih =>
    simpa [yield, Terminal.kind, Kind.native_of_isUnary operator] using ih
  | binary operator _ _ _ _ first second | logical operator _ _ _ _ first second =>
    intro item member
    simp only [yield, List.mem_append, List.mem_cons] at member
    rcases member with member | rfl | member
    · exact first item member
    · exact Kind.native_of_level? operator
    · exact second item member
  | conditional _ _ _ _ test first second =>
    intro item member
    simp only [yield, List.mem_append, List.mem_cons] at member
    rcases member with member | rfl | member | rfl | member
    · exact test item member
    · rfl
    · exact first item member
    · rfl
    · exact second item member
  | group _ ih =>
    intro item member
    simp only [yield, List.mem_append, List.mem_cons, List.not_mem_nil, or_false] at member
    rcases member with rfl | member | rfl
    · rfl
    · exact ih item member
    · rfl
  | var named => simp [yield, Terminal.kind, named, Kind.foreign]
  | assign named _ _ ih => simpa [yield, Terminal.kind, named, Kind.foreign] using ih
  | _ => simp [yield, Terminal.kind, Kind.foreign]

theorem Stmt.Canonical.head {s : Stmt} (canonical : s.Canonical) :
    ∃ item more, s.yield = item :: more ∧ item.kind ≠ .rightBrace ∧ item.kind ≠ .kwElse := by
  cases canonical with
  | @expression e inner =>
    obtain ⟨item, more, cut⟩ := List.exists_cons_of_ne_nil e.yield_ne_nil
    have native := inner.native item (by simp [cut])
    refine ⟨item, more ++ [.word .semicolon], by simp [yield, cut], ?_, ?_⟩ <;>
      (intro kind; rw [kind] at native; cases native)
  | _ => exact ⟨_, _, rfl, nofun, nofun⟩

theorem Expr.Canonical.unended {e : Expr} (canonical : e.Canonical) :
    ∀ item ∈ e.yield, item.kind ≠ .endMark := by
  intro item member kind
  have native := canonical.native item member
  rw [kind] at native
  cases native

theorem Stmt.Canonical.unended {s : Stmt} (canonical : s.Canonical) :
    ∀ item ∈ s.yield, item.kind ≠ .endMark := by
  induction canonical with
  | expression inner | print inner =>
    have clear := inner.unended
    simp only [yield, List.mem_append, List.mem_cons, List.not_mem_nil, or_false]
    grind [Terminal.kind]
  | bare named => simp [yield, Terminal.kind, named]
  | declare named inner =>
    have clear := inner.unended
    simp only [yield, List.mem_append, List.mem_cons, List.not_mem_nil, or_false]
    grind [Terminal.kind]
  | block _ ih =>
    simp only [yield, List.mem_append, List.mem_cons, List.not_mem_nil, or_false, mem_yieldAll]
    grind [Terminal.kind]
  | branch test _ ih | loop test _ ih =>
    have clear := test.unended
    simp only [yield, List.mem_append, List.mem_cons]
    grind [Terminal.kind]
  | branches test _ _ _ first second =>
    have clear := test.unended
    simp only [yield, List.mem_append, List.mem_cons]
    grind [Terminal.kind]

end Scriptlet
