import Scriptlet.Proofs.Syntax.Names
import Scriptlet.Proofs.Syntax.Parts

/-!
Programs with a hole in the place of one expression, at any depth of any statement. What is put
into the hole stands between the same tokens, and an expression that is no looser than the one
before, and does not stay open where that did not, can take its place in the grammar.
-/

namespace Scriptlet

open Terminal

/-- A node without one of its operands. -/
inductive Expr.Frame where
  | unary (op : Token)
  | binaryLeft (op : Token) (right : Expr)
  | binaryRight (op : Token) (left : Expr)
  | logicalLeft (op : Token) (right : Expr)
  | logicalRight (op : Token) (left : Expr)
  | inCondition (yes no : Expr)
  | inYes (condition no : Expr)
  | inNo (condition yes : Expr)
  | group
  | assign (name : Token)

namespace Expr

namespace Frame

def fill : Frame → Expr → Expr
  | unary op, e => .unary op e
  | binaryLeft op right, e => .binary op e right
  | binaryRight op left, e => .binary op left e
  | logicalLeft op right, e => .logical op e right
  | logicalRight op left, e => .logical op left e
  | inCondition yes no, e => .conditional e yes no
  | inYes condition no, e => .conditional condition e no
  | inNo condition yes, e => .conditional condition yes e
  | group, e => .group e
  | assign name, e => .assign name e

def front : Frame → List Terminal
  | unary op => [.kept op]
  | binaryRight op left | logicalRight op left => left.yield ++ [.kept op]
  | inYes condition _ => condition.yield ++ [.word .question]
  | inNo condition yes => condition.yield ++ .word .question :: yes.yield ++ [.word .colon]
  | group => [.word .leftParen]
  | assign name => [.kept name, .word .equal]
  | binaryLeft _ _ | logicalLeft _ _ | inCondition _ _ => []

def back : Frame → List Terminal
  | binaryLeft op right | logicalLeft op right => .kept op :: right.yield
  | inCondition yes no => .word .question :: yes.yield ++ .word .colon :: no.yield
  | inYes _ no => .word .colon :: no.yield
  | group => [.word .rightParen]
  | unary _ | binaryRight _ _ | logicalRight _ _ | inNo _ _ | assign _ => []

theorem yield_fill (f : Frame) (e : Expr) : (f.fill e).yield = f.front ++ e.yield ++ f.back := by
  cases f <;> simp [fill, front, back, yield]

end Frame

/-- The expression inside of the frames, the first of which is the innermost. -/
def within (frames : List Frame) (e : Expr) : Expr := frames.foldl (fun e f => f.fill e) e

theorem within_append (inner outer : List Frame) (e : Expr) :
    within (inner ++ outer) e = within outer (within inner e) := List.foldl_append

theorem yield_within (frames : List Frame) (e : Expr) : (within frames e).yield =
    frames.reverse.flatMap Frame.front ++ e.yield ++ frames.flatMap Frame.back := by
  induction frames generalizing e with
  | nil => simp [within]
  | cons f frames ih =>
    rw [within, List.foldl_cons, ← within, ih, Frame.yield_fill]
    simp

theorem within_of_mem {p e : Expr} (part : p ∈ e.parts) : ∃ frames, within frames p = e := by
  have outer (f : Frame) {inner : Expr} (found : ∃ frames, within frames p = inner) :
      ∃ frames, within frames p = f.fill inner := by
    obtain ⟨frames, rfl⟩ := found
    exact ⟨frames ++ [f], within_append frames [f] p⟩
  induction e with
  | string | number | bool | nil | var =>
    obtain rfl := List.mem_singleton.mp part
    exact ⟨[], rfl⟩
  | unary op operand ih =>
    rcases List.mem_cons.mp part with rfl | part
    · exact ⟨[], rfl⟩
    · exact outer (.unary op) (ih part)
  | binary op left right leftIH rightIH =>
    rcases List.mem_cons.mp part with rfl | part
    · exact ⟨[], rfl⟩
    rcases List.mem_append.mp part with part | part
    · exact outer (.binaryLeft op right) (leftIH part)
    · exact outer (.binaryRight op left) (rightIH part)
  | logical op left right leftIH rightIH =>
    rcases List.mem_cons.mp part with rfl | part
    · exact ⟨[], rfl⟩
    rcases List.mem_append.mp part with part | part
    · exact outer (.logicalLeft op right) (leftIH part)
    · exact outer (.logicalRight op left) (rightIH part)
  | conditional condition yes no conditionIH yesIH noIH =>
    rcases List.mem_cons.mp part with rfl | part
    · exact ⟨[], rfl⟩
    rcases List.mem_append.mp part with part | part
    · exact outer (.inCondition yes no) (conditionIH part)
    rcases List.mem_append.mp part with part | part
    · exact outer (.inYes condition no) (yesIH part)
    · exact outer (.inNo condition yes) (noIH part)
  | group inner ih =>
    rcases List.mem_cons.mp part with rfl | part
    · exact ⟨[], rfl⟩
    · exact outer .group (ih part)
  | assign name value ih =>
    rcases List.mem_cons.mp part with rfl | part
    · exact ⟨[], rfl⟩
    · exact outer (.assign name) (ih part)

/-- The first expression can stand wherever the second does. -/
structure Replaces (other e : Expr) : Prop where
  tight : other.level.rank ≤ e.level.rank
  closed : e.endsOpen = false → other.endsOpen = false
  canonical : e.Canonical → other.Canonical

namespace Replaces

variable {other e : Expr}

theorem group (e : Expr) : (Expr.group e).Replaces e :=
  ⟨Nat.zero_le _, fun _ => rfl, .group⟩

theorem admits_left {level : Level} {right : Expr} (h : other.Replaces e)
    (admits : level.Admits e right) : level.Admits other right :=
  ⟨Nat.le_trans h.tight admits.loose, admits.tight, fun comma => h.closed (admits.closed comma)⟩

theorem admits_right {level : Level} {left : Expr} (h : other.Replaces e)
    (admits : level.Admits left e) : level.Admits left other :=
  ⟨admits.loose, Nat.lt_of_le_of_lt h.tight admits.tight, admits.closed⟩

theorem primary (h : other.Replaces e) (tight : e.level = .primary) : other.level = .primary := by
  have least := h.tight
  rw [tight] at least
  have none : other.level.rank = 0 := Nat.le_zero.mp least
  cases same : other.level <;> first | rfl | simp [same, Level.rank] at none

theorem canonical_fill (h : other.Replaces e) {f : Frame} (canonical : (f.fill e).Canonical) :
    (f.fill other).Canonical := by
  cases f with
  | unary op =>
    cases canonical with
    | unary operator tight inner => exact .unary operator (h.primary tight) (h.canonical inner)
  | binaryLeft op right =>
    cases canonical with
    | binary operator plain admits first second =>
      exact .binary operator plain (h.admits_left admits) (h.canonical first) second
  | binaryRight op left =>
    cases canonical with
    | binary operator plain admits first second =>
      exact .binary operator plain (h.admits_right admits) first (h.canonical second)
  | logicalLeft op right =>
    cases canonical with
    | logical operator decides admits first second =>
      exact .logical operator decides (h.admits_left admits) (h.canonical first) second
  | logicalRight op left =>
    cases canonical with
    | logical operator decides admits first second =>
      exact .logical operator decides (h.admits_right admits) first (h.canonical second)
  | inCondition yes no =>
    cases canonical with
    | conditional tight test first second =>
      exact .conditional (Nat.le_trans h.tight tight) (h.canonical test) first second
  | inYes condition no =>
    cases canonical with
    | conditional tight test first second =>
      exact .conditional tight test (h.canonical first) second
  | inNo condition yes =>
    cases canonical with
    | conditional tight test first second =>
      exact .conditional tight test first (h.canonical second)
  | group =>
    cases canonical with
    | group inside => exact .group (h.canonical inside)
  | assign name =>
    cases canonical with
    | assign named tight given =>
      exact .assign named (Nat.le_trans h.tight tight) (h.canonical given)

/-- A node has its level from its operator, so only what ends it can make a difference. -/
theorem fill (h : other.Replaces e) (f : Frame) : (f.fill other).Replaces (f.fill e) := by
  refine ⟨?tight, ?closed, h.canonical_fill⟩
  case tight => cases f <;> exact Nat.le_refl _
  case closed =>
    intro closed
    cases f with
    | binaryRight op left =>
      simp only [Frame.fill, endsOpen, Bool.and_eq_false_imp] at closed ⊢
      exact fun comma => h.closed (closed comma)
    | assign name => exact h.closed closed
    | _ => exact closed

theorem within (h : other.Replaces e) (frames : List Frame) :
    (within frames other).Replaces (within frames e) := by
  induction frames generalizing other e with
  | nil => exact h
  | cons f frames ih => exact ih (h.fill f)

end Replaces

end Expr

/-- A statement without one of its own expressions. -/
inductive Stmt.Holder where
  | expression
  | print
  | declare (name : Token)
  | branch (yes : Stmt) (no : Option Stmt)
  | loop (body : Stmt)

/-- A statement without one of the statements that it is made of. -/
inductive Stmt.Frame where
  | block (before after : List Stmt)
  | inYes (condition : Expr) (no : Option Stmt)
  | inNo (condition : Expr) (yes : Stmt)
  | loop (condition : Expr)

namespace Stmt

def yieldElse : Option Stmt → List Terminal
  | none => []
  | some no => .word .kwElse :: no.yield

theorem yield_branch (condition : Expr) (yes : Stmt) (no : Option Stmt) :
    (branch condition yes no).yield = .word .kwIf :: .word .leftParen ::
      (condition.yield ++ .word .rightParen :: (yes.yield ++ yieldElse no)) := by
  cases no <;> simp [yield, yieldElse]

namespace Holder

def fill : Holder → Expr → Stmt
  | expression, e => .expression e
  | print, e => .print e
  | declare name, e => .declare name (some e)
  | branch yes no, e => .branch e yes no
  | loop body, e => .loop e body

def front : Holder → List Terminal
  | expression => []
  | print => [.word .kwPrint]
  | declare name => [.word .kwVar, .kept name, .word .equal]
  | branch _ _ => [.word .kwIf, .word .leftParen]
  | loop _ => [.word .kwWhile, .word .leftParen]

def back : Holder → List Terminal
  | expression | print | declare _ => [.word .semicolon]
  | branch yes no => .word .rightParen :: (yes.yield ++ yieldElse no)
  | loop body => .word .rightParen :: body.yield

theorem yield_fill (h : Holder) (e : Expr) : (h.fill e).yield = h.front ++ e.yield ++ h.back := by
  cases h <;> simp [fill, front, back, yield, yield_branch]

end Holder

namespace Frame

def fill : Frame → Stmt → Stmt
  | block before after, s => .block (before ++ s :: after)
  | inYes condition no, s => .branch condition s no
  | inNo condition yes, s => .branch condition yes (some s)
  | loop condition, s => .loop condition s

def front : Frame → List Terminal
  | block before _ => .word .leftBrace :: yieldAll before
  | inYes condition _ =>
    .word .kwIf :: .word .leftParen :: (condition.yield ++ [.word .rightParen])
  | inNo condition yes =>
    .word .kwIf :: .word .leftParen ::
      (condition.yield ++ .word .rightParen :: (yes.yield ++ [.word .kwElse]))
  | loop condition => .word .kwWhile :: .word .leftParen :: (condition.yield ++ [.word .rightParen])

def back : Frame → List Terminal
  | block _ after => yieldAll after ++ [.word .rightBrace]
  | inYes _ no => yieldElse no
  | inNo _ _ | loop _ => []

theorem yield_fill (f : Frame) (s : Stmt) : (f.fill s).yield = f.front ++ s.yield ++ f.back := by
  cases f <;> simp [fill, front, back, yield, yield_branch, yieldElse, yieldAll_append, yieldAll]

end Frame

def within (frames : List Frame) (s : Stmt) : Stmt := frames.foldl (fun s f => f.fill s) s

theorem within_append (inner outer : List Frame) (s : Stmt) :
    within (inner ++ outer) s = within outer (within inner s) := List.foldl_append

theorem yield_within (frames : List Frame) (s : Stmt) : (within frames s).yield =
    frames.reverse.flatMap Frame.front ++ s.yield ++ frames.flatMap Frame.back := by
  induction frames generalizing s with
  | nil => simp [within]
  | cons f frames ih =>
    rw [within, List.foldl_cons, ← within, ih, Frame.yield_fill]
    simp

/-- The first statement can stand wherever the second does. -/
structure Replaces (other s : Stmt) : Prop where
  closed : s.endsOpen = false → other.endsOpen = false
  canonical : s.Canonical → other.Canonical

namespace Replaces

theorem holder {other e : Expr} (h : other.Replaces e) (holder : Holder) :
    (holder.fill other).Replaces (holder.fill e) := by
  refine ⟨?closed, fun canonical => ?canonical⟩
  case closed =>
    cases holder with
    | branch yes no => cases no <;> exact id
    | _ => exact id
  case canonical =>
    cases holder with
    | expression => cases canonical with | expression inner => exact .expression (h.canonical inner)
    | print => cases canonical with | print inner => exact .print (h.canonical inner)
    | declare name =>
      cases canonical with | declare named inner => exact .declare named (h.canonical inner)
    | branch yes no =>
      cases canonical with
      | branch test first => exact .branch (h.canonical test) first
      | branches test first closed second =>
        exact .branches (h.canonical test) first closed second
    | loop body => cases canonical with | loop test inside => exact .loop (h.canonical test) inside

variable {other s : Stmt}

theorem all (h : other.Replaces s) {before after : List Stmt}
    (canonical : ∀ t ∈ before ++ s :: after, t.Canonical) :
    ∀ t ∈ before ++ other :: after, t.Canonical := by
  rw [List.forall_mem_append, List.forall_mem_cons] at canonical ⊢
  obtain ⟨first, here, second⟩ := canonical
  exact ⟨first, h.canonical here, second⟩

theorem fill (h : other.Replaces s) (f : Frame) : (f.fill other).Replaces (f.fill s) := by
  refine ⟨?closed, fun canonical => ?canonical⟩
  case closed =>
    cases f with
    | block => exact id
    | inYes condition no => cases no <;> exact id
    | inNo condition yes => exact h.closed
    | loop condition => exact h.closed
  case canonical =>
    cases f with
    | block before after => cases canonical with | block inside => exact .block (h.all inside)
    | inYes condition no =>
      cases canonical with
      | branch test first => exact .branch test (h.canonical first)
      | branches test first closed second =>
        exact .branches test (h.canonical first) (h.closed closed) second
    | inNo condition yes =>
      cases canonical with
      | branches test first closed second =>
        exact .branches test first closed (h.canonical second)
    | loop condition =>
      cases canonical with
      | loop test inside => exact .loop test (h.canonical inside)

theorem within (h : other.Replaces s) (frames : List Frame) :
    (within frames other).Replaces (within frames s) := by
  induction frames generalizing other s with
  | nil => exact h
  | cons f frames ih => exact ih (h.fill f)

end Replaces

end Stmt

/-- A program without one of its expressions. The frames are listed from the innermost one. -/
structure Hole where
  before : List Stmt
  outer : List Stmt.Frame
  holder : Stmt.Holder
  inner : List Expr.Frame
  after : List Stmt

namespace Hole

variable (hole : Hole)

def statement (e : Expr) : Stmt := Stmt.within hole.outer (hole.holder.fill (e.within hole.inner))

def fill (e : Expr) : List Stmt := hole.before ++ hole.statement e :: hole.after

def front : List Terminal :=
  Stmt.yieldAll hole.before ++ (hole.outer.reverse.flatMap Stmt.Frame.front ++
    (hole.holder.front ++ hole.inner.reverse.flatMap Expr.Frame.front))

def back : List Terminal :=
  hole.inner.flatMap Expr.Frame.back ++ (hole.holder.back ++
    (hole.outer.flatMap Stmt.Frame.back ++ Stmt.yieldAll hole.after))

theorem yieldAll_fill (e : Expr) :
    Stmt.yieldAll (hole.fill e) = hole.front ++ (e.yield ++ hole.back) := by
  simp only [fill, statement, front, back, Stmt.yieldAll_append, Stmt.yieldAll, Stmt.yield_within,
    Stmt.Holder.yield_fill, Expr.yield_within, List.append_assoc]

theorem canonical_fill {hole : Hole} {other e : Expr} (h : other.Replaces e)
    (canonical : ∀ s ∈ hole.fill e, s.Canonical) : ∀ s ∈ hole.fill other, s.Canonical :=
  Stmt.Replaces.all ((Stmt.Replaces.holder (h.within hole.inner) hole.holder).within hole.outer)
    canonical

theorem exists_statement {p : Expr} (s : Stmt) (part : p ∈ s.parts) :
    ∃ hole : Hole, hole.statement p = s := by
  have further (f : Stmt.Frame) {s : Stmt} (found : ∃ hole : Hole, hole.statement p = s) :
      ∃ hole : Hole, hole.statement p = f.fill s := by
    obtain ⟨hole, rfl⟩ := found
    exact ⟨{ hole with outer := hole.outer ++ [f] }, Stmt.within_append hole.outer [f] _⟩
  have own (holder : Stmt.Holder) {e : Expr} (part : p ∈ e.parts) :
      ∃ hole : Hole, hole.statement p = holder.fill e := by
    obtain ⟨inner, rfl⟩ := Expr.within_of_mem part
    exact ⟨⟨[], [], holder, inner, []⟩, rfl⟩
  induction s with
  | expression e => exact own .expression part
  | print e => exact own .print part
  | declare name initializer =>
    cases initializer with
    | none => cases part
    | some e => exact own (.declare name) part
  | block body ih =>
    obtain ⟨s, member, inside⟩ := Stmt.mem_partsAll.mp part
    obtain ⟨before, after, rfl⟩ := List.append_of_mem member
    exact further (.block before after) (ih s member inside)
  | branch condition yes no yesIH noIH =>
    cases no with
    | none =>
      rcases List.mem_append.mp part with part | part
      · exact own (.branch yes none) part
      · exact further (.inYes condition none) (yesIH part)
    | some no =>
      rcases List.mem_append.mp part with part | part
      · exact own (.branch yes (some no)) part
      rcases List.mem_append.mp part with part | part
      · exact further (.inYes condition (some no)) (yesIH part)
      · exact further (.inNo condition yes) (noIH no rfl part)
  | loop condition body ih =>
    rcases List.mem_append.mp part with part | part
    · exact own (.loop body) part
    · exact further (.loop condition) (ih part)

theorem exists_fill {p : Expr} {statements : List Stmt} (part : p ∈ Stmt.partsAll statements) :
    ∃ hole : Hole, hole.fill p = statements := by
  obtain ⟨s, member, inside⟩ := Stmt.mem_partsAll.mp part
  obtain ⟨before, after, rfl⟩ := List.append_of_mem member
  obtain ⟨hole, rfl⟩ := exists_statement s inside
  exact ⟨{ hole with before := before, after := after }, rfl⟩

end Hole

end Scriptlet
