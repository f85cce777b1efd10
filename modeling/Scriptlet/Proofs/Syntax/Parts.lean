import Scriptlet.Proofs.Syntax.Canonical

namespace Scriptlet

def Kind.binaries : List Kind :=
  [comma, equalEqual, bangEqual, greater, greaterEqual, less, lessEqual, plus, minus, star, slash]

theorem Kind.mem_of_isUnary {kind : Kind} (operator : kind.isUnary) : kind ∈ [bang, minus] := by
  cases kind <;> first | decide | cases operator

theorem Kind.mem_binaries {kind : Kind} {level : Level} (operator : kind.level? = some level)
    (plain : level.isLogical = false) : kind ∈ binaries := by
  cases kind <;> first | decide | (cases operator <;> cases plain)

theorem Kind.mem_of_logical {kind : Kind} {level : Level} (operator : kind.level? = some level)
    (decides : level.isLogical) : kind ∈ [kwAnd, kwOr] := by
  cases kind <;> first | decide | (cases operator <;> cases decides)

namespace Expr

/-- The expression and all that it is made of. -/
def parts (e : Expr) : List Expr :=
  e :: match e with
    | unary _ inner | group inner | assign _ inner => inner.parts
    | binary _ left right | logical _ left right => left.parts ++ right.parts
    | conditional condition yes no => condition.parts ++ (yes.parts ++ no.parts)
    | string _ | number _ | bool _ | nil | var _ => []

theorem mem_parts_self (e : Expr) : e ∈ e.parts := by cases e <;> simp [parts]

/-- Whether the tokens that the topmost node keeps are of a kind that it has a meaning for. -/
def Fitting : Expr → Prop
  | unary op _ => op.kind ∈ [.bang, .minus]
  | binary op _ _ => op.kind ∈ Kind.binaries
  | logical op _ _ => op.kind ∈ [.kwAnd, .kwOr]
  | var name | assign name _ => name.kind = .name
  | _ => True

theorem Canonical.fitting {e : Expr} (canonical : e.Canonical) : e.Fitting := by
  cases canonical with
  | unary operator => exact Kind.mem_of_isUnary operator
  | binary operator plain => exact Kind.mem_binaries operator plain
  | logical operator decides => exact Kind.mem_of_logical operator decides
  | var named | assign named => exact named
  | _ => trivial

theorem Canonical.part {e : Expr} (canonical : e.Canonical) : ∀ p ∈ e.parts, p.Canonical := by
  induction canonical with
  | string s => exact List.forall_mem_singleton.mpr (.string s)
  | number x => exact List.forall_mem_singleton.mpr (.number x)
  | bool b => exact List.forall_mem_singleton.mpr (.bool b)
  | nil => exact List.forall_mem_singleton.mpr .nil
  | var named => exact List.forall_mem_singleton.mpr (.var named)
  | unary operator tight inner ih =>
    exact List.forall_mem_cons.mpr ⟨.unary operator tight inner, ih⟩
  | binary operator plain admits left right first second =>
    rw [parts, List.forall_mem_cons, List.forall_mem_append]
    exact ⟨.binary operator plain admits left right, first, second⟩
  | logical operator decides admits left right first second =>
    rw [parts, List.forall_mem_cons, List.forall_mem_append]
    exact ⟨.logical operator decides admits left right, first, second⟩
  | conditional tight condition yes no test first second =>
    rw [parts, List.forall_mem_cons, List.forall_mem_append, List.forall_mem_append]
    exact ⟨.conditional tight condition yes no, test, first, second⟩
  | group inside ih => exact List.forall_mem_cons.mpr ⟨.group inside, ih⟩
  | assign named tight given ih => exact List.forall_mem_cons.mpr ⟨.assign named tight given, ih⟩

end Expr

namespace Stmt

mutual

/-- All expressions in a statement and in the statements inside of it. -/
def parts : Stmt → List Expr
  | .expression e | .print e | .declare _ (some e) => e.parts
  | .declare _ none => []
  | .block body => partsAll body
  | .branch condition yes none => condition.parts ++ yes.parts
  | .branch condition yes (some no) => condition.parts ++ (yes.parts ++ no.parts)
  | .loop condition body => condition.parts ++ body.parts

def partsAll : List Stmt → List Expr
  | [] => []
  | s :: rest => s.parts ++ partsAll rest

end

mutual

/-- The name tokens of all declarations in a statement, also of those in blocks. -/
def declarations : Stmt → List Token
  | .expression _ | .print _ => []
  | .declare name _ => [name]
  | .block body => declarationsAll body
  | .branch _ yes none => yes.declarations
  | .branch _ yes (some no) => yes.declarations ++ no.declarations
  | .loop _ body => body.declarations

def declarationsAll : List Stmt → List Token
  | [] => []
  | s :: rest => s.declarations ++ declarationsAll rest

end

theorem mem_partsAll {e : Expr} {body : List Stmt} :
    e ∈ partsAll body ↔ ∃ s ∈ body, e ∈ s.parts := by
  induction body with
  | nil => simp [partsAll]
  | cons s rest ih => simp [partsAll, ih]

theorem mem_declarationsAll {name : Token} {body : List Stmt} :
    name ∈ declarationsAll body ↔ ∃ s ∈ body, name ∈ s.declarations := by
  induction body with
  | nil => simp [declarationsAll]
  | cons s rest ih => simp [declarationsAll, ih]

theorem Canonical.part {s : Stmt} (canonical : s.Canonical) : ∀ e ∈ s.parts, e.Canonical := by
  induction canonical with
  | expression inner | print inner | declare _ inner => exact inner.part
  | bare => exact nofun
  | block _ ih =>
    intro e member
    obtain ⟨s, inside, part⟩ := mem_partsAll.mp member
    exact ih s inside e part
  | branch test _ first => exact List.forall_mem_append.mpr ⟨test.part, first⟩
  | branches test _ _ _ first second =>
    exact List.forall_mem_append.mpr ⟨test.part, List.forall_mem_append.mpr ⟨first, second⟩⟩
  | loop test _ inside => exact List.forall_mem_append.mpr ⟨test.part, inside⟩

theorem Canonical.named {s : Stmt} (canonical : s.Canonical) :
    ∀ name ∈ s.declarations, name.kind = .name := by
  induction canonical with
  | expression | print => exact nofun
  | bare named | declare named _ => exact List.forall_mem_singleton.mpr named
  | block _ ih =>
    intro name member
    obtain ⟨s, inside, declared⟩ := mem_declarationsAll.mp member
    exact ih s inside name declared
  | branch _ _ first => exact first
  | branches _ _ _ _ first second => exact List.forall_mem_append.mpr ⟨first, second⟩
  | loop _ _ inside => exact inside

end Stmt

end Scriptlet
