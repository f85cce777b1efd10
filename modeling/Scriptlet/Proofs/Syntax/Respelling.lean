import Scriptlet.Proofs.Syntax.Canonical
import Scriptlet.Proofs.Syntax.Names
import Scriptlet.Proofs.Syntax.Tokens

namespace Scriptlet

/-- A change of the lexemes and lines of tokens. -/
structure Respelling where
  apply : Token → Token
  kind_apply : ∀ t, (apply t).kind = t.kind
  literal_apply : ∀ t, (apply t).literal = t.literal

attribute [simp] Respelling.kind_apply Respelling.literal_apply

namespace Respelling

def lines (move : Nat → Nat) : Respelling where
  apply t := { t with line := move t.line }
  kind_apply _ := rfl
  literal_apply _ := rfl

end Respelling

variable (r : Respelling)

namespace Terminal

def respelled : Terminal → Terminal
  | kept t => kept (r.apply t)
  | item => item

variable {r}

theorem Fits.respelled {item : Terminal} {t : Token} (fits : item.Fits t) :
    (item.respelled r).Fits (r.apply t) := by
  cases item with
  | word kind => exact (r.kind_apply t).trans fits
  | number x => exact ⟨(r.kind_apply t).trans fits.1, (r.literal_apply t).trans fits.2⟩
  | string s => exact ⟨(r.kind_apply t).trans fits.1, (r.literal_apply t).trans fits.2⟩
  | kept known => exact congrArg r.apply fits

theorem Spell.respelled {items : List Terminal} {tokens : List Token} (h : Spell items tokens) :
    Spell (items.map (Terminal.respelled r)) (tokens.map r.apply) := by
  induction h with
  | nil => exact .nil
  | cons fits _ ih => exact .cons fits.respelled ih

end Terminal

namespace Expr

abbrev respelled (e : Expr) : Expr := e.mapTokens r.apply r.apply

@[simp] theorem level_respelled (e : Expr) : (e.respelled r).level = e.level := by
  cases e <;> simp [mapTokens, level]

@[simp] theorem endsOpen_respelled (e : Expr) : (e.respelled r).endsOpen = e.endsOpen := by
  induction e <;> simp_all [mapTokens, endsOpen]

theorem join_respelled (level : Level) (op : Token) (left right : Expr) :
    (level.join op left right).respelled r =
      level.join (r.apply op) (left.respelled r) (right.respelled r) := by
  cases level <;> rfl

theorem yield_respelled (e : Expr) :
    (e.respelled r).yield = e.yield.map (Terminal.respelled r) := by
  induction e <;> simp_all [mapTokens, yield, Terminal.respelled]

variable {r}

theorem admits_respelled {level : Level} {left right : Expr} (admits : level.Admits left right) :
    level.Admits (left.respelled r) (right.respelled r) := by
  obtain ⟨loose, tight, closed⟩ := admits
  exact ⟨by rwa [level_respelled], by rwa [level_respelled], by rwa [endsOpen_respelled]⟩

theorem Canonical.respelled {e : Expr} (canonical : e.Canonical) : (e.respelled r).Canonical := by
  induction canonical with
  | string s => exact .string s
  | number x => exact .number x
  | bool b => exact .bool b
  | nil => exact .nil
  | unary operator tight _ ih => exact .unary (by simpa using operator) (by simpa using tight) ih
  | binary operator plain admits _ _ first second =>
    exact .binary (by simpa using operator) plain (admits_respelled admits) first second
  | logical operator decides admits _ _ first second =>
    exact .logical (by simpa using operator) decides (admits_respelled admits) first second
  | conditional tight _ _ _ test first second =>
    exact .conditional (by simpa using tight) test first second
  | group _ ih => exact .group ih
  | var named => exact .var (by simpa using named)
  | assign named tight _ ih => exact .assign (by simpa using named) (by simpa using tight) ih

end Expr

namespace Stmt

abbrev respelled (s : Stmt) : Stmt := s.mapTokens r.apply r.apply

@[simp] theorem endsOpen_respelled (s : Stmt) : (s.respelled r).endsOpen = s.endsOpen := by
  induction s with
  | declare name initializer => cases initializer <;> rfl
  | branch condition yes no yesIH noIH =>
    cases no with
    | none => rfl
    | some no => exact noIH no rfl
  | loop condition body ih => exact ih
  | _ => rfl

theorem yieldAll_of_each {body : List Stmt}
    (each : ∀ s ∈ body, (s.respelled r).yield = s.yield.map (Terminal.respelled r)) :
    yieldAll (body.map (respelled r)) = (yieldAll body).map (Terminal.respelled r) := by
  induction body with
  | nil => rfl
  | cons s rest ih =>
    have others := ih fun t member => each t (List.mem_cons_of_mem s member)
    simp only [List.map_cons, yieldAll, List.map_append, others, each s List.mem_cons_self]

theorem yield_respelled (s : Stmt) :
    (s.respelled r).yield = s.yield.map (Terminal.respelled r) := by
  induction s with
  | expression e | print e =>
    simp [mapTokens, yield, Expr.yield_respelled, Terminal.respelled]
  | declare name initializer =>
    cases initializer <;> simp [mapTokens, yield, Expr.yield_respelled, Terminal.respelled]
  | block body ih =>
    simp [mapTokens, mapTokensAll_eq_map, yield, yieldAll_of_each r ih, Terminal.respelled]
  | branch condition yes no yesIH noIH =>
    cases no with
    | none => simp [mapTokens, yield, Expr.yield_respelled, yesIH, Terminal.respelled]
    | some no =>
      simp [mapTokens, yield, Expr.yield_respelled, yesIH, noIH no rfl, Terminal.respelled]
  | loop condition body ih =>
    simp [mapTokens, yield, Expr.yield_respelled, ih, Terminal.respelled]

theorem yieldAll_respelled (body : List Stmt) :
    yieldAll (body.map (respelled r)) = (yieldAll body).map (Terminal.respelled r) :=
  yieldAll_of_each r fun s _ => s.yield_respelled r

variable {r}

theorem Canonical.respelled {s : Stmt} (canonical : s.Canonical) : (s.respelled r).Canonical := by
  induction canonical with
  | expression inner => exact .expression inner.respelled
  | print inner => exact .print inner.respelled
  | bare named => exact .bare (by simpa using named)
  | declare named inner => exact .declare (by simpa using named) inner.respelled
  | block _ ih =>
    rw [Stmt.respelled, mapTokens, mapTokensAll_eq_map]
    exact .block (List.forall_mem_map.mpr ih)
  | branch test _ first => exact .branch test.respelled first
  | branches test _ closed _ first second =>
    exact .branches test.respelled first (by simpa using closed) second
  | loop test _ inside => exact .loop test.respelled inside

end Stmt

end Scriptlet
