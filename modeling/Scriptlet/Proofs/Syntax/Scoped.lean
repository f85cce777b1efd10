import Mathlib.Data.Set.Insert
import Scriptlet.Proofs.Syntax.Names

namespace Scriptlet

namespace Expr

/-- The names that an expression reads or assigns to. -/
def names : Expr → List String
  | var name => [name.lexeme]
  | assign name value => name.lexeme :: value.names
  | unary _ inner | group inner => inner.names
  | binary _ left right | logical _ left right => left.names ++ right.names
  | conditional condition yes no => condition.names ++ (yes.names ++ no.names)
  | string _ | number _ | bool _ | nil => []

def Scoped (known : Set String) (e : Expr) : Prop := ∀ x ∈ e.names, x ∈ known

end Expr

namespace Stmt

/-- What is known behind the statement in its own list. A declaration that is the branch of an `if`
or the body of a loop may not be run and counts for nothing. -/
def extend (known : Set String) : Stmt → Set String
  | .declare name _ => insert name.lexeme known
  | _ => known

mutual

/-- Every name that the statement reads or assigns to is known there. An initializer does not know
the name that it is for. -/
def Scoped (known : Set String) : Stmt → Prop
  | .expression e | .print e | .declare _ (some e) => e.Scoped known
  | .declare _ none => True
  | .block body => ScopedAll known body
  | .branch condition yes none => condition.Scoped known ∧ yes.Scoped known
  | .branch condition yes (some no) =>
    condition.Scoped known ∧ yes.Scoped known ∧ no.Scoped known
  | .loop condition body => condition.Scoped known ∧ body.Scoped known

def ScopedAll (known : Set String) : List Stmt → Prop
  | [] => True
  | s :: rest => s.Scoped known ∧ ScopedAll (s.extend known) rest

end

theorem subset_extend (known : Set String) (s : Stmt) : known ⊆ s.extend known := by
  cases s with
  | declare => exact Set.subset_insert _ _
  | _ => exact subset_rfl

theorem scopedAll_univ_of_each {body : List Stmt} (each : ∀ s ∈ body, s.Scoped Set.univ) :
    ScopedAll Set.univ body := by
  induction body with
  | nil => trivial
  | cons s rest ih =>
    rw [ScopedAll, Set.univ_subset_iff.mp (s.subset_extend Set.univ)]
    exact List.forall_mem_cons.mp each |>.imp_right ih

theorem scoped_univ (s : Stmt) : s.Scoped Set.univ := by
  induction s with
  | expression e | print e => exact fun x _ => Set.mem_univ x
  | declare name initializer =>
    cases initializer with
    | none => trivial
    | some e => exact fun x _ => Set.mem_univ x
  | block body ih => exact scopedAll_univ_of_each ih
  | branch condition yes no first second =>
    cases no with
    | none => exact ⟨fun x _ => Set.mem_univ x, first⟩
    | some no => exact ⟨fun x _ => Set.mem_univ x, first, second no rfl⟩
  | loop condition body ih => exact ⟨fun x _ => Set.mem_univ x, ih⟩

theorem scopedAll_univ (body : List Stmt) : ScopedAll Set.univ body :=
  scopedAll_univ_of_each fun s _ => s.scoped_univ

end Stmt

end Scriptlet
