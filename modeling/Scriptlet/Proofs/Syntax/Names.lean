import Scriptlet.Syntax.Basic

namespace Scriptlet

namespace Stmt

/-- Induction on statements, with a hypothesis for each statement of a block. -/
@[induction_eliminator]
theorem induction {P : Stmt → Prop} (expression : ∀ e, P (.expression e))
    (print : ∀ e, P (.print e)) (declare : ∀ name initializer, P (.declare name initializer))
    (block : ∀ body, (∀ s ∈ body, P s) → P (.block body))
    (branch : ∀ condition yes no, P yes → (∀ s ∈ no, P s) → P (.branch condition yes no))
    (loop : ∀ condition body, P body → P (.loop condition body)) (s : Stmt) : P s := by
  apply @Stmt.rec P (fun body => ∀ s ∈ body, P s) (fun no => ∀ s ∈ no, P s)
    expression print declare block branch loop
  · exact fun s member => absurd member List.not_mem_nil
  · intro head tail first others s member
    rcases List.mem_cons.mp member with rfl | member
    · exact first
    · exact others s member
  · exact fun s member => nomatch member
  · rintro s holds _ ⟨⟩
    exact holds

/-- Names that the statement declares outside of its blocks. -/
def declared : Stmt → List String
  | .expression _ | .print _ | .block _ => []
  | .declare name _ => [name.lexeme]
  | .branch _ yes none => yes.declared
  | .branch _ yes (some no) => yes.declared ++ no.declared
  | .loop _ body => body.declared

def declaredAll (statements : List Stmt) : List String := statements.flatMap declared

end Stmt

end Scriptlet
