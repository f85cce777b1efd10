import Mathlib.Logic.Function.Iterate
import Scriptlet.Proofs.Run.Resolved

namespace Scriptlet

open Run

namespace Env

variable {x y : String} {v w : Value} {env after : Env} {nearer outer : List Scope} {owner : Scope}

/-- Enters one scope after the other, and binds names in each. -/
def enterAll (env : Env) (inner : List Scope) : Env :=
  inner.foldl (fun env bindings => bindings.foldl (fun env (x, v) => env.define x v) env.enter) env

theorem get?_define_of_ne (env : Env) (v : Value) (other : y ≠ x) :
    (env.define x v).get? y = env.get? y := by
  simp only [get?, scopes, define, List.findSome?_cons, Scope.get?_set_of_ne _ v other]

theorem get?_enter (env : Env) (x : String) : env.enter.get? x = env.get? x := rfl

theorem get?_defineAll {bindings : Scope} (other : ∀ b ∈ bindings, b.1 ≠ x) :
    (bindings.foldl (fun env (x, v) => env.define x v) env).get? x = env.get? x := by
  induction bindings generalizing env with
  | nil => rfl
  | cons b rest ih =>
    obtain ⟨here, behind⟩ := List.forall_mem_cons.mp other
    rw [List.foldl_cons, ih behind, get?_define_of_ne env b.2 here.symm]

theorem get?_enterAll {inner : List Scope} (other : ∀ scope ∈ inner, ∀ b ∈ scope, b.1 ≠ x) :
    (env.enterAll inner).get? x = env.get? x := by
  unfold enterAll
  induction inner generalizing env with
  | nil => rfl
  | cons scope rest ih =>
    obtain ⟨here, behind⟩ := List.forall_mem_cons.mp other
    rw [List.foldl_cons, ih behind, get?_defineAll here, get?_enter]

theorem scopes_exits {k : Nat} (inner : k < env.depth) :
    (exit^[k] env).scopes = env.scopes.drop k := by
  induction k generalizing env with
  | zero => rfl
  | succ k ih =>
    obtain ⟨innermost, enclosing⟩ := env
    cases enclosing with
    | nil => simp [depth, scopes] at inner
    | cons scope rest =>
      rw [Function.iterate_succ_apply]
      exact ih (Nat.lt_of_succ_lt_succ inner)

/-- The chain of scopes, cut at the nearest one that binds the name. -/
structure Owned (env : Env) (x : String) (nearer : List Scope) (owner : Scope)
    (outer : List Scope) : Prop where
  chain : env.scopes = nearer ++ owner :: outer
  unbound : ∀ scope ∈ nearer, scope.get? x = none
  bound : owner.Binds x

theorem exists_owned (found : env.get? x = some w) :
    ∃ nearer owner outer, env.Owned x nearer owner outer ∧ owner.get? x = some w := by
  obtain ⟨nearer, owner, outer, chain, here, unbound⟩ := List.findSome?_eq_some_iff.mp found
  exact ⟨nearer, owner, outer, ⟨chain, unbound, Option.isSome_of_eq_some here⟩, here⟩

theorem update?_owner (unbound : ∀ scope ∈ nearer, scope.get? x = none) (bound : owner.Binds x)
    (v : Value) (outer : List Scope) :
    update? x v (nearer ++ owner :: outer) = some (nearer ++ owner.set x v :: outer) := by
  induction nearer with
  | nil => exact if_pos bound
  | cons scope rest ih =>
    obtain ⟨here, behind⟩ := List.forall_mem_cons.mp unbound
    rw [List.cons_append, update?, here, ih behind]
    rfl

namespace Owned

theorem get?_eq (h : env.Owned x nearer owner outer) : env.get? x = owner.get? x := by
  obtain ⟨v, here⟩ := Option.isSome_iff_exists.mp h.bound
  rw [here]
  exact List.findSome?_eq_some_iff.mpr ⟨nearer, owner, outer, h.chain, here, h.unbound⟩

theorem assign (h : env.Owned x nearer owner outer) (v : Value) :
    ∃ after, env.assign? x v = some after ∧ after.Owned x nearer (owner.set x v) outer := by
  have updated := scopes_assign? env x v
  rw [h.chain, update?_owner h.unbound h.bound] at updated
  obtain ⟨after, assigned, chain⟩ := Option.map_eq_some_iff.mp updated
  exact ⟨after, assigned, chain, h.unbound, Scope.binds_set.mpr (.inl rfl)⟩

theorem binding_eq (h : env.Owned x nearer owner outer) (y : String) :
    env.binding nearer.length y = owner.get? y := by
  rw [binding, h.chain, List.getElem?_append_right (Nat.le_refl _), Nat.sub_self]
  rfl

theorem not_shadowed (h : env.Owned x nearer owner outer) : ¬ env.Shadowed nearer.length x := by
  rintro ⟨j, before, bound⟩
  rw [binding, h.chain, List.getElem?_append_left before, List.getElem?_eq_getElem before,
    Option.bind_some, h.unbound _ (List.getElem_mem before)] at bound
  cases bound

theorem binding_elsewhere {other : Scope} (h : env.Owned x nearer owner outer)
    (k : after.Owned x nearer other outer) {j : Nat} (elsewhere : j ≠ nearer.length)
    (y : String) : after.binding j y = env.binding j y := by
  have same : ∀ scope : Scope, (nearer ++ scope :: outer)[j]? =
      if j < nearer.length then nearer[j]? else outer[j - nearer.length - 1]? := by
    intro scope
    split
    case isTrue before => exact List.getElem?_append_left before
    case isFalse behind =>
      have further : j - nearer.length ≠ 0 := by omega
      rw [List.getElem?_append_right (by omega), List.getElem?_cons, if_neg further]
  rw [binding, binding, h.chain, k.chain, same, same]

theorem exits (h : env.Owned x nearer owner outer) {k : Nat} (within : k ≤ nearer.length) :
    (exit^[k] env).Owned x (nearer.drop k) owner outer := by
  have inner : k < env.depth := by
    rw [depth, h.chain, List.length_append, List.length_cons]
    omega
  refine ⟨?_, fun scope member => h.unbound scope (List.mem_of_mem_drop member), h.bound⟩
  rw [scopes_exits inner, h.chain, List.drop_append_of_le_length within]

end Owned

theorem read_of_get? {name : Token} (found : env.get? name.lexeme = some v) :
    env.read name = .ok v := by rw [read, found]

theorem get?_of_read {name : Token} (found : env.read name = .ok v) :
    env.get? name.lexeme = some v := by
  unfold read at found
  split at found
  · cases found
    assumption
  · cases found

/-- Assigns one value after the other. Where a name has no binding nothing happens. -/
def writeAll (env : Env) (changes : List (Token × Value)) : Env :=
  changes.foldl (fun env (name, v) => (write name v env).2) env

theorem keeps_writeAll (env : Env) (changes : List (Token × Value)) :
    env.Keeps [] (env.writeAll changes) := by
  unfold writeAll
  induction changes generalizing env with
  | nil => exact refl_of (Keeps []) env
  | cons change rest ih =>
    exact trans_of (Keeps []) (moves_write change.1 change.2 env) (ih _)

/-- An assignment succeeds exactly where a read does. It then gives the binding that was read the
new value and changes no other one, shadowed or not, so that the value is read back, also from
scopes further in that do not bind the name, and further out down to the owner of the binding. Where
the read fails, the assignment fails with the same error and leaves the chain as it was. However
many assignments there are, each scope binds the same names afterwards. -/
theorem write_resolved (env : Env) (name : Token) (v : Value) :
    (match env.read name with
      | .ok w => ∃ i after, write name v env = (.ok v, after) ∧
          env.binding i name.lexeme = some w ∧ ¬ env.Shadowed i name.lexeme ∧
          after.depth = env.depth ∧
          (∀ j x, after.binding j x =
            if j = i ∧ x = name.lexeme then some v else env.binding j x) ∧
          ∀ k ≤ i, ∀ inner : List Scope, (∀ scope ∈ inner, ∀ b ∈ scope, b.1 ≠ name.lexeme) →
            ((exit^[k] after).enterAll inner).read name = .ok v
      | .error stop => stop = .error (.undefinedVariable name.lexeme name.line) ∧
          write name v env = (.error stop, env)) ∧
      ∀ changes, env.Keeps [] (env.writeAll changes) := by
  refine ⟨?_, env.keeps_writeAll⟩
  split
  case h_1 w found =>
    obtain ⟨nearer, owner, outer, owned, here⟩ := exists_owned (get?_of_read found)
    obtain ⟨after, assigned, changed⟩ := owned.assign v
    refine ⟨nearer.length, after, ?_, (owned.binding_eq _).trans here, owned.not_shadowed,
      (keeps_assign? assigned).depth_eq, fun j x => ?_, fun k within inner other => ?_⟩
    · simp only [write, assigned]
    · by_cases elsewhere : j = nearer.length
      · subst elsewhere
        rw [changed.binding_eq, owned.binding_eq]
        by_cases same : x = name.lexeme
        · simp [same, Scope.get?_set_self]
        · simp [same, Scope.get?_set_of_ne]
      · simp [elsewhere, owned.binding_elsewhere changed elsewhere]
    · apply read_of_get?
      rw [get?_enterAll other, (changed.exits within).get?_eq, Scope.get?_set_self]
  case h_2 stop failed =>
    have unbound : env.get? name.lexeme = none := by
      cases found : env.get? name.lexeme with
      | none => rfl
      | some w => simp [read, found] at failed
    have unassigned : env.assign? name.lexeme v = none := by
      rw [← Option.not_isSome_iff_eq_none, isSome_assign?, unbound]
      simp
    have cause : stop = .error (.undefinedVariable name.lexeme name.line) := by
      simpa [read, unbound] using failed.symm
    exact ⟨cause, by simp only [write, unassigned, cause]⟩

example :
    let b : Token := ⟨.name, "b", none, 1⟩
    let after := (write b .nil ⟨[("a", .nil)], [[("b", .bool true)], [("b", .bool false)]]⟩).2
    after.read b = .ok .nil ∧ (exit^[1] after).read b = .ok .nil ∧
      (exit^[2] after).read b = .ok (.bool false) := ⟨rfl, rfl, rfl⟩

end Env

end Scriptlet
