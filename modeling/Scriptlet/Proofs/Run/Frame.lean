import Scriptlet.Proofs.Run.Scope

/-!
What a run leaves alone. A binding changes only if the tree assigns to its name and no scope
further in binds that name, or if it is in the innermost scope and the tree declares its name there.
-/

namespace Scriptlet

open Run

namespace Env

/-- What the scope `i` steps out of the innermost one binds a name to. -/
def binding (env : Env) (i : Nat) (x : String) : Option Value :=
  env.scopes[i]?.bind (Scope.get? x)

/-- Whether a scope further in binds the name. -/
def Shadowed (env : Env) (i : Nat) (x : String) : Prop := ∃ j < i, (env.binding j x).isSome

theorem binding_enter (env : Env) (i : Nat) (x : String) :
    env.enter.binding (i + 1) x = env.binding i x := rfl

theorem scopes_assign? (env : Env) (x : String) (v : Value) :
    (env.assign? x v).map scopes = update? x v env.scopes := by
  unfold assign? scopes
  rw [update?]
  split
  · rfl
  · simp [Function.comp_def]

theorem update?_elsewhere {x y : String} {v : Value} {scopes updated : List Scope}
    (h : update? x v scopes = some updated) {i : Nat}
    (nearer : y = x → ∃ j < i, (scopes[j]?.bind (Scope.get? x)).isSome) :
    updated[i]?.bind (Scope.get? y) = scopes[i]?.bind (Scope.get? y) := by
  induction scopes generalizing updated i with
  | nil => cases h
  | cons scope rest ih =>
    rw [update?] at h
    split at h
    case isTrue bound =>
      obtain rfl := Option.some.inj h
      cases i with
      | succ i => rfl
      | zero =>
        have other : y ≠ x := fun same => by
          obtain ⟨j, before, _⟩ := nearer same
          omega
        exact Scope.get?_set_of_ne scope v other
    case isFalse unbound =>
      obtain ⟨others, found, rfl⟩ := Option.map_eq_some_iff.mp h
      cases i with
      | zero => rfl
      | succ i =>
        apply ih found
        intro same
        obtain ⟨j, before, bound⟩ := nearer same
        cases j with
        | zero => exact absurd bound unbound
        | succ j => exact ⟨j, by omega, bound⟩

/-- The scopes are kept, and so is each binding of a name that is neither assigned to, unless the
binding is shadowed, nor declared in the innermost scope. -/
structure Frames (assigned : String → Prop) (names : List String) (before after : Env) :
    Prop where
  keeps : before.Keeps names after
  same : ∀ i x, (assigned x → before.Shadowed i x) → (i = 0 → x ∉ names) →
    after.binding i x = before.binding i x

theorem sameNames_at {scopes others : List Scope}
    (same : List.Forall₂ Scope.SameNames scopes others) (i : Nat) (x : String) :
    (others[i]?.bind (Scope.get? x)).isSome ↔ (scopes[i]?.bind (Scope.get? x)).isSome := by
  induction same generalizing i with
  | nil => rfl
  | cons head _ ih =>
    cases i with
    | zero => exact head x
    | succ i => exact ih i

theorem Keeps.bound_in {names : List String} {before after : Env} (h : before.Keeps names after)
    {i : Nat} {x : String} (bound : (before.binding i x).isSome) :
    (after.binding i x).isSome := by
  cases i with
  | zero => exact h.bound x bound
  | succ i => exact (sameNames_at h.enclosing i x).mpr bound

theorem Keeps.binding_exit {names : List String} {before after : Env}
    (h : before.enter.Keeps names after) (i : Nat) (x : String) :
    after.exit.binding i x = after.binding (i + 1) x := by
  obtain ⟨innermost, enclosing⟩ := after
  have chain : List.Forall₂ Scope.SameNames before.scopes enclosing := h.enclosing
  cases chain with
  | cons _ _ => rfl

namespace Frames

variable {assigned more : String → Prop} {names others : List String} {before after : Env}

instance : IsPreorder Env (Frames assigned names) where
  refl env := ⟨refl_of (Keeps names) env, fun _ _ _ _ => rfl⟩
  trans env between after first second := by
    constructor
    · exact trans_of (Keeps names) first.keeps second.keeps
    · intro i x unassigned undeclared
      have still : assigned x → between.Shadowed i x := fun given => by
        obtain ⟨j, nearer, bound⟩ := unassigned given
        exact ⟨j, nearer, first.keeps.bound_in bound⟩
      rw [second.same i x still undeclared, first.same i x unassigned undeclared]

theorem define (env : Env) (x : String) (v : Value) : env.Frames assigned [x] (env.define x v) := by
  refine ⟨Keeps.define env x v, fun i y _ undeclared => ?_⟩
  cases i with
  | zero => exact Scope.get?_set_of_ne env.innermost v (by simpa using undeclared)
  | succ i => rfl

theorem exit (h : before.enter.Frames assigned names after) :
    before.Frames assigned [] after.exit := by
  refine ⟨h.keeps.exit, fun i x unassigned _ => ?_⟩
  have further : assigned x → before.enter.Shadowed (i + 1) x := fun given => by
    obtain ⟨j, nearer, bound⟩ := unassigned given
    exact ⟨j + 1, by omega, bound⟩
  have outside : i + 1 = 0 → x ∉ names := by omega
  rw [h.keeps.binding_exit i x, h.same (i + 1) x further outside, binding_enter]

theorem mono (h : before.Frames assigned names after) (within : ∀ x, assigned x → more x)
    (among : names ⊆ others) : before.Frames more others after :=
  ⟨h.keeps.mono among, fun i x unassigned undeclared =>
    h.same i x (fun given => unassigned (within x given))
      fun innermost member => undeclared innermost (among member)⟩

end Frames

theorem frames_assign? {env after : Env} {x : String} {v : Value}
    (h : env.assign? x v = some after) : env.Frames (· = x) [] after := by
  refine ⟨keeps_assign? h, fun i y unassigned _ => ?_⟩
  have updated := scopes_assign? env x v
  rw [h] at updated
  apply update?_elsewhere updated.symm
  rintro rfl
  exact unassigned rfl

theorem moves_write_frames (name : Token) (v : Value) :
    Moves (Frames (· = name.lexeme) []) (write name v) := by
  intro env
  unfold write
  cases assigned : env.assign? name.lexeme v with
  | none => exact refl_of (Frames _ []) env
  | some after => exact frames_assign? assigned

end Env

/-- One of the expressions is an assignment to the name. -/
def Expr.Assigns (parts : List Expr) (x : String) : Prop :=
  ∃ name value, .assign name value ∈ parts ∧ name.lexeme = x

theorem effect_frames : Effect fun parts => Env.Frames (Expr.Assigns parts) where
  mono within among framed := framed.mono
    (fun _ ⟨name, value, member, same⟩ => ⟨name, value, within member, same⟩) among
  write name value v := (Env.moves_write_frames name v).mono fun _ _ framed =>
    framed.mono (fun _ same => ⟨name, value, List.mem_cons_self, same.symm⟩) (List.Subset.refl [])
  define env x v := Env.Frames.define env x v
  exit := Env.Frames.exit

namespace Stmt

/-- However a run ends, every scope binds what it did before, but for the names that the statement
assigns to and no scope further in binds, and those that it declares in the innermost scope. So no
shadowed binding changes, and none of a name that is neither assigned to nor declared. -/
theorem bindings_framed (fuel : Nat) (s : Stmt) (m : Machine) :
    (exec fuel s m).2.env.depth = m.env.depth ∧
      (∀ i x, (exec fuel s m).2.env.binding i x = m.env.binding i x ∨
        (Expr.Assigns s.parts x ∧ ∀ j < i, m.env.binding j x = none) ∨
        (i = 0 ∧ x ∈ s.declared)) ∧
      (∀ i x, m.env.Shadowed i x → (exec fuel s m).2.env.binding i x = m.env.binding i x) ∧
      ∀ x, ¬ Expr.Assigns s.parts x → x ∉ s.declared →
        ∀ i, (exec fuel s m).2.env.binding i x = m.env.binding i x := by
  have framed : m.env.Frames (Expr.Assigns s.parts) s.declared (exec fuel s m).2.env :=
    effect_frames.exec fuel s m
  refine ⟨framed.keeps.depth_eq, fun i x => ?_, fun i x shadowed => ?_, fun x unassigned
    undeclared i => ?_⟩
  · by_contra h
    simp only [not_or, not_and] at h
    obtain ⟨changed, unassigned, undeclared⟩ := h
    refine changed (framed.same i x (fun given => ?_) undeclared)
    simpa [Env.Shadowed, Option.isSome_iff_ne_none] using unassigned given
  · refine framed.same i x (fun _ => shadowed) fun innermost => ?_
    obtain ⟨j, nearer, _⟩ := shadowed
    omega
  · exact framed.same i x (fun given => absurd given unassigned) fun _ => undeclared

/-- `{ var a; while (b) b = a; }`, which assigns to the nearer one of two names `b`. -/
def settling : Stmt :=
  .block [.declare ⟨.name, "a", none, 1⟩ none, .loop (.var ⟨.name, "b", none, 1⟩)
    (.expression (.assign ⟨.name, "b", none, 1⟩ (.var ⟨.name, "a", none, 1⟩)))]

def twoScopes : Env := ⟨[("b", .bool true)], [[("b", .bool true), ("c", .bool false)]]⟩

theorem bindings_framed_settling :
    twoScopes.Shadowed 1 "b" ∧ ¬ Expr.Assigns settling.parts "c" ∧ "c" ∉ settling.declared ∧
      (exec 2 settling ⟨twoScopes, .unlimited⟩).2.env.binding 0 "b" = some .nil ∧
      ∀ fuel, (exec fuel settling ⟨twoScopes, .unlimited⟩).2.env.binding 1 "b" =
          some (.bool true) ∧
        ∀ i, (exec fuel settling ⟨twoScopes, .unlimited⟩).2.env.binding i "c" =
          twoScopes.binding i "c" := by
  have shadowed : twoScopes.Shadowed 1 "b" := ⟨0, by decide, rfl⟩
  have unassigned : ¬ Expr.Assigns settling.parts "c" := by
    rintro ⟨name, value, member, same⟩
    simp only [settling, parts, partsAll, Expr.parts, List.append_nil, List.nil_append,
      List.cons_append, List.mem_cons, reduceCtorEq, Expr.assign.injEq, List.not_mem_nil,
      false_or, or_false] at member
    rw [member.1] at same
    exact absurd same (by decide)
  have undeclared : "c" ∉ settling.declared := List.not_mem_nil
  refine ⟨shadowed, unassigned, undeclared, rfl, fun fuel => ?_⟩
  obtain ⟨_, _, behind, untouched⟩ := bindings_framed fuel settling ⟨twoScopes, .unlimited⟩
  exact ⟨behind 1 "b" shadowed, untouched "c" unassigned undeclared⟩

end Stmt

end Scriptlet
