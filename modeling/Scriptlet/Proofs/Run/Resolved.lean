import Scriptlet.Proofs.Run.Frame
import Scriptlet.Proofs.Run.Stops
import Scriptlet.Proofs.Syntax.Scoped

namespace Scriptlet

open Run Machine

/-- The run stopped for want of a variable. -/
def Stop.Unbound (stop : Stop) : Prop := ∃ x line, stop = .error (.undefinedVariable x line)

theorem Stop.not_unbound_unfinished : ¬ Stop.unfinished.Unbound := by
  rintro ⟨x, line, same⟩
  cases same

namespace Env

def Resolves (known : Set String) (env : Env) : Prop := ∀ x ∈ known, (env.get? x).isSome

theorem isSome_get?_iff {env : Env} {x : String} :
    (env.get? x).isSome ↔ ∃ i, (env.binding i x).isSome := by
  rw [get?, List.findSome?_isSome_iff]
  constructor
  · rintro ⟨scope, member, bound⟩
    obtain ⟨i, found⟩ := List.mem_iff_getElem?.mp member
    exact ⟨i, by rwa [binding, found]⟩
  · rintro ⟨i, bound⟩
    unfold binding at bound
    cases found : env.scopes[i]? with
    | none => simp [found] at bound
    | some scope =>
      rw [found] at bound
      exact ⟨scope, List.mem_of_getElem? found, bound⟩

theorem Keeps.resolves {names : List String} {known : Set String} {before after : Env}
    (h : before.Keeps names after) (resolves : before.Resolves known) : after.Resolves known := by
  intro x member
  obtain ⟨i, bound⟩ := isSome_get?_iff.mp (resolves x member)
  exact isSome_get?_iff.mpr ⟨i, h.bound_in bound⟩

theorem Resolves.define {known : Set String} {env : Env} (h : env.Resolves known) (x : String)
    (v : Value) : (env.define x v).Resolves (insert x known) := by
  rintro y (rfl | member)
  · exact isSome_get?_iff.mpr ⟨0, Scope.binds_set.mpr (.inl rfl)⟩
  · exact (Keeps.define env x v).resolves h y member

theorem Resolves.enter {known : Set String} {env : Env} (h : env.Resolves known) :
    env.enter.Resolves known := by
  intro x member
  obtain ⟨i, bound⟩ := isSome_get?_iff.mp (h x member)
  exact isSome_get?_iff.mpr ⟨i + 1, bound⟩

theorem isSome_update? (x : String) (v : Value) (scopes : List Scope) :
    (update? x v scopes).isSome = (scopes.findSome? (·.get? x)).isSome := by
  induction scopes with
  | nil => rfl
  | cons scope rest ih =>
    rw [update?, List.findSome?_cons]
    cases found : scope.get? x with
    | none => simpa using ih
    | some w => rfl

theorem isSome_assign? (env : Env) (x : String) (v : Value) :
    (env.assign? x v).isSome = (env.get? x).isSome := by
  rw [get?, ← isSome_update? x v, ← scopes_assign?, Option.isSome_map]

end Env

namespace Run

variable {σ α β : Type} {before between after weaker : σ → Prop}

/-- From a state with `before` the run does not stop for want of a variable, and if it ends it
leaves a state with `after`. -/
def Finds (before after : σ → Prop) (m : Run σ α) : Prop :=
  ∀ s, before s →
    match m s with
    | (.ok _, t) => after t
    | (.error stop, _) => ¬ stop.Unbound

namespace Finds

theorem mono {m : Run σ α} (h : Finds before after m) (weaken : ∀ s, after s → weaker s) :
    Finds before weaker m := by
  intro s holds
  have found := h s holds
  rcases ran : m s with ⟨stop | a, t⟩ <;> rw [ran] at found
  · exact found
  · exact weaken t found

theorem pure (a : α) : Finds before before (pure a : Run σ α) := fun _ => id

theorem result {f : σ → Except Stop α}
    (raised : ∀ s stop, before s → f s = .error stop → ¬ stop.Unbound) :
    Finds before before fun s => (f s, s) := by
  intro s holds
  cases given : f s with
  | ok a => simpa [given] using holds
  | error stop => simpa [given] using raised s stop holds given

theorem bind {m : Run σ α} {f : α → Run σ β} (first : Finds before between m)
    (next : ∀ a, Finds between after (f a)) : Finds before after (m >>= f) := by
  intro s holds
  have found := first s holds
  rw [bind_apply]
  rcases ran : m s with ⟨stop | a, t⟩ <;> rw [ran] at found
  · exact found
  · exact next a t found

end Finds

end Run

namespace Operator

theorem unary_bound {op : Token} {v : Value} {stop : Stop} (raised : unary op v = .error stop) :
    ¬ stop.Unbound := by
  rintro ⟨x, line, rfl⟩
  cases (unary_error raised).2

theorem binary_bound {op : Token} {v w : Value} {stop : Stop}
    (raised : binary op v w = .error stop) : ¬ stop.Unbound := by
  rintro ⟨x, line, rfl⟩
  rcases binary_error raised with ⟨_, same⟩ | ⟨_, same⟩ | ⟨_, same | same⟩ <;> cases same

end Operator

theorem Env.finds_write {known : Set String} {name : Token} (member : name.lexeme ∈ known)
    (v : Value) : Finds (Resolves known) (Resolves known) (write name v) := by
  intro env resolves
  have found := resolves _ member
  rw [← isSome_assign? env name.lexeme v] at found
  obtain ⟨after, assigned⟩ := Option.isSome_iff_exists.mp found
  simp only [write, assigned]
  exact (keeps_assign? assigned).resolves resolves

theorem Expr.mem_names_of_part {e p : Expr} (part : p ∈ e.parts) {x : String}
    (member : x ∈ p.names) : x ∈ e.names := by
  induction e <;> grind [parts, names]

theorem Expr.finds_rules (known : Set String) :
    Rules (Scoped known) (Finds (Env.Resolves known) (Env.Resolves known)) where
  pure := .pure
  bind := .bind
  unary _ _ := .result fun _ _ _ => Operator.unary_bound
  binary _ _ _ := .result fun _ _ _ => Operator.binary_bound
  var closed := by
    apply Finds.result
    intro env stop resolves raised
    obtain ⟨v, found⟩ := Option.isSome_iff_exists.mp (resolves _ (closed _ List.mem_cons_self))
    simp [Env.read, found] at raised
  assign v closed := Env.finds_write (closed _ List.mem_cons_self) v

theorem Expr.finds_eval {known : Set String} (e : Expr) (closed : e.Scoped known) :
    Finds (Env.Resolves known) (Env.Resolves known) e.eval :=
  (finds_rules known).eval e fun _ part x member => closed x (mem_names_of_part part member)

namespace Machine

variable {α : Type} {known more : Set String}

def Resolves (known : Set String) (m : Machine) : Prop := m.env.Resolves known

theorem finds_onEnv {m : Run Env α} (h : Finds (Env.Resolves known) (Env.Resolves more) m) :
    Finds (Resolves known) (Resolves more) (onEnv m) := by
  intro s resolves
  have found := h s.env resolves
  simp only [onEnv]
  rcases ran : m s.env with ⟨_ | a, env⟩ <;> rw [ran] at found <;> exact found

theorem finds_printLine (text : String) :
    Finds (Resolves known) (Resolves known) (printLine text) := by
  intro s resolves
  simp only [printLine]
  by_cases fits : s.sink.fits (text ++ "\n").utf8ByteSize
  · simp only [fits, if_true]
    exact resolves
  · simp only [fits, Bool.false_eq_true, if_false]
    rintro ⟨x, line, same⟩
    cases same

theorem finds_define (x : String) (v : Value) :
    Finds (Resolves known) (Resolves (insert x known)) (define x v) :=
  fun _ resolves => Env.Resolves.define resolves x v

/-- Whatever the body binds is gone behind the block, and what was bound before it still is. -/
theorem finds_inScope {names : List String} {body : Run Machine Unit}
    (inside : Finds (Resolves known) (Resolves more) body)
    (kept : Moves (OnEnv (Env.Keeps names)) body) :
    Finds (Resolves known) (Resolves known) (inScope body) := by
  intro s resolves
  have found := inside { s with env := s.env.enter } (Env.Resolves.enter resolves)
  have left := kept { s with env := s.env.enter }
  simp only [inScope]
  rcases ran : body { s with env := s.env.enter } with ⟨_ | _, t⟩ <;> rw [ran] at found left
  · exact found
  · exact (Env.Keeps.exit left).resolves resolves

end Machine

namespace Stmt

variable {known : Set String}

theorem finds_rules (all : List Expr) :
    Rules all fun known more => Finds (Machine.Resolves known) (Machine.Resolves more) where
  pure := .pure
  bind := .bind
  forget run fewer := run.mono fun _ resolves x member => resolves x (fewer member)
  evaluation _ closed := finds_onEnv (Expr.finds_eval _ closed)
  printLine := finds_printLine
  define := finds_define
  block run := finds_inScope run (moves_execAll fun s _ => moves_exec _ s)
  unfinished := .result fun _ _ _ raised => Except.error.inj raised ▸ Stop.not_unbound_unfinished

/-- Statements whose names are all known, on an environment with a value for each known name, never
stop at an undefined variable, however long they run. Wherever a run gets to, each of the names
still has a value. -/
theorem execAll_resolved {statements : List Stmt} (closed : ScopedAll known statements)
    {m : Machine} (resolves : ∀ x ∈ known, (m.env.get? x).isSome) (fuel : Nat) :
    (∀ x line, (execAll fuel statements m).1 ≠ .error (.error (.undefinedVariable x line))) ∧
      ∀ x ∈ known, ((execAll fuel statements m).2.env.get? x).isSome := by
  constructor
  · intro x line stopped
    have rules := finds_rules (partsAll statements)
    have found := rules.execAll fuel (List.Subset.refl _) closed m resolves
    rcases ran : execAll fuel statements m with ⟨stop | _, t⟩ <;> rw [ran] at found stopped
    · exact found ⟨x, line, Except.error.inj stopped⟩
    · cases stopped
  · have kept : m.env.Keeps (declaredAll statements) (execAll fuel statements m).2.env :=
      moves_execAll (fun s _ => moves_exec fuel s) m
    exact kept.resolves resolves

/-- `var b = a; { var a = b; while (a) a = nil; } if (b) var c = b = a;`, where only `a` is known at
the start. -/
def shadowing : List Stmt :=
  let name (x : String) : Token := ⟨.name, x, none, 1⟩
  [.declare (name "b") (some (.var (name "a"))),
    .block [.declare (name "a") (some (.var (name "b"))),
      .loop (.var (name "a")) (.expression (.assign (name "a") .nil))],
    .branch (.var (name "b"))
      (.declare (name "c") (some (.assign (name "b") (.var (name "a"))))) none]

theorem execAll_resolved_shadowing :
    ScopedAll {"a"} shadowing ∧
      (∀ x ∈ ({"a"} : Set String), (Env.get? ⟨[], [[("a", .bool true)]]⟩ x).isSome) ∧
      ∀ fuel, (∀ x line, (execAll fuel shadowing ⟨⟨[], [[("a", .bool true)]]⟩, .unlimited⟩).1 ≠
          .error (.error (.undefinedVariable x line))) ∧
        ∀ x ∈ ({"a"} : Set String), ((execAll fuel shadowing
          ⟨⟨[], [[("a", .bool true)]]⟩, .unlimited⟩).2.env.get? x).isSome := by
  have closed : ScopedAll {"a"} shadowing := by
    simp [shadowing, ScopedAll, Scoped, extend, Expr.Scoped, Expr.names]
  have resolves : ∀ x ∈ ({"a"} : Set String),
      (Env.get? ⟨[], [[("a", .bool true)]]⟩ x).isSome := by
    rintro _ rfl
    rfl
  exact ⟨closed, resolves, execAll_resolved closed resolves⟩

example : (execAll 0 [.branch (.bool false) (.declare ⟨.name, "c", none, 1⟩ none) none,
      .print (.var ⟨.name, "c", none, 2⟩)] .initial).1 =
    .error (.error (.undefinedVariable "c" 2)) := rfl

end Stmt

end Scriptlet
