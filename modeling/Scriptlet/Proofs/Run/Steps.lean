import Mathlib.Logic.Function.Iterate
import Scriptlet.Proofs.Run.Stops

/-!
Runs step by step. A step evaluates the expression of one statement, with what the statement does
with its value, or leaves one scope. There is no bound on the turns of a loop, so that also a run
that never ends is known by what it does in its first steps, however many. The steps come to an end
if and only if the run does within some bound, and then they end where the run ends.
-/

namespace Scriptlet

open Run Machine

instance {σ : Type} : LawfulMonad (Run σ) := by
  refine LawfulMonad.mk' (Run σ) ?_ (fun _ _ => rfl) ?_
  · intro α m
    funext s
    show (m >>= fun a => pure a) s = m s
    rw [bind_apply]
    rcases m s with ⟨_ | _, t⟩ <;> rfl
  · intro α β γ m f g
    funext s
    simp only [bind_apply]
    rcases m s with ⟨_ | _, t⟩ <;> rfl

/-- Something that a run has still to do. -/
inductive Job where
  | run (s : Stmt)
  | leave

/-- A run on its way. Once it was stopped, all it does is to leave the scopes that it is in. -/
structure Progress where
  jobs : List Job
  stop : Option Stop
  machine : Machine

namespace Stmt

/-- The first step of a statement, and whether its condition holds if it has one. -/
def begin : Stmt → Run Machine Bool
  | .expression e => do
    let _ ← onEnv e.eval
    pure true
  | .print e => do
    let v ← onEnv e.eval
    printLine v.text
    pure true
  | .declare name (some e) => do
    let v ← onEnv e.eval
    define name.lexeme v
    pure true
  | .declare name none => do
    define name.lexeme .nil
    pure true
  | .block _ => fun m => (.ok true, { m with env := m.env.enter })
  | .branch condition _ _ | .loop condition _ => do
    let v ← onEnv condition.eval
    pure v.truthy

/-- What there is to do after the first step. -/
def jobs (holds : Bool) : Stmt → List Job
  | .expression _ | .print _ | .declare _ _ => []
  | .block body => body.map Job.run ++ [.leave]
  | .branch _ yes no => if holds then [.run yes] else (no.map Job.run).toList
  | .loop condition body => if holds then [.run body, .run (.loop condition body)] else []

end Stmt

namespace Progress

/-- When all jobs are done nothing changes any more. -/
def step : Progress → Progress
  | ⟨[], stop, m⟩ => ⟨[], stop, m⟩
  | ⟨.leave :: rest, stop, m⟩ => ⟨rest, stop, { m with env := m.env.exit }⟩
  | ⟨.run _ :: rest, some stop, m⟩ => ⟨rest, some stop, m⟩
  | ⟨.run s :: rest, none, m⟩ =>
    match s.begin m with
    | (.ok holds, m) => ⟨s.jobs holds ++ rest, none, m⟩
    | (.error stop, m) => ⟨rest, some stop, m⟩

def start (statements : List Stmt) (m : Machine) : Progress := ⟨statements.map .run, none, m⟩

def landed (rest : List Job) : Except Stop Unit × Machine → Progress
  | (.ok (), m) => ⟨rest, none, m⟩
  | (.error stop, m) => ⟨rest, some stop, m⟩

def Reaches (p q : Progress) : Prop := ∃ n, step^[n] p = q

/-- So many steps, or more, lead to where a job before `rest` is to be done next. -/
def Lasts (n : Nat) (rest : List Job) (p : Progress) : Prop :=
  ∃ job work m, ∃ more ≥ n, step^[more] p = ⟨job :: (work ++ rest), none, m⟩

variable {p q o : Progress} {rest : List Job} {n : Nat}

namespace Reaches

theorem refl (p : Progress) : Reaches p p := ⟨0, rfl⟩

theorem trans (first : Reaches p q) (second : Reaches q o) : Reaches p o := by
  obtain ⟨i, rfl⟩ := first
  obtain ⟨j, rfl⟩ := second
  exact ⟨j + i, Function.iterate_add_apply step j i p⟩

theorem head (h : Reaches p.step q) : Reaches p q := by
  obtain ⟨n, rfl⟩ := h
  exact ⟨n + 1, Function.iterate_succ_apply step n p⟩

theorem skip (body : List Stmt) (rest : List Job) (stop : Stop) (m : Machine) :
    Reaches ⟨body.map .run ++ rest, some stop, m⟩ ⟨rest, some stop, m⟩ := by
  induction body with
  | nil => exact .refl _
  | cons s body ih => exact head ih

end Reaches

namespace Lasts

theorem head (h : Lasts n rest p.step) : Lasts (n + 1) rest p := by
  obtain ⟨job, work, m, more, le, last⟩ := h
  exact ⟨job, work, m, more + 1, Nat.succ_le_succ le,
    (Function.iterate_succ_apply step more p).trans last⟩

theorem of_reaches (first : Reaches p q) (h : Lasts n rest q) : Lasts n rest p := by
  obtain ⟨i, rfl⟩ := first
  obtain ⟨job, work, m, more, le, last⟩ := h
  exact ⟨job, work, m, more + i, Nat.le_add_right_of_le le,
    (Function.iterate_add_apply step more i p).trans last⟩

theorem outer {inner : List Job} (h : Lasts n (inner ++ rest) p) : Lasts n rest p := by
  obtain ⟨job, work, m, more, le, last⟩ := h
  exact ⟨job, work ++ inner, m, more, le, by rw [last, List.append_assoc]⟩

theorem mono {fewer : Nat} (h : Lasts n rest p) (le : fewer ≤ n) : Lasts fewer rest p := by
  obtain ⟨job, work, m, more, enough, last⟩ := h
  exact ⟨job, work, m, more, Nat.le_trans le enough, last⟩

end Lasts

/-- The steps agree with the result and the state of a run: they get there, or if the run was left
unfinished they last for so many. -/
structure Agrees (n : Nat) (rest : List Job) (p : Progress)
    (ran : Except Stop Unit × Machine) : Prop where
  reaches : ran.1 ≠ .error .unfinished → Reaches p (landed rest ran)
  lasts : ran.1 = .error .unfinished → Lasts n rest p

namespace Agrees

variable {ran : Except Stop Unit × Machine}

theorem of_ended (ended : ran.1 ≠ .error .unfinished) (reached : Reaches p (landed rest ran)) :
    Agrees n rest p ran := ⟨fun _ => reached, fun unended => absurd unended ended⟩

theorem ok (m : Machine) : Agrees n rest ⟨rest, none, m⟩ (.ok (), m) := of_ended nofun (.refl _)

theorem head (h : Agrees n rest p.step ran) : Agrees (n + 1) rest p ran :=
  ⟨fun ended => (h.reaches ended).head, fun unended => (h.lasts unended).head⟩

theorem mono {fewer : Nat} (h : Agrees n rest p ran) (le : fewer ≤ n) : Agrees fewer rest p ran :=
  ⟨h.reaches, fun unended => (h.lasts unended).mono le⟩

theorem bind {first next : Run Machine Unit} {body : List Stmt} {m : Machine}
    (h : Agrees n (body.map .run ++ rest) p (first m))
    (goes : ∀ t, Agrees n rest ⟨body.map .run ++ rest, none, t⟩ (next t)) :
    Agrees n rest p ((first >>= fun _ => next) m) := by
  rw [bind_apply]
  rcases ran : first m with ⟨stop | _, t⟩ <;> rw [ran] at h
  · exact ⟨fun ended => (h.reaches ended).trans (.skip body rest stop t),
      fun unended => (h.lasts unended).outer⟩
  · have first := h.reaches nofun
    exact ⟨fun ended => first.trans ((goes t).reaches ended),
      fun unended => .of_reaches first ((goes t).lasts unended)⟩

theorem inScope {body : Run Machine Unit} {m : Machine}
    (h : Agrees n (.leave :: rest) p (body { m with env := m.env.enter })) :
    Agrees n rest p (Machine.inScope body m) := by
  rw [Machine.inScope]
  rcases ran : body { m with env := m.env.enter } with ⟨result, t⟩
  rw [ran] at h
  have outside : Lasts n ([.leave] ++ rest) p → Lasts n rest p := Lasts.outer
  refine ⟨fun ended => (h.reaches ended).trans (Reaches.head ?_), fun unended =>
    outside (h.lasts unended)⟩
  cases result <;> exact .refl _

end Agrees

end Progress

theorem Expr.ended (e : Expr) : StopsFor (· ≠ .unfinished) (onEnv e.eval) := by
  intro m stop stopped
  obtain ⟨p, _, raises⟩ := e.stopsFor_eval m.env stop stopped
  rintro rfl
  cases raises with
  | unary raised => cases (Operator.unary_error raised).2
  | binary raised =>
    rcases Operator.binary_error raised with ⟨_, same⟩ | ⟨_, same⟩ | ⟨_, same | same⟩ <;> cases same

namespace Stmt

open Progress

variable {rest : List Job} {fuel n : Nat} {s : Stmt} {m : Machine}

theorem agrees_single (single : ∀ holds, s.jobs holds = [])
    (same : s.exec fuel = s.begin >>= fun _ => pure ())
    (ended : StopsFor (· ≠ .unfinished) s.begin) :
    Agrees n rest ⟨.run s :: rest, none, m⟩ (s.exec fuel m) := by
  rw [same, bind_apply]
  rcases begun : s.begin m with ⟨stop | holds, t⟩
  · have stays := ended m stop (by rw [begun])
    refine .of_ended (fun unended => stays (Except.error.inj unended)) (Reaches.head ?_)
    simp only [step, begun]
    exact .refl _
  · refine .of_ended nofun (Reaches.head ?_)
    simp only [step, begun, single]
    exact .refl _

theorem agrees_test {condition : Expr} {next : Value → Run Machine Unit}
    (begins : s.begin = onEnv condition.eval >>= fun v => pure v.truthy)
    (goes : ∀ v t, Agrees n rest ⟨s.jobs v.truthy ++ rest, none, t⟩ (next v t)) :
    Agrees (n + 1) rest ⟨.run s :: rest, none, m⟩ ((onEnv condition.eval >>= next) m) := by
  rw [bind_apply]
  rcases tested : onEnv condition.eval m with ⟨stop | v, t⟩
  · have stays := condition.ended m stop (by rw [tested])
    refine .of_ended (fun unended => stays (Except.error.inj unended)) (Reaches.head ?_)
    simp only [step, begins, bind_apply, tested]
    exact .refl _
  · apply Agrees.head
    simp only [step, begins, bind_apply, tested]
    exact goes v t

theorem agrees_execAll {body : List Stmt}
    (each : ∀ s ∈ body, ∀ rest m, Agrees fuel rest ⟨.run s :: rest, none, m⟩ (s.exec fuel m))
    (rest : List Job) (m : Machine) :
    Agrees fuel rest ⟨body.map .run ++ rest, none, m⟩ (execAll fuel body m) := by
  induction body generalizing m with
  | nil => exact .ok m
  | cons s body ih =>
    apply (each s List.mem_cons_self _ m).bind
    exact ih fun t member => each t (List.mem_cons_of_mem s member)

theorem agrees_turn {condition : Expr} {body : Stmt}
    (inside : ∀ rest m,
      Agrees fuel rest ⟨.run body :: rest, none, m⟩ (body.exec fuel m)) {turns : Nat}
    (within : turns ≤ fuel) (m : Machine) :
    Agrees turns rest ⟨.run (.loop condition body) :: rest, none, m⟩
      (turn (onEnv condition.eval) (body.exec fuel) turns m) := by
  induction turns generalizing m with
  | zero =>
    exact ⟨fun ended => absurd rfl ended, fun _ => ⟨_, [], m, 0, Nat.le_refl 0, rfl⟩⟩
  | succ turns ih =>
    rw [turn_succ]
    apply agrees_test rfl
    intro v t
    cases holds : v.truthy with
    | false => exact .ok t
    | true =>
      have fewer := Nat.le_of_succ_le within
      have first : Agrees turns ([Stmt.loop condition body].map .run ++ rest)
          ⟨.run body :: .run (.loop condition body) :: rest, none, t⟩ (body.exec fuel t) :=
        (inside _ t).mono fewer
      exact first.bind (ih fewer)

theorem agrees_exec (fuel : Nat) (s : Stmt) (rest : List Job) (m : Machine) :
    Agrees fuel rest ⟨.run s :: rest, none, m⟩ (s.exec fuel m) := by
  induction s generalizing rest m with
  | expression e =>
    exact agrees_single (fun _ => rfl) (by simp [exec, begin]) (e.ended.bind fun _ => .pure true)
  | print e =>
    have printed (text : String) : StopsFor (· ≠ .unfinished) (printLine text) :=
      (stopsFor_printLine text).mono (by rintro _ rfl same; cases same)
    exact agrees_single (fun _ => rfl) (by simp [exec, begin])
      (e.ended.bind fun v => (printed v.text).bind fun _ => .pure true)
  | declare name initializer =>
    have defined (v : Value) : StopsFor (· ≠ .unfinished) (define name.lexeme v) :=
      stopsFor_define name.lexeme v
    cases initializer with
    | none =>
      exact agrees_single (fun _ => rfl) (by simp [exec, begin])
        ((defined .nil).bind fun _ => .pure true)
    | some e =>
      exact agrees_single (fun _ => rfl) (by simp [exec, begin])
        (e.ended.bind fun v => (defined v).bind fun _ => .pure true)
  | block body ih =>
    have inside := (agrees_execAll ih (.leave :: rest) { m with env := m.env.enter }).inScope
    refine Agrees.mono (Agrees.head ?_) (Nat.le_succ fuel)
    rw [exec]
    simpa only [step, begin, jobs, List.append_assoc, List.singleton_append] using inside
  | branch condition yes no yesIH noIH =>
    unfold exec
    refine Agrees.mono (agrees_test rfl fun v t => ?_) (Nat.le_succ fuel)
    cases holds : v.truthy with
    | true => exact yesIH rest t
    | false =>
      cases no with
      | none => exact .ok t
      | some no => exact noIH no rfl rest t
  | loop condition body ih => exact agrees_turn ih (Nat.le_refl fuel) m

theorem agrees_start (fuel : Nat) (statements : List Stmt) (m : Machine) :
    Agrees fuel [] (start statements m) (execAll fuel statements m) := by
  simpa only [start, List.append_nil] using agrees_execAll (fun s _ => s.agrees_exec fuel) [] m

end Stmt

namespace Progress

theorem jobs_of_ended {p : Progress} (ended : p.jobs = []) (n : Nat) :
    (step^[n] p).jobs = [] := by
  induction n generalizing p with
  | zero => exact ended
  | succ n ih =>
    obtain ⟨jobs, stop, m⟩ := p
    cases ended
    exact ih rfl

/-- The steps of a run come to an end if and only if the run does within some bound, and then it
is the same end. -/
theorem ends_iff (statements : List Stmt) (m : Machine) :
    ((∃ n, (step^[n] (start statements m)).jobs = []) ↔
        ∃ fuel, (Stmt.execAll fuel statements m).1 ≠ .error .unfinished) ∧
      ∀ fuel, (Stmt.execAll fuel statements m).1 ≠ .error .unfinished →
        Reaches (start statements m) (landed [] (Stmt.execAll fuel statements m)) := by
  have agrees (fuel : Nat) := Stmt.agrees_start fuel statements m
  refine ⟨⟨?_, ?_⟩, fun fuel => (agrees fuel).reaches⟩
  · rintro ⟨n, ended⟩
    refine ⟨n, fun unended => ?_⟩
    obtain ⟨job, work, t, more, le, last⟩ := (agrees n).lasts unended
    have still := jobs_of_ended ended (more - n)
    rw [← Function.iterate_add_apply, Nat.sub_add_cancel le, last] at still
    cases still
  · rintro ⟨fuel, ended⟩
    obtain ⟨n, reached⟩ := (agrees fuel).reaches ended
    refine ⟨n, ?_⟩
    rw [reached]
    rcases Stmt.execAll fuel statements m with ⟨_ | _, t⟩ <;> rfl

end Progress

end Scriptlet
